/-!
Paths of objects inside a container. A path is read as steps from the container
root: empty steps and `.` stay, `..` goes up and stays when there is nothing
above, and every other step goes down. The clean form names the folder reached,
so it has neither empty, `.` or `..` steps nor slashes at its ends.
-/

namespace StorageScenario.ObjectPath

/-- The texts between slashes. There is always one more of them than slashes. -/
def splitSlash : List Char → List (List Char)
  | [] => [[]]
  | letter :: rest =>
      if letter = '/' then [] :: splitSlash rest
      else
        match splitSlash rest with
        | [] => [[letter]]
        | piece :: pieces => (letter :: piece) :: pieces

def pieces (path : String) : List String :=
  (splitSlash path.toList).map String.ofList

/-- One step. The deepest folder stands first in the trail. -/
def follow (trail : List String) (piece : String) : List String :=
  if piece = "" ∨ piece = "." then trail
  else if piece = ".." then trail.tail
  else piece :: trail

/-- The names from the container root down, after all steps. -/
def resolve (steps : List String) : List String :=
  (steps.foldl follow []).reverse

def render (names : List String) : String :=
  "/".intercalate names

def names (path : String) : List String :=
  resolve (pieces path)

/-- The steps of `parent` followed by those of `child`, in clean form. -/
def join (parent child : String) : String :=
  render (resolve (pieces parent ++ pieces child))

def clean (path : String) : String := join "" path

/-- The text that begins every path below `folder`. -/
def below (folder : String) : String := folder ++ "/"

end StorageScenario.ObjectPath
