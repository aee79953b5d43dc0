import StorageScenario.ObjectPath

/-!
Paths of a file system as text. Unlike an object path, a disk path keeps its
spelling: joining appends, an absolute second part replaces the first, and only
looking a path up gives its steps a meaning.
-/

namespace StorageScenario.DiskPath

/-- One step of a look-up. The last kind stays where it is and asks for a
directory to be there. -/
inductive Step where
  | here
  | up
  | down (name : String)
  | asFolder
  deriving DecidableEq

def isAbsolute (path : String) : Bool := path.toList.head? = some '/'

def endsWithSlash (path : String) : Bool := path.toList.getLast? = some '/'

/-- An empty second part still adds the slash. -/
def join (base name : String) : String :=
  if isAbsolute name then name
  else if base = "" ∨ endsWithSlash base then base ++ name
  else base ++ "/" ++ name

def step? (piece : String) : Option Step :=
  if piece = "" then none
  else if piece = "." then some .here
  else if piece = ".." then some .up
  else some (.down piece)

/-- What stands between the slashes, without empty texts. -/
def steps (path : String) : List Step :=
  (ObjectPath.pieces path).filterMap step?

/-- The steps of a look-up, to which a slash at the end of the path adds one. -/
def route (path : String) : List Step :=
  if endsWithSlash path then steps path ++ [.asFolder] else steps path

/-- Whether a text between slashes leads nowhere. -/
def isIdle (piece : String) : Bool := piece = "" || piece = "."

/-- The text without its last step, and without the slashes and dots that this
leaves at its end. A root has no parent. -/
def parent? (path : String) : Option String :=
  match (ObjectPath.pieces path).reverse.dropWhile isIdle with
  | [] => none
  | _ :: above =>
      match (above.dropWhile isIdle).reverse with
      | [] => some (if isAbsolute path then "/" else "")
      | pieces => some ("/".intercalate pieces)

def ancestors : Nat → String → List String
  | 0, path => [path]
  | depth + 1, path =>
      match parent? path with
      | none => [path]
      | some above => path :: ancestors depth above

/-- A path and the paths above it, the deepest first. -/
def lineage (path : String) : List String :=
  ancestors (ObjectPath.pieces path).length path

def ofNames (names : List String) : String :=
  "/" ++ "/".intercalate names

end StorageScenario.DiskPath
