import StorageScenario.DiskPath
import StorageScenario.FileTree

/-!
The way a path leads through a file tree. A look-up follows links in the middle of
a path always and at its end on demand, up to a fixed number of them. Every
directory on the way has to be one that may be searched.
-/

namespace StorageScenario.FileTree

/-- A node with the way to it: the names under which the node and the
directories above it stand, the lowest first, each with the directory that it
stands in. -/
structure Place where
  node : Node
  above : List (String × Node)

namespace Place

def names (place : Place) : List String := (place.above.map Prod.fst).reverse

def down (place : Place) (name : String) (child : Node) : Place :=
  ⟨child, (name, place.node) :: place.above⟩

def up (place : Place) : Place :=
  match place.above with
  | [] => place
  | (_, directory) :: above => ⟨directory, above⟩

/-- Looking anything up in a directory takes the permission to search it. -/
def checkSearch (place : Place) : Except FileFault Unit :=
  if place.node.allows .search then .ok () else .error .permissionDenied

end Place

/-- What a path is looked up for: the entry it names, be it a link; what it leads
to behind any link; a file to be written there; or its spelling without links,
for which every directory on the way needs a path that is not too long. -/
inductive Aim where
  | entry
  | target
  | writing
  | spelling
  deriving DecidableEq

/-- Where a path leads: to a node that is there, or to a free name in a
directory. -/
inductive Spot where
  | found (place : Place)
  | vacant (directory : Place) (name : String)

/-- How far a path leads before the next link that has to be followed. -/
inductive Stride where
  | arrived (spot : Spot)
  | detour (place : Place) (steps : List DiskPath.Step)

def longestName : Nat := 255

def longestPath : Nat := 4095

/-- The number of links that one look-up may follow. -/
def linkLimit : Nat := 40

/-- What stands under a name in a directory, before the remaining steps. A file to
be written cannot be asked for as a directory, whether it is there or not. -/
def lookUp (aim : Aim) (place : Place) (name : String) (remaining : List DiskPath.Step) :
    Except FileFault (Option Node) := do
  place.checkSearch
  if aim = .writing ∧ remaining = [.asFolder] then throw .isADirectory
  else if longestName < name.utf8ByteSize then throw .invalidFilename
  else if aim = .spelling ∧
      longestPath < (DiskPath.ofNames (place.names ++ [name])).utf8ByteSize then
    throw .invalidFilename
  else return place.node.entries.lookup name

/-- Makes steps up to the last, or up to a link that has to be followed. -/
def stride (root : Node) (aim : Aim) : Place → List DiskPath.Step → Except FileFault Stride
  | place, [] => .ok (.arrived (.found place))
  | place, .asFolder :: rest => stride root aim place rest
  | place, .here :: rest => do
      place.checkSearch
      stride root aim place rest
  | place, .up :: rest => do
      place.checkSearch
      stride root aim place.up rest
  | place, .down name :: rest => do
      match ← lookUp aim place name rest with
      | none => if rest.isEmpty then return .arrived (.vacant place name) else throw .notFound
      | some child =>
          match child with
          | .directory _ _ _ => stride root aim (place.down name child) rest
          | .file _ _ _ =>
              if rest.isEmpty then return .arrived (.found (place.down name child))
              else throw .notADirectory
          | .link _ target =>
              if rest.isEmpty ∧ aim = .entry then
                return .arrived (.found (place.down name child))
              else
                return .detour (if DiskPath.isAbsolute target then ⟨root, []⟩ else place)
                  (DiskPath.route target ++ rest)

/-- Makes all steps and follows links, of which there may be so many. -/
def walk (root : Node) (aim : Aim) : Nat → Place → List DiskPath.Step → Except FileFault Spot
  | links, place, steps =>
      match stride root aim place steps with
      | .error cause => .error cause
      | .ok (.arrived spot) => .ok spot
      | .ok (.detour start remaining) =>
          match links with
          | 0 => .error .filesystemLoop
          | links + 1 => walk root aim links start remaining

def search (tree : FileTree) (aim : Aim) (steps : List DiskPath.Step) : Except FileFault Spot :=
  walk tree.root aim linkLimit ⟨tree.root, []⟩ steps

def enter (tree : FileTree) (steps : List DiskPath.Step) : Except FileFault Place :=
  match tree.search .target (steps ++ [.here]) with
  | .ok (.found place) => .ok place
  | .ok (.vacant _ _) => .error .notFound
  | .error cause => .error cause

end StorageScenario.FileTree
