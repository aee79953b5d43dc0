import StorageScenario.Body
import StorageScenario.ObjectPath
import StorageScenario.Properties

/-!
Wanted objects. A mapping puts object definitions at paths in one of five ways,
nested at will, and flattening turns it into one table from paths to
definitions. The empty path stands for the folder in which the mapping is used.
-/

namespace StorageScenario

/-- What one object should be. Without a body it is created empty and its
contents are not compared. -/
structure ObjectDefinition where
  name : Option String := none
  properties : ObjectProperties := {}
  body : Option Body := none
  shouldExist : Option Bool := none

namespace ObjectDefinition

def folder : ObjectDefinition := { properties := ObjectProperties.folder }

def isWanted (definition : ObjectDefinition) : Bool :=
  definition.shouldExist.getD true

def boundTo (definition : ObjectDefinition) (name : String) : ObjectDefinition :=
  { definition with name := some name }

def markedFolder (definition : ObjectDefinition) : ObjectDefinition :=
  { definition with properties := { definition.properties with kind := .folder } }

def bodiesAgree : Option Body → Option Body → Bool
  | some first, some second => first.agrees second
  | none, none => true
  | _, _ => false

def agrees (first second : ObjectDefinition) : Bool :=
  bodiesAgree first.body second.body && first.name == second.name &&
    first.properties == second.properties && first.shouldExist == second.shouldExist

instance : BEq ObjectDefinition := ⟨agrees⟩

end ObjectDefinition

inductive Mapping where
  /-- Definitions at their paths, as written. -/
  | flat (objects : Table ObjectDefinition)
  /-- A folder and what is under each name in it. -/
  | folder (own : ObjectDefinition) (children : List (String × Mapping))
  /-- One object in the place of the whole mapping. -/
  | single (object : ObjectDefinition)
  /-- A mapping moved below a folder. -/
  | under (parent : String) (mapping : Mapping)
  /-- Two mappings in one place, of which the upper one wins. -/
  | overlay (base upper : Mapping)

namespace Mapping

instance : Inhabited Mapping := ⟨.flat ∅⟩

/-- The children in the order of their names, each name once. -/
def folderOf (own : ObjectDefinition) (children : Table Mapping) : Mapping :=
  .folder own children.entries

/-- The entries of a table with their paths moved below a folder. -/
def moved (parent : String) (objects : Table ObjectDefinition) :
    List (String × ObjectDefinition) :=
  objects.entries.map fun entry => (ObjectPath.join parent entry.1, entry.2)

mutual

/-- The one table that a mapping stands for. Where two definitions come to the
same path, the later one stays. -/
def flatten : Mapping → Table ObjectDefinition
  | .flat objects => objects
  | .folder own children => (Table.singleton "" own.markedFolder).extend (flattenChildren children)
  | .single object => Table.singleton "" object
  | .under parent mapping => Table.ofList (moved parent mapping.flatten)
  | .overlay base upper => base.flatten.extend upper.flatten.entries

def flattenChildren : List (String × Mapping) → List (String × ObjectDefinition)
  | [] => []
  | (name, child) :: rest => moved name child.flatten ++ flattenChildren rest

end

mutual

def agrees : Mapping → Mapping → Bool
  | .flat first, .flat second => first == second
  | .folder first firstChildren, .folder second secondChildren =>
      first == second && childrenAgree firstChildren secondChildren
  | .single first, .single second => first == second
  | .under first firstMapping, .under second secondMapping =>
      first == second && firstMapping.agrees secondMapping
  | .overlay firstBase firstUpper, .overlay secondBase secondUpper =>
      firstBase.agrees secondBase && firstUpper.agrees secondUpper
  | _, _ => false

def childrenAgree : List (String × Mapping) → List (String × Mapping) → Bool
  | [], [] => true
  | (first, firstChild) :: firstRest, (second, secondChild) :: secondRest =>
      first == second && firstChild.agrees secondChild && childrenAgree firstRest secondRest
  | _, _ => false

end

instance : BEq Mapping := ⟨agrees⟩

end Mapping

end StorageScenario
