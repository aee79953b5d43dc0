import StorageScenario.Mapping
import StorageScenario.Resource

/-!
Definitions of wanted state at every level, and the way down from a definition
with one child to that child.
-/

namespace StorageScenario

structure ContainerDefinition where
  name : Option String := none
  properties : ContainerProperties := {}
  objects : Mapping := .flat ∅
  shouldExist : Option Bool := none

namespace ContainerDefinition

def isWanted (definition : ContainerDefinition) : Bool :=
  definition.shouldExist.getD true

def boundTo (definition : ContainerDefinition) (name : String) : ContainerDefinition :=
  { definition with name := some name }

def agrees (first second : ContainerDefinition) : Bool :=
  first.name == second.name && first.properties == second.properties &&
    first.objects == second.objects && first.shouldExist == second.shouldExist

instance : BEq ContainerDefinition := ⟨agrees⟩

end ContainerDefinition

structure ServiceDefinition where
  containers : Table ContainerDefinition := ∅

inductive Definition where
  | service (definition : ServiceDefinition)
  | container (definition : ContainerDefinition)
  | object (definition : ObjectDefinition)

namespace Definition

def level : Definition → Level
  | .service _ => .service
  | .container _ => .container
  | .object _ => .object

/-- A service cannot be declared absent. -/
def isWanted : Definition → Bool
  | .service _ => true
  | .container definition => definition.isWanted
  | .object definition => definition.isWanted

def name? : Definition → Option String
  | .service _ => none
  | .container definition => definition.name
  | .object definition => definition.name

def boundTo (definition : Definition) (name : String) : Definition :=
  match definition with
  | .service inner => .service inner
  | .container inner => .container (inner.boundTo name)
  | .object inner => .object (inner.boundTo name)

def agrees : Definition → Definition → Bool
  | .service first, .service second => first.containers == second.containers
  | .container first, .container second => first == second
  | .object first, .object second => first == second
  | _, _ => false

instance : BEq Definition := ⟨agrees⟩

def asService (definition : Definition) : Except ScenarioError ServiceDefinition :=
  match definition with
  | .service inner => .ok inner
  | other => .error (.unexpectedDefinitionShape .service other.level)

def asContainer (definition : Definition) : Except ScenarioError ContainerDefinition :=
  match definition with
  | .container inner => .ok inner
  | other => .error (.unexpectedDefinitionShape .container other.level)

def asObject (definition : Definition) : Except ScenarioError ObjectDefinition :=
  match definition with
  | .object inner => .ok inner
  | other => .error (.unexpectedDefinitionShape .object other.level)

/-- Whether the definition has the shape of the given level. -/
def checkShape (definition : Definition) (level : Level) : Except ScenarioError Unit :=
  if definition.level = level then .ok ()
  else .error (.unexpectedDefinitionShape level definition.level)

/-- The definition one level up whose only child is this one under `name`. -/
def wrap (definition : Definition) (name : String) : Except ScenarioError Definition :=
  match definition with
  | .service _ => .error (.noAdoptiveParent .service)
  | .container inner =>
      .ok (.service { containers := Table.singleton name (inner.boundTo name) })
  | .object inner =>
      .ok (.container { objects := .flat (Table.singleton name (inner.boundTo name)) })

def checkLevel (definition : Definition) (resource : Resource) : Except ScenarioError Unit :=
  if resource.level = definition.level then .ok ()
  else .error (.levelMismatch definition.level resource.level)

theorem check_level_same {definition : Definition} {resource : Resource}
    (sameLevel : resource.level = definition.level) : definition.checkLevel resource = .ok () :=
  if_pos sameLevel

theorem check_level_other {definition : Definition} {resource : Resource}
    (otherLevel : resource.level ≠ definition.level) :
    definition.checkLevel resource = .error (.levelMismatch definition.level resource.level) :=
  if_neg otherLevel

theorem check_level_ok_iff {definition : Definition} {resource : Resource} :
    definition.checkLevel resource = .ok () ↔ resource.level = definition.level := by
  unfold checkLevel
  split
  next same => simp [same]
  next other => simp [other]

def singleEntry {α : Type} (level : Level) (table : Table α) :
    Except ScenarioError (String × α) :=
  match table.single? with
  | some entry => .ok entry
  | none => .error (.ambiguousAdoptiveChild level table.size)

/-- The only child of a definition with its resource, given the resource of the
definition itself. -/
def lower (definition : Definition) (resource : Resource) :
    Except ScenarioError (Resource × Definition) := do
  definition.checkLevel resource
  match definition with
  | .service inner =>
      let entry ← singleEntry .service inner.containers
      return (← resource.child entry.1 .file, .container (entry.2.boundTo entry.1))
  | .container inner =>
      let entry ← singleEntry .container inner.objects.flatten
      return (← resource.child entry.1 entry.2.properties.kind, .object (entry.2.boundTo entry.1))
  | .object _ => .error (.noAdoptiveChild .object)

end Definition

end StorageScenario
