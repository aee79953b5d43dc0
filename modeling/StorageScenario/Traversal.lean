import StorageScenario.Definition
import StorageScenario.Session
import StorageScenario.Storage.ResourceCalls

/-!
Walking a definition next to the resources it describes. A table of callbacks
says what to do at each level. A definition comes before its children, children
come in the order of their keys, and every child is bound to its key and paired
with the resource of that name.
-/

namespace StorageScenario

inductive Traversal where
  | descend
  | skipChildren
  deriving DecidableEq

abbrev Callback (σ : Type) := Resource → Definition → EStateM ScenarioError σ Traversal

/-- At most one callback for a level. -/
structure Callbacks (σ : Type) where
  at? : Level → Option (Callback σ)

namespace Callbacks

variable {σ : Type}

def none : Callbacks σ := ⟨fun _ => Option.none⟩

/-- Replaces an earlier callback for the level. -/
def on (callbacks : Callbacks σ) (level : Level) (callback : Callback σ) : Callbacks σ :=
  ⟨fun other => if other = level then some callback else callbacks.at? other⟩

def levels (callbacks : Callbacks σ) : List Level :=
  Level.all.filter fun level => (callbacks.at? level).isSome

def describe (callbacks : Callbacks σ) : String :=
  "\x7b" ++ Text.commaSeparated (callbacks.levels.map Level.tag) ++ "\x7d"

/-- A level without a callback is passed through. -/
def invoke (callbacks : Callbacks σ) (resource : Resource) (definition : Definition) :
    EStateM ScenarioError σ Traversal :=
  match callbacks.at? definition.level with
  | some callback => callback resource definition
  | Option.none => pure .descend

def visit (callbacks : Callbacks σ) (resource : Resource) (definition : Definition)
    (children : EStateM ScenarioError σ Unit) : EStateM ScenarioError σ Unit := do
  Work.check (definition.checkLevel resource)
  match ← callbacks.invoke resource definition with
  | .descend => children
  | .skipChildren => pure ()

def visitObject (callbacks : Callbacks σ) (resource : Resource) (definition : ObjectDefinition) :
    EStateM ScenarioError σ Unit :=
  callbacks.visit resource (.object definition) (pure ())

def visitContainer (callbacks : Callbacks σ) (resource : Resource)
    (definition : ContainerDefinition) : EStateM ScenarioError σ Unit :=
  callbacks.visit resource (.container definition)
    (definition.objects.flatten.entries.forM fun entry => do
      let child ← Work.check (resource.child entry.1 entry.2.properties.kind)
      callbacks.visitObject child (entry.2.boundTo entry.1))

def visitService (callbacks : Callbacks σ) (resource : Resource) (definition : ServiceDefinition) :
    EStateM ScenarioError σ Unit :=
  callbacks.visit resource (.service definition)
    (definition.containers.entries.forM fun entry => do
      let child ← Work.check (resource.child entry.1 .file)
      callbacks.visitContainer child (entry.2.boundTo entry.1))

end Callbacks

/-- Fails before the first callback if the resource is at another level. -/
def Definition.traverse {σ : Type} (definition : Definition) (callbacks : Callbacks σ)
    (resource : Resource) : EStateM ScenarioError σ Unit :=
  match definition with
  | .service inner => callbacks.visitService resource inner
  | .container inner => callbacks.visitContainer resource inner
  | .object inner => callbacks.visitObject resource inner

end StorageScenario
