import StorageScenario.Cleanup
import StorageScenario.Creation
import StorageScenario.Validation

/-!
Work taken apart into its back-end calls. Between two calls a scenario touches nothing but
its own context and log, so a piece of work is a dialogue: it asks for one call after the
other, and what it asks for next depends on the answers. The dialogue of each step of a
scenario comes with a proof that, held in one go, it is that step.
-/

namespace StorageScenario

inductive Request where
  | createContainer (handle : ContainerHandle) (properties : ContainerProperties)
  | containerIsPresent (handle : ContainerHandle)
  | containerProperties (handle : ContainerHandle)
  | createObject (handle : ObjectHandle) (body : Body) (properties : ObjectProperties)
  | objectIsPresent (handle : ObjectHandle)
  | objectProperties (handle : ObjectHandle)
  | download (handle : ObjectHandle)
  | delete (resource : Resource)

namespace Request

def Answer : Request → Type
  | .createContainer _ _ => Bool
  | .containerIsPresent _ => Bool
  | .containerProperties _ => ContainerProperties
  | .createObject _ _ _ => Unit
  | .objectIsPresent _ => Bool
  | .objectProperties _ => ObjectProperties
  | .download _ => Except IoError Bytes
  | .delete _ => Unit

def resource : Request → Resource
  | .createContainer handle _ => .container handle
  | .containerIsPresent handle => .container handle
  | .containerProperties handle => .container handle
  | .createObject handle _ _ => .object handle
  | .objectIsPresent handle => .object handle
  | .objectProperties handle => .object handle
  | .download handle => .object handle
  | .delete resource => resource

def call : (request : Request) → Access request.Answer
  | .createContainer handle properties => handle.create properties
  | .containerIsPresent handle => handle.isPresent
  | .containerProperties handle => handle.properties
  | .createObject handle body properties => handle.create body properties
  | .objectIsPresent handle => handle.isPresent
  | .objectProperties handle => handle.properties
  | .download handle => handle.download
  | .delete resource => resource.delete

def ask (request : Request) (storage : Storage) :
    Except BackendError request.Answer × Storage :=
  match request.call storage with
  | .ok answer after => (.ok answer, after)
  | .error cause after => (.error cause, after)

end Request

/-- What a scenario has to itself. -/
structure Desk where
  context : Context
  log : List LogLine

def Desk.session (desk : Desk) (storage : Storage) : Session :=
  ⟨desk.context, storage, desk.log⟩

/-- Work that is over, or that goes on with the answer to a request. -/
inductive Dialogue (α : Type) where
  | closed (result : Except ScenarioError α) (desk : Desk)
  | ask (request : Request) (next : Except BackendError request.Answer → Dialogue α)

namespace Dialogue

variable {α β : Type}

def bind : Dialogue α → (α → Desk → Dialogue β) → Dialogue β
  | .closed (.ok value) desk, next => next value desk
  | .closed (.error error) desk, _ => .closed (.error error) desk
  | .ask request follow, next => .ask request fun answer => (follow answer).bind next

def attempt : Dialogue α → Dialogue (Except ScenarioError α)
  | .closed result desk => .closed (.ok result) desk
  | .ask request follow => .ask request fun answer => (follow answer).attempt

def isClosed : Dialogue α → Bool
  | .closed _ _ => true
  | .ask _ _ => false

/-- The whole dialogue in one go, with nothing between its calls. -/
def run : Dialogue α → Storage → EStateM.Result ScenarioError Session α
  | .closed (.ok value) desk, storage => .ok value (desk.session storage)
  | .closed (.error error) desk, storage => .error error (desk.session storage)
  | .ask request follow, storage =>
      (follow (request.ask storage).1).run (request.ask storage).2

theorem run_bind (first : Dialogue α) (next : α → Desk → Dialogue β) (storage : Storage) :
    (first.bind next).run storage =
      match first.run storage with
      | .ok value after => (next value ⟨after.context, after.log⟩).run after.storage
      | .error error after => .error error after := by
  induction first generalizing storage with
  | closed result desk => cases result <;> rfl
  | ask request follow ih => exact ih _ _

theorem run_attempt (first : Dialogue α) (storage : Storage) :
    first.attempt.run storage =
      match first.run storage with
      | .ok value after => .ok (.ok value) after
      | .error error after => .ok (.error error) after := by
  induction first generalizing storage with
  | closed result desk => cases result <;> rfl
  | ask request follow ih => exact ih _ _

end Dialogue

namespace Work

variable {α : Type}

def attempt (work : Work α) : Work (Except ScenarioError α) := fun session =>
  match work session with
  | .ok value after => .ok (.ok value) after
  | .error error after => .ok (.error error) after

end Work

/-- The dialogue of a piece of work. Held in one go it is the work itself. -/
structure Unfolding {α : Type} (work : Work α) where
  dialogue : Desk → Dialogue α
  sound : ∀ desk storage, (dialogue desk).run storage = work (desk.session storage)

namespace Unfolding

variable {α β : Type} {work other : Work α}

def onDesk (step : Desk → α × Desk)
    (same : ∀ desk storage, work (desk.session storage) =
      .ok (step desk).1 ((step desk).2.session storage)) : Unfolding work where
  dialogue desk := .closed (.ok (step desk).1) (step desk).2
  sound desk storage := (same desk storage).symm

def pure (value : α) : Unfolding (Pure.pure value : Work α) :=
  onDesk (fun desk => (value, desk)) fun _ _ => rfl

def throw (error : ScenarioError) : Unfolding (MonadExcept.throw error : Work α) where
  dialogue desk := .closed (.error error) desk
  sound _ _ := rfl

def check (result : Except ScenarioError α) : Unfolding (Work.check result : Work α) where
  dialogue desk := .closed result desk
  sound _ _ := by cases result <;> rfl

def access (operation : Operation) (name : String) (request : Request) :
    Unfolding (Work.access operation name request.call) where
  dialogue desk := .ask request fun answer =>
    .closed (answer.mapError (.backend operation name)) desk
  sound desk storage := by
    change (Dialogue.closed ((request.ask storage).1.mapError (.backend operation name)) desk).run
      (request.ask storage).2 = _
    unfold Request.ask Work.access
    dsimp only [Desk.session]
    cases request.call storage <;> rfl

def bind {next : α → Work β} (first : Unfolding work)
    (rest : ∀ value, Unfolding (next value)) :
    Unfolding (work >>= next) where
  dialogue desk := (first.dialogue desk).bind fun value => (rest value).dialogue
  sound desk storage := by
    rw [Dialogue.run_bind, first.sound]
    change _ = EStateM.bind work next (desk.session storage)
    unfold EStateM.bind
    cases work (desk.session storage) with
    | ok value after => exact (rest value).sound ⟨after.context, after.log⟩ after.storage
    | error error after => rfl

def ite (condition : Prop) [Decidable condition] (positive : Unfolding work)
    (negative : Unfolding other) : Unfolding (if condition then work else other) where
  dialogue desk := if condition then positive.dialogue desk else negative.dialogue desk
  sound desk storage := by
    by_cases holds : condition
    · rw [if_pos holds, if_pos holds]
      exact positive.sound desk storage
    · rw [if_neg holds, if_neg holds]
      exact negative.sound desk storage

def attempt (first : Unfolding work) : Unfolding work.attempt where
  dialogue desk := (first.dialogue desk).attempt
  sound desk storage := by
    rw [Dialogue.run_attempt, first.sound]
    rfl

def forM {step : α → Work Unit} (each : ∀ entry, Unfolding (step entry)) :
    (entries : List α) → Unfolding (entries.forM step)
  | [] => pure ()
  | entry :: rest => (each entry).bind fun _ => forM each rest

def write (severity : Severity) (text : String) : Unfolding (Work.write severity text) :=
  onDesk (fun desk => ((), { desk with log := desk.log ++ [⟨severity, text⟩] })) fun _ _ => rfl

def context : Unfolding Work.context :=
  onDesk (fun desk => (desk.context, desk)) fun _ _ => rfl

def updateContext (change : Context → Context) : Unfolding (Work.updateContext change) :=
  onDesk (fun desk => ((), { desk with context := change desk.context })) fun _ _ => rfl

def note (severity : Severity) (text : String) : Unfolding (Work.note severity text) :=
  onDesk (fun desk => ((), { desk with
    log := desk.log ++ [⟨severity, "[" ++ desk.context.scenario ++ "] " ++ text⟩] }))
    fun _ _ => rfl

def record (failure : SoftFailure) : Unfolding (Work.record failure) :=
  (note _ _).bind fun _ => updateContext _

def track (resource : Resource) : Unfolding (Work.track resource) := updateContext _

def generateName : Unfolding Work.generateName :=
  context.bind fun current => (updateContext _).bind fun _ => pure current.names.next.1

section Walking

variable {callbacks : Callbacks Session}

def visit {resource : Resource} {definition : Definition} {children : Work Unit}
    (called : Unfolding (callbacks.invoke resource definition)) (below : Unfolding children) :
    Unfolding (callbacks.visit resource definition children) :=
  (check _).bind fun _ => called.bind fun
    | .descend => below
    | .skipChildren => pure ()

variable (called : ∀ resource definition, Unfolding (callbacks.invoke resource definition))

def visitObject (resource : Resource) (definition : ObjectDefinition) :
    Unfolding (callbacks.visitObject resource definition) :=
  visit (called _ _) (pure ())

def visitContainer (resource : Resource) (definition : ContainerDefinition) :
    Unfolding (callbacks.visitContainer resource definition) :=
  visit (called _ _) (forM (fun _ => (check _).bind fun child => visitObject called child _) _)

def visitService (resource : Resource) (definition : ServiceDefinition) :
    Unfolding (callbacks.visitService resource definition) :=
  visit (called _ _) (forM (fun _ => (check _).bind fun child => visitContainer called child _) _)

def traverse (resource : Resource) :
    (definition : Definition) → Unfolding (definition.traverse callbacks resource)
  | .service inner => visitService called resource inner
  | .container inner => visitContainer called resource inner
  | .object inner => visitObject called resource inner

end Walking

section Creating

/-- The name of a definition, or else a generated one, goes into its wrapper. -/
def naming {next : String → Work α} (name? : Option String)
    (rest : ∀ name, Unfolding (next name)) :
    Unfolding (match name? with
      | some name => (Pure.pure name : Work String) >>= next
      | none => Work.generateName >>= next) :=
  match name? with
  | some name => (pure name).bind rest
  | none => generateName.bind rest

def lift : (definition : Definition) → Unfolding definition.lift
  | .service _ => throw (.noAdoptiveParent .service)
  | .container inner => naming inner.name fun _ => (write _ _).bind fun _ => check _
  | .object inner => naming inner.name fun _ => (write _ _).bind fun _ => check _

def liftTimes : (count : Nat) → (definition : Definition) →
    Unfolding (Definition.liftTimes count definition)
  | 0, definition => pure definition
  | count + 1, definition => (lift definition).bind fun wrapper => liftTimes count wrapper

def makeContainer (resource : Resource) (definition : Definition) :
    Unfolding (Creation.container resource definition) :=
  (check _).bind fun wanted => (check _).bind fun handle =>
    ite _ ((note _ _).bind fun _ => pure _)
      ((note _ _).bind fun _ =>
        (access .createContainer _ (.createContainer handle wanted.properties)).bind
          fun (isNew : Bool) => ite (isNew = true)
            ((track _).bind fun _ => pure _)
            ((note _ _).bind fun _ => pure _))

def makeObject (resource : Resource) (definition : Definition) :
    Unfolding (Creation.object resource definition) :=
  (check _).bind fun wanted => (check _).bind fun handle =>
    ite _ ((note _ _).bind fun _ => pure _)
      ((note _ _).bind fun _ =>
        (access .createObject _
          (.createObject handle (wanted.body.getD (.zeros 0)) wanted.properties)).bind fun _ =>
            (track _).bind fun _ => pure _)

def creation (resource : Resource) :
    (definition : Definition) → Unfolding (Creation.callbacks.invoke resource definition)
  | .service _ => pure Traversal.descend
  | .container inner => makeContainer resource (.container inner)
  | .object inner => makeObject resource (.object inner)

def create (base : Resource) (definition : Definition) : Unfolding (create base definition) :=
  ite _ (throw _)
    ((liftTimes _ definition).bind fun lifted => (note _ _).bind fun _ =>
      (traverse creation base lifted).bind fun _ => (check _).bind fun lowered =>
        (note _ _).bind fun _ => pure lowered.1)

end Creating

section Validating

open Validation

def recordAll (name : String) (mismatches : List Mismatch) :
    Unfolding (recordAll name mismatches) :=
  forM (fun _ => record _) mismatches

def existence (name : String) (expected actual : Bool) :
    Unfolding (existence name expected actual) :=
  ite _ ((record _).bind fun _ => pure false)
    (ite _ ((note _ _).bind fun _ => pure false) (pure true))

def compareContainer (resource : Resource) (definition : Definition) :
    Unfolding (Validation.container resource definition) :=
  (check _).bind fun wanted => (check _).bind fun handle =>
    (access .checkContainerExistence _ (.containerIsPresent handle)).bind
      fun (present : Bool) => (existence _ wanted.isWanted present).bind fun goesOn =>
        ite (goesOn = true)
          ((access .getContainerProperties _ (.containerProperties handle)).bind
            fun (_ : ContainerProperties) => (recordAll _ _).bind fun _ => pure _)
          (pure _)

def compareContents (handle : ObjectHandle) (expected : Body) :
    Unfolding (contents handle expected) :=
  (access .downloadObject _ (.download handle)).bind fun
    | .error _ => throw _
    | .ok _ =>
        match expected.digest with
        | .error _ => throw _
        | .ok _ => ite _ (record _) (pure ())

def compareObject (compares : Bool) (resource : Resource) (definition : Definition) :
    Unfolding (Validation.object compares resource definition) :=
  (check _).bind fun wanted => (check _).bind fun handle =>
    (access .checkObjectExistence _ (.objectIsPresent handle)).bind
      fun (present : Bool) => (existence _ wanted.isWanted present).bind fun goesOn =>
        ite (goesOn = true)
          ((access .getObjectProperties _ (.objectProperties handle)).bind
            fun (_ : ObjectProperties) => (recordAll _ _).bind fun _ =>
              (recordAll _ _).bind fun _ =>
                match compares, comparedBody? wanted with
                | true, some body => (compareContents handle body).bind fun _ => pure _
                | true, none => pure _
                | false, _ => pure _)
          (pure _)

def comparison (compares : Bool) (resource : Resource) :
    (definition : Definition) → Unfolding ((callbacks compares).invoke resource definition)
  | .service _ => pure Traversal.descend
  | .container inner => compareContainer resource (.container inner)
  | .object inner => compareObject compares resource (.object inner)

def validate (target : Resource) (definition : Definition) (compares : Bool) :
    Unfolding (validate target definition compares) :=
  (check _).bind fun _ => context.bind fun current =>
    ite (current.settings.dryRun = true) (note _ _)
      ((traverse (comparison compares) target definition).bind fun _ =>
        context.bind fun _ => note _ _)

end Validating

section Deleting

def delete (resource : Resource) : Unfolding (Cleanup.delete resource) :=
  (note _ _).bind fun _ => access .delete _ (.delete resource)

def cleanup : Unfolding cleanup :=
  context.bind fun current => (updateContext _).bind fun _ =>
    forM delete current.created.reverse

end Deleting

end Unfolding

end StorageScenario
