import Mathlib.Logic.Relation
import StorageScenario.Proofs.CallLocality

/-!
Two scenarios that work on one service of an emulated account at the same time. Their
back-end calls come in any order, each call on its own. If the containers that the two
address are apart, neither can tell that the other is there: each run together with the
other goes along with a run of its own, in which it has got the same answers and left the
same in its containers.
-/

namespace StorageScenario

open Cleanup (containerName?)

/-- What a call comes to. Only a creation results in a resource. -/
abbrev Outcome := Except ScenarioError (Option Resource)

inductive ScenarioCall where
  | create (base : Resource) (definition : Definition)
  | validate (target : Resource) (definition : Definition) (compareContents : Bool)
  | cleanup

namespace ScenarioCall

def perform : ScenarioCall → Work (Option Resource)
  | .create base definition => do return some (← StorageScenario.create base definition)
  | .validate target definition compareContents => do
      StorageScenario.validate target definition compareContents
      return none
  | .cleanup => do
      StorageScenario.cleanup
      return none

/-- One call after the other, also behind one that fails. -/
def performAll : List ScenarioCall → Work (List Outcome)
  | [] => pure []
  | call :: rest => do
      let outcome ← call.perform.attempt
      let outcomes ← performAll rest
      return outcome :: outcomes

def On (service : ServiceHandle) : ScenarioCall → Prop
  | .create base _ => base.serviceHandle = service
  | .validate target _ _ => target.serviceHandle = service
  | .cleanup => True

/-- The containers that a call addresses, given where it takes its names from. Those that
a cleanup empties have been addressed before. -/
def containerNames : ScenarioCall → NameSource → List String
  | .create base definition, source => Unfolding.createdNames base definition source
  | .validate target definition _, _ => Unfolding.walkedNames target definition
  | .cleanup, _ => []

def namesAfter : ScenarioCall → NameSource → NameSource
  | .create base definition, source => Unfolding.namesAfterCreate base definition source
  | .validate _ _ _, source => source
  | .cleanup, source => source

def allContainerNames : List ScenarioCall → NameSource → List String
  | [], _ => []
  | call :: rest, source =>
      call.containerNames source ++ allContainerNames rest (call.namesAfter source)

end ScenarioCall

namespace Unfolding

def perform : (call : ScenarioCall) → Unfolding call.perform
  | .create base definition => (create base definition).bind fun made => pure (some made)
  | .validate target definition compareContents =>
      (validate target definition compareContents).bind fun _ => pure none
  | .cleanup => cleanup.bind fun _ => pure none

def performAll : (calls : List ScenarioCall) → Unfolding (ScenarioCall.performAll calls)
  | [] => pure []
  | call :: rest => (attempt (perform call)).bind fun outcome =>
      (performAll rest).bind fun outcomes => pure (outcome :: outcomes)

variable {service : ServiceHandle} {inside : String → Prop} {source : NameSource} {desk : Desk}

theorem perform_stays {call : ScenarioCall} (here : call.On service)
    (named : ∀ name ∈ call.containerNames source, inside name)
    (ready : Ready service inside source desk.context) :
    ((perform call).dialogue desk).StaysWithin (Request.Confined service inside)
      fun _ after => Ready service inside (call.namesAfter source) after.context := by
  cases call with
  | create base definition =>
      refine Dialogue.bind_stays (create_stays here named ready) ?_ ?_
      · exact fun _ _ held => held
      · exact fun _ _ held => held
  | validate target definition compareContents =>
      exact bind_keeps (validate_keeps compareContents here named) (fun _ => pure_keeps _) desk
        ready
  | cleanup => exact bind_keeps cleanup_keeps (fun _ => pure_keeps _) desk ready

theorem perform_all_stays (calls : List ScenarioCall) (here : ∀ call ∈ calls, call.On service)
    (named : ∀ name ∈ ScenarioCall.allContainerNames calls source, inside name)
    (ready : Ready service inside source desk.context) :
    ((performAll calls).dialogue desk).StaysWithin (Request.Confined service inside)
      fun result _ => ∃ outcomes, result = .ok outcomes := by
  induction calls generalizing source desk with
  | nil => exact ⟨[], rfl⟩
  | cons call rest ih =>
      have namedHere : ∀ name ∈ call.containerNames source, inside name :=
        fun name member => named name (List.mem_append_left _ member)
      have first : ((attempt (perform call)).dialogue desk).StaysWithin
          (Request.Confined service inside)
          fun result after => (∃ outcome, result = .ok outcome) ∧
            Ready service inside (call.namesAfter source) after.context := by
        apply Dialogue.attempt_stays
        refine Dialogue.stays_of_imp (perform_stays (here call (by simp)) namedHere ready) ?_
        exact fun outcome _ held => ⟨⟨outcome, rfl⟩, held⟩
      -- The next call takes its names where this one has left the source, failed or not.
      refine Dialogue.bind_stays first (fun outcome after held => ?_) fun error after held => ?_
      · have later := ih (fun other member => here other (by simp [member]))
          (fun name member => named name (List.mem_append_right _ member)) held.2
        refine Dialogue.bind_stays later (fun outcomes _ _ => ⟨_, rfl⟩) fun error _ held => ?_
        obtain ⟨_, impossible⟩ := held
        cases impossible
      · obtain ⟨⟨_, impossible⟩, _⟩ := held
        cases impossible

end Unfolding

structure Scenario where
  context : Context
  log : List LogLine
  calls : List ScenarioCall

namespace Scenario

def desk (scenario : Scenario) : Desk := ⟨scenario.context, scenario.log⟩

def dialogue (scenario : Scenario) : Dialogue (List Outcome) :=
  (Unfolding.performAll scenario.calls).dialogue scenario.desk

structure On (service : ServiceHandle) (scenario : Scenario) : Prop where
  calls : ∀ call ∈ scenario.calls, call.On service
  tracked : ∀ resource ∈ scenario.context.created, resource.serviceHandle = service

/-- The containers that the scenario addresses, those of tracked resources included. -/
def containerNames (scenario : Scenario) : List String :=
  scenario.context.created.filterMap containerName? ++
    ScenarioCall.allContainerNames scenario.calls scenario.context.names

theorem dialogue_stays {service : ServiceHandle} {scenario : Scenario}
    (here : scenario.On service) :
    scenario.dialogue.StaysWithin
      (Request.Confined service fun name => name ∈ scenario.containerNames)
      fun result _ => ∃ outcomes, result = .ok outcomes := by
  refine Unfolding.perform_all_stays scenario.calls here.calls ?_ ⟨rfl, ?_⟩
  · exact fun name member => List.mem_append_right _ member
  · intro resource tracked
    refine ⟨here.tracked resource tracked, fun name isContainer => ?_⟩
    exact List.mem_append_left _ (List.mem_filterMap.mpr ⟨resource, tracked, isContainer⟩)

end Scenario

structure Duet (α β : Type) where
  first : Dialogue α
  second : Dialogue β
  storage : Storage

namespace Duet

variable {α β : Type}

inductive Step : Duet α β → Duet α β → Prop
  | first (request : Request) (next : Except BackendError request.Answer → Dialogue α)
      (second : Dialogue β) (storage : Storage) :
      Step ⟨.ask request next, second, storage⟩
        ⟨next (request.ask storage).1, second, (request.ask storage).2⟩
  | second (first : Dialogue α) (request : Request)
      (next : Except BackendError request.Answer → Dialogue β) (storage : Storage) :
      Step ⟨first, .ask request next, storage⟩
        ⟨first, next (request.ask storage).1, (request.ask storage).2⟩

abbrev Steps : Duet α β → Duet α β → Prop := Relation.ReflTransGen Step

/-- However far the two have come, they can go on until both are over. -/
theorem can_end (first : Dialogue α) (second : Dialogue β) (storage : Storage) :
    ∃ ended, Steps ⟨first, second, storage⟩ ended ∧
      ended.first.isClosed ∧ ended.second.isClosed := by
  induction first generalizing storage with
  | closed result desk =>
      induction second generalizing storage with
      | closed other place => exact ⟨_, .refl, rfl, rfl⟩
      | ask request next ih =>
          obtain ⟨ended, steps, bothClosed⟩ :=
            ih (request.ask storage).1 (request.ask storage).2
          exact ⟨ended, .head (.second _ request next storage) steps, bothClosed⟩
  | ask request next ih =>
      obtain ⟨ended, steps, bothClosed⟩ := ih (request.ask storage).1 (request.ask storage).2
      exact ⟨ended, .head (.first request next second storage) steps, bothClosed⟩

def turn (ofFirst : Bool) (duet : Duet α β) : Duet α β :=
  match ofFirst, duet with
  | true, ⟨.ask request next, second, storage⟩ =>
      ⟨next (request.ask storage).1, second, (request.ask storage).2⟩
  | false, ⟨first, .ask request next, storage⟩ =>
      ⟨first, next (request.ask storage).1, (request.ask storage).2⟩
  | _, other => other

theorem turns_are_steps (order : List Bool) (duet : Duet α β) :
    Steps duet (order.foldl (fun current ofFirst => current.turn ofFirst) duet) := by
  induction order generalizing duet with
  | nil => exact .refl
  | cons ofFirst rest ih =>
      have one : Steps duet (duet.turn ofFirst) := by
        obtain ⟨first, second, storage⟩ := duet
        cases ofFirst with
        | true =>
            cases first with
            | closed result desk => exact .refl
            | ask request next => exact .single (.first request next second storage)
        | false =>
            cases second with
            | closed result desk => exact .refl
            | ask request next => exact .single (.second first request next storage)
      exact one.trans (ih _)

/-- What is left of a dialogue comes to the same end alone, in a storage that is the same
in its containers. -/
structure Parallel (account : Account) (location : Location) (inside : String → Prop)
    (ends : Except ScenarioError α → Desk → Prop)
    (outcome : EStateM.Result ScenarioError Session α) (dialogue : Dialogue α)
    (storage : Storage) : Prop where
  stays : dialogue.StaysWithin (Request.Confined (.memory account location) inside) ends
  alone : ∃ alone : Storage, dialogue.run alone = outcome ∧
    alone.Alike account location inside storage

section Parallel

variable {account : Account} {location : Location} {inside outside : String → Prop}
  {ends : Except ScenarioError α → Desk → Prop}
  {outcome : EStateM.Result ScenarioError Session α}

theorem parallel_own {request : Request}
    {next : Except BackendError request.Answer → Dialogue α} {storage : Storage}
    (parallel : Parallel account location inside ends outcome (.ask request next) storage) :
    Parallel account location inside ends outcome (next (request.ask storage).1)
      (request.ask storage).2 := by
  obtain ⟨⟨confined, stays⟩, alone, ran, alike⟩ := parallel
  obtain ⟨sameAnswer, alikeAfter⟩ := Request.ask_alike confined alike
  refine ⟨stays _, (request.ask alone).2, ?_, alikeAfter⟩
  rw [← sameAnswer]
  exact ran

theorem parallel_other {request : Request} {dialogue : Dialogue α} {storage : Storage}
    (apart : ∀ name, inside name → ¬ outside name)
    (confined : request.Confined (.memory account location) outside)
    (parallel : Parallel account location inside ends outcome dialogue storage) :
    Parallel account location inside ends outcome dialogue (request.ask storage).2 := by
  obtain ⟨stays, alone, ran, alike⟩ := parallel
  refine ⟨stays, alone, ran, fun name member => ?_⟩
  rw [Request.ask_elsewhere confined (apart name member)]
  exact alike name member

variable {secondEnds : Except ScenarioError β → Desk → Prop}
  {secondOutcome : EStateM.Result ScenarioError Session β} {before after : Duet α β}

/-- The one that gets an answer gets the same one alone, and the other does not notice. -/
theorem step_parallel (apart : ∀ name, inside name → ¬ outside name)
    (first : Parallel account location inside ends outcome before.first before.storage)
    (second : Parallel account location outside secondEnds secondOutcome before.second
      before.storage)
    (step : Step before after) :
    Parallel account location inside ends outcome after.first after.storage ∧
      Parallel account location outside secondEnds secondOutcome after.second after.storage := by
  cases step with
  | first request next other storage =>
      refine ⟨parallel_own first, parallel_other ?_ first.stays.1 second⟩
      exact fun name isOutside isInside => apart name isInside isOutside
  | second other request next storage =>
      exact ⟨parallel_other apart second.stays.1 first, parallel_own second⟩

theorem steps_parallel (apart : ∀ name, inside name → ¬ outside name)
    (first : Parallel account location inside ends outcome before.first before.storage)
    (second : Parallel account location outside secondEnds secondOutcome before.second
      before.storage)
    (steps : Steps before after) :
    Parallel account location inside ends outcome after.first after.storage ∧
      Parallel account location outside secondEnds secondOutcome after.second after.storage := by
  induction steps with
  | refl => exact ⟨first, second⟩
  | tail _ step ih => exact step_parallel apart ih.1 ih.2 step

end Parallel

end Duet

namespace Scenario

/-- Once its dialogue is over, the scenario has come to the outcomes, the context and the
log that it comes to alone, and its containers hold what they hold then. -/
def EndsAsAlone (scenario : Scenario) (account : Account) (location : Location)
    (before : Storage) (dialogue : Dialogue (List Outcome)) (storage : Storage) : Prop :=
  ∀ result desk, dialogue = .closed result desk →
    ∃ outcomes alone,
      result = .ok outcomes ∧
        ScenarioCall.performAll scenario.calls (scenario.desk.session before) =
          .ok outcomes (desk.session alone) ∧
        ∀ name ∈ scenario.containerNames,
          storage.container? account location name = alone.container? account location name

section Runs

variable {account : Account} {location : Location} {first second : Scenario} {before : Storage}

theorem starts_parallel {scenario : Scenario} (here : scenario.On (.memory account location)) :
    Duet.Parallel account location (fun name => name ∈ scenario.containerNames)
      (fun result _ => ∃ outcomes, result = .ok outcomes)
      (ScenarioCall.performAll scenario.calls (scenario.desk.session before)) scenario.dialogue
      before where
  stays := dialogue_stays here
  alone := ⟨before, (Unfolding.performAll scenario.calls).sound scenario.desk before,
    fun _ _ => rfl⟩

theorem ends_of_parallel {scenario : Scenario} {dialogue : Dialogue (List Outcome)}
    {storage : Storage}
    (parallel : Duet.Parallel account location (fun name => name ∈ scenario.containerNames)
      (fun result _ => ∃ outcomes, result = .ok outcomes)
      (ScenarioCall.performAll scenario.calls (scenario.desk.session before)) dialogue storage) :
    scenario.EndsAsAlone account location before dialogue storage := by
  rintro result desk rfl
  obtain ⟨⟨outcomes, isOk⟩, alone, ran, alike⟩ := parallel
  rw [isOk] at ran
  exact ⟨outcomes, alone, isOk, ran.symm, fun name member => (alike name member).symm⟩

/-- Two scenarios in one service, whose calls and tracked resources address different
containers, do not interfere. In whatever order their back-end calls come, each of them
ends as it does alone: with the same outcomes, failures and tracked resources, and with the
same in its containers. And however far they have come, both can go on to their ends. -/
theorem apart_scenarios_end_as_alone
    {reached : Duet (List Outcome) (List Outcome)}
    (firstHere : first.On (.memory account location))
    (secondHere : second.On (.memory account location))
    (apart : ∀ name ∈ first.containerNames, name ∉ second.containerNames)
    (steps : Duet.Steps ⟨first.dialogue, second.dialogue, before⟩ reached) :
    first.EndsAsAlone account location before reached.first reached.storage ∧
      second.EndsAsAlone account location before reached.second reached.storage ∧
      ∃ ended, Duet.Steps reached ended ∧ ended.first.isClosed ∧ ended.second.isClosed := by
  obtain ⟨firstParallel, secondParallel⟩ := Duet.steps_parallel apart
    (starts_parallel firstHere) (starts_parallel secondHere) steps
  exact ⟨ends_of_parallel firstParallel, ends_of_parallel secondParallel,
    Duet.can_end reached.first reached.second reached.storage⟩

end Runs

/-- Taking turns, the first creates an object in a container with a generated name and
cleans up, and the second creates a container and looks for it. -/
theorem apart_scenarios_end_as_alone_taking_turns :
    let account : Account := ⟨0, "account", .hierarchicalNamespace⟩
    let service : Resource := .service (.memory account .blobFs)
    let first : Scenario :=
      ⟨⟨"one", {}, .counting "a", [], []⟩, [],
        [.create service (.object { name := some "x" }), .cleanup]⟩
    let second : Scenario :=
      ⟨⟨"two", {}, .counting "b", [], []⟩, [],
        [.create service (.container {}),
          .validate service (.service ⟨Table.ofList [("b-0", {}), ("b-1", {})]⟩) true]⟩
    let before : Storage := .fresh (.ofDirectories ⟨0⟩ [])
    let order := [true, false, true, false, true, false, true, false]
    let reached := order.foldl (fun current ofFirst => current.turn ofFirst)
      (⟨first.dialogue, second.dialogue, before⟩ : Duet (List Outcome) (List Outcome))
    first.containerNames = ["a-0"] ∧ second.containerNames = ["b-0", "b-0", "b-1"] ∧
      reached.first.isClosed ∧ reached.second.isClosed ∧
      (reached.storage.store account .blobFs).keys = ["b-0"] ∧
      first.EndsAsAlone account .blobFs before reached.first reached.storage ∧
      second.EndsAsAlone account .blobFs before reached.second reached.storage := by
  intro account service first second before order reached
  have firstNames : first.containerNames = ["a-0"] := by decide +kernel
  have secondNames : second.containerNames = ["b-0", "b-0", "b-1"] := by decide +kernel
  have firstHere : first.On (.memory account .blobFs) := by
    refine ⟨fun call member => ?_, fun resource tracked => by cases tracked⟩
    rcases List.mem_cons.mp member with same | later
    · rw [same]
      rfl
    · rw [List.mem_singleton.mp later]
      trivial
  have secondHere : second.On (.memory account .blobFs) := by
    refine ⟨fun call member => ?_, fun resource tracked => by cases tracked⟩
    rcases List.mem_cons.mp member with same | later
    · rw [same]
      rfl
    · rw [List.mem_singleton.mp later]
      rfl
  have apart : ∀ name ∈ first.containerNames, name ∉ second.containerNames := by
    rw [firstNames, secondNames]
    decide
  obtain ⟨firstEnds, secondEnds, _⟩ := apart_scenarios_end_as_alone firstHere secondHere apart
    (Duet.turns_are_steps order ⟨first.dialogue, second.dialogue, before⟩)
  exact ⟨firstNames, secondNames, by decide +kernel, by decide +kernel, by decide +kernel,
    firstEnds, secondEnds⟩

end Scenario

end StorageScenario
