import StorageScenario.Proofs.CleanupRun
import StorageScenario.Proofs.Dialogue
import StorageScenario.Proofs.LevelAlgebra

/-!
Which containers a dialogue works in. Creation, validation and cleanup ask for calls on the
containers that their resources and definitions name, generated names included, and for no
others, whatever the back-end answers. So the names can be told before the first call.
-/

namespace StorageScenario

open Cleanup (containerName?)

/-- The resource is in the service, and in one of these containers if it is in any. -/
structure Resource.Within (service : ServiceHandle) (inside : String → Prop)
    (resource : Resource) : Prop where
  service : resource.serviceHandle = service
  container : ∀ name, containerName? resource = some name → inside name

def Request.Confined (service : ServiceHandle) (inside : String → Prop) (request : Request) :
    Prop :=
  request.resource.Within service inside

namespace Dialogue

variable {α β : Type} {allowed : Request → Prop}

/-- Whatever the answers are, only what is allowed is asked for, and the end is as it
should be. -/
def StaysWithin (allowed : Request → Prop) (ends : Except ScenarioError α → Desk → Prop) :
    Dialogue α → Prop
  | .closed result desk => ends result desk
  | .ask request follow => allowed request ∧ ∀ answer, (follow answer).StaysWithin allowed ends

theorem bind_stays {first : Dialogue α} {next : α → Desk → Dialogue β}
    {between : Except ScenarioError α → Desk → Prop}
    {ends : Except ScenarioError β → Desk → Prop} (begins : first.StaysWithin allowed between)
    (goesOn : ∀ value desk, between (.ok value) desk →
      (next value desk).StaysWithin allowed ends)
    (fails : ∀ error desk, between (.error error) desk → ends (.error error) desk) :
    (first.bind next).StaysWithin allowed ends := by
  induction first with
  | closed result desk =>
      cases result with
      | ok value => exact goesOn value desk begins
      | error error => exact fails error desk begins
  | ask request follow ih => exact ⟨begins.1, fun answer => ih answer (begins.2 answer)⟩

theorem stays_of_imp {dialogue : Dialogue α}
    {sooner ends : Except ScenarioError α → Desk → Prop}
    (stays : dialogue.StaysWithin allowed sooner)
    (enough : ∀ result desk, sooner result desk → ends result desk) :
    dialogue.StaysWithin allowed ends := by
  induction dialogue with
  | closed result desk => exact enough result desk stays
  | ask request follow ih => exact ⟨stays.1, fun answer => ih answer (stays.2 answer)⟩

theorem attempt_stays {first : Dialogue α}
    {ends : Except ScenarioError (Except ScenarioError α) → Desk → Prop}
    (begins : first.StaysWithin allowed fun result => ends (.ok result)) :
    first.attempt.StaysWithin allowed ends := by
  induction first with
  | closed result desk => exact begins
  | ask request follow ih => exact ⟨begins.1, fun answer => ih answer (begins.2 answer)⟩

end Dialogue

namespace Unfolding

open Request (Confined)

section Rules

variable {α β : Type} {work other : Work α} {allowed : Request → Prop}
  {kept : Context → Prop}

/-- Only what is allowed is asked for, and what held of the context before holds of it at
the end. -/
def Keeps (allowed : Request → Prop) (kept : Context → Prop) (unfolding : Unfolding work) :
    Prop :=
  ∀ desk, kept desk.context →
    (unfolding.dialogue desk).StaysWithin allowed fun _ after => kept after.context

theorem pure_keeps (value : α) : (pure value : Unfolding _).Keeps allowed kept :=
  fun _ start => start

theorem throw_keeps (error : ScenarioError) :
    (throw error : Unfolding (MonadExcept.throw error : Work α)).Keeps allowed kept :=
  fun _ start => start

theorem check_keeps (result : Except ScenarioError α) :
    (check result : Unfolding _).Keeps allowed kept :=
  fun _ start => start

theorem note_keeps (severity : Severity) (text : String) :
    (note severity text).Keeps allowed kept :=
  fun _ start => start

theorem context_keeps : context.Keeps allowed kept :=
  fun _ start => start

theorem update_context_keeps {change : Context → Context}
    (changed : ∀ context, kept context → kept (change context)) :
    (updateContext change).Keeps allowed kept :=
  fun desk start => changed desk.context start

theorem access_keeps (operation : Operation) (name : String) {request : Request}
    (permitted : allowed request) : (access operation name request).Keeps allowed kept :=
  fun _ start => ⟨permitted, fun _ => start⟩

theorem bind_keeps {next : α → Work β} {first : Unfolding work}
    {rest : ∀ value, Unfolding (next value)} (begins : first.Keeps allowed kept)
    (goesOn : ∀ value, (rest value).Keeps allowed kept) : (first.bind rest).Keeps allowed kept :=
  fun desk start => Dialogue.bind_stays (begins desk start)
    (fun value after held => goesOn value after held) fun _ _ held => held

theorem check_bind_keeps {result : Except ScenarioError α} {next : α → Work β}
    {rest : ∀ value, Unfolding (next value)}
    (goesOn : ∀ value, result = .ok value → (rest value).Keeps allowed kept) :
    ((check result).bind rest).Keeps allowed kept := by
  intro desk start
  cases result with
  | ok value => exact goesOn value rfl desk start
  | error error => exact start

theorem ite_stays {ends : Except ScenarioError α → Desk → Prop} {condition : Prop}
    [Decidable condition] {positive : Unfolding work} {negative : Unfolding other} {desk : Desk}
    (whenTrue : condition → (positive.dialogue desk).StaysWithin allowed ends)
    (whenFalse : ¬ condition → (negative.dialogue desk).StaysWithin allowed ends) :
    ((ite condition positive negative).dialogue desk).StaysWithin allowed ends := by
  change (if condition then positive.dialogue desk else negative.dialogue desk).StaysWithin _ _
  split
  · exact whenTrue ‹_›
  · exact whenFalse ‹_›

theorem ite_keeps {condition : Prop} [Decidable condition] {positive : Unfolding work}
    {negative : Unfolding other} (whenTrue : positive.Keeps allowed kept)
    (whenFalse : negative.Keeps allowed kept) :
    (ite condition positive negative).Keeps allowed kept :=
  fun desk start => ite_stays (fun _ => whenTrue desk start) fun _ => whenFalse desk start

theorem bind_closed_stays {next : α → Work β} {first : Unfolding work}
    {rest : ∀ value, Unfolding (next value)} {ends : Except ScenarioError β → Desk → Prop}
    {desk after : Desk} {value : α} (closes : first.dialogue desk = .closed (.ok value) after)
    (goesOn : ((rest value).dialogue after).StaysWithin allowed ends) :
    ((first.bind rest).dialogue desk).StaysWithin allowed ends := by
  change ((first.dialogue desk).bind _).StaysWithin allowed ends
  rw [closes]
  exact goesOn

theorem forM_keeps {step : α → Work Unit} {each : ∀ entry, Unfolding (step entry)}
    (entries : List α) (steps : ∀ entry ∈ entries, (each entry).Keeps allowed kept) :
    (forM each entries).Keeps allowed kept := by
  induction entries with
  | nil => exact pure_keeps ()
  | cons entry rest ih =>
      refine bind_keeps (steps entry (by simp)) fun _ => ?_
      exact ih fun other member => steps other (by simp [member])

end Rules

section Walking

variable {allowed : Request → Prop} {kept : Context → Prop} {service : ServiceHandle}
  {inside : String → Prop} {callbacks : Callbacks Session}
  {called : ∀ resource definition, Unfolding (callbacks.invoke resource definition)}

theorem visit_keeps {resource : Resource} {definition : Definition} {children : Work Unit}
    {calling : Unfolding (callbacks.invoke resource definition)} {below : Unfolding children}
    (calls : calling.Keeps allowed kept)
    (inner : resource.level = definition.level → below.Keeps allowed kept) :
    (visit calling below).Keeps allowed kept := by
  refine check_bind_keeps fun _ checked => bind_keeps calls fun traversal => ?_
  have sameLevel : resource.level = definition.level := Definition.check_level_ok_iff.mp checked
  cases traversal with
  | descend => exact inner sameLevel
  | skipChildren => exact pure_keeps ()

theorem child_within {resource child : Resource} {name : String} {kind : EntityKind}
    (within : resource.Within service inside) (named : resource.level = .service → inside name)
    (below : resource.child name kind = .ok child) : child.Within service inside := by
  refine ⟨(Resource.child_service below).trans within.service, ?_⟩
  cases resource with
  | service handle =>
      cases below
      intro other same
      cases same
      exact named rfl
  | container handle =>
      cases below
      exact within.container
  | object handle => cases below

section

variable (calls : ∀ resource definition, resource.Within service inside →
  (called resource definition).Keeps allowed kept)
include calls

theorem visit_object_keeps {resource : Resource} (within : resource.Within service inside)
    (definition : ObjectDefinition) : (visitObject called resource definition).Keeps allowed kept :=
  visit_keeps (calls _ _ within) fun _ => pure_keeps ()

theorem visit_container_keeps {resource : Resource} (within : resource.Within service inside)
    (definition : ContainerDefinition) :
    (visitContainer called resource definition).Keeps allowed kept := by
  refine visit_keeps (calls _ _ within) fun sameLevel => forM_keeps _ fun entry _ => ?_
  refine check_bind_keeps fun child below => ?_
  apply visit_object_keeps calls
  apply child_within within _ below
  intro top
  cases sameLevel.symm.trans top

theorem visit_service_keeps {resource : Resource} (within : resource.Within service inside)
    {definition : ServiceDefinition}
    (named : resource.level = .service → ∀ name ∈ definition.containers.keys, inside name) :
    (visitService called resource definition).Keeps allowed kept := by
  refine visit_keeps (calls _ _ within) fun sameLevel => forM_keeps _ fun entry member => ?_
  refine check_bind_keeps fun child below => ?_
  apply visit_container_keeps calls
  exact child_within within (fun _ => named sameLevel _ (List.mem_map_of_mem member)) below

end

/-- The containers that a walk comes to: those of a definition below a service, and
otherwise the one of the resource. -/
def walkedNames (resource : Resource) (definition : Definition) : List String :=
  match resource, definition with
  | .service _, .service inner => inner.containers.keys
  | resource, _ => (containerName? resource).toList

theorem traverse_keeps
    (calls : ∀ resource definition, resource.Within service inside →
      (called resource definition).Keeps allowed kept)
    {resource : Resource} {definition : Definition} (here : resource.serviceHandle = service)
    (named : ∀ name ∈ walkedNames resource definition, inside name) :
    (traverse called resource definition).Keeps allowed kept := by
  have within : resource.Within service inside := by
    refine ⟨here, fun name same => named name ?_⟩
    cases resource <;> cases definition <;> simp_all [walkedNames, containerName?]
  cases definition with
  | service inner =>
      apply visit_service_keeps calls within
      intro top
      cases resource with
      | service handle => exact named
      | container handle => cases top
      | object handle => cases top
  | container inner => exact visit_container_keeps calls within inner
  | object inner => exact visit_object_keeps calls within inner

end Walking

/-- The next names and what is tracked. Whatever else stands in the context does not
matter to where a scenario works. -/
structure Ready (service : ServiceHandle) (inside : String → Prop) (source : NameSource)
    (context : Context) : Prop where
  names : context.names = source
  tracked : ∀ resource ∈ context.created, resource.Within service inside

section Steps

variable {service : ServiceHandle} {inside : String → Prop} {source : NameSource}
  {resource : Resource} (within : resource.Within service inside) (definition : Definition)

theorem track_keeps (within : resource.Within service inside) :
    (track resource).Keeps (Confined service inside) (Ready service inside source) := by
  refine update_context_keeps fun context ready => ⟨ready.names, ?_⟩
  intro other member
  rcases List.mem_append.mp member with earlier | new
  · exact ready.tracked other earlier
  · rw [List.mem_singleton.mp new]
    exact within

theorem record_keeps (failure : SoftFailure) :
    (record failure).Keeps (Confined service inside) (Ready service inside source) :=
  bind_keeps (note_keeps _ _) fun _ =>
    update_context_keeps fun _ ready => ⟨ready.names, ready.tracked⟩

include within

theorem make_container_keeps :
    (makeContainer resource definition).Keeps (Confined service inside)
      (Ready service inside source) := by
  refine bind_keeps (check_keeps _) fun wanted => check_bind_keeps fun handle asked => ?_
  have same := Resource.as_container_ok asked
  subst same
  apply ite_keeps
  · exact bind_keeps (note_keeps _ _) fun _ => pure_keeps _
  · refine bind_keeps (note_keeps _ _) fun _ => ?_
    refine bind_keeps (access_keeps _ _ within) fun (isNew : Bool) => ?_
    apply ite_keeps
    · exact bind_keeps (track_keeps within) fun _ => pure_keeps _
    · exact bind_keeps (note_keeps _ _) fun _ => pure_keeps _

theorem make_object_keeps :
    (makeObject resource definition).Keeps (Confined service inside)
      (Ready service inside source) := by
  refine bind_keeps (check_keeps _) fun wanted => check_bind_keeps fun handle asked => ?_
  have same := Resource.as_object_ok asked
  subst same
  apply ite_keeps
  · exact bind_keeps (note_keeps _ _) fun _ => pure_keeps _
  · refine bind_keeps (note_keeps _ _) fun _ => bind_keeps (access_keeps _ _ within) fun _ => ?_
    exact bind_keeps (track_keeps within) fun _ => pure_keeps _

theorem creation_keeps :
    (creation resource definition).Keeps (Confined service inside)
      (Ready service inside source) := by
  cases definition with
  | service inner => exact pure_keeps _
  | container inner => exact make_container_keeps within _
  | object inner => exact make_object_keeps within _

omit within in
theorem record_all_keeps (name : String) (mismatches : List Mismatch) :
    (recordAll name mismatches).Keeps (Confined service inside) (Ready service inside source) :=
  forM_keeps mismatches fun _ _ => record_keeps _

omit within in
theorem existence_keeps (name : String) (expected actual : Bool) :
    (existence name expected actual).Keeps (Confined service inside)
      (Ready service inside source) := by
  apply ite_keeps
  · exact bind_keeps (record_keeps _) fun _ => pure_keeps _
  · apply ite_keeps
    · exact bind_keeps (note_keeps _ _) fun _ => pure_keeps _
    · exact pure_keeps _

theorem compare_container_keeps :
    (compareContainer resource definition).Keeps (Confined service inside)
      (Ready service inside source) := by
  refine bind_keeps (check_keeps _) fun wanted => check_bind_keeps fun handle asked => ?_
  have same := Resource.as_container_ok asked
  subst same
  refine bind_keeps (access_keeps _ _ within) fun _ => ?_
  refine bind_keeps (existence_keeps _ _ _) fun _ => ?_
  apply ite_keeps
  · refine bind_keeps (access_keeps _ _ within) fun _ => ?_
    exact bind_keeps (record_all_keeps _ _) fun _ => pure_keeps _
  · exact pure_keeps _

omit within in
theorem compare_contents_keeps {handle : ObjectHandle}
    (within : (Resource.object handle).Within service inside) (expected : Body) :
    (compareContents handle expected).Keeps (Confined service inside)
      (Ready service inside source) := by
  refine bind_keeps (access_keeps _ _ within) fun downloaded => ?_
  cases downloaded with
  | error cause => exact throw_keeps _
  | ok bytes =>
      dsimp only
      cases expected.digest with
      | error cause => exact throw_keeps _
      | ok wanted =>
          apply ite_keeps
          · exact record_keeps _
          · exact pure_keeps ()

theorem compare_object_keeps (compares : Bool) :
    (compareObject compares resource definition).Keeps (Confined service inside)
      (Ready service inside source) := by
  refine bind_keeps (check_keeps _) fun wanted => check_bind_keeps fun handle asked => ?_
  have same := Resource.as_object_ok asked
  subst same
  refine bind_keeps (access_keeps _ _ within) fun _ => ?_
  refine bind_keeps (existence_keeps _ _ _) fun _ => ?_
  apply ite_keeps
  · refine bind_keeps (access_keeps _ _ within) fun _ => ?_
    refine bind_keeps (record_all_keeps _ _) fun _ => bind_keeps (record_all_keeps _ _) fun _ => ?_
    cases compares with
    | false => exact pure_keeps _
    | true =>
        generalize Validation.comparedBody? wanted = compared
        cases compared with
        | none => exact pure_keeps _
        | some body => exact bind_keeps (compare_contents_keeps within body) fun _ => pure_keeps _
  · exact pure_keeps _

theorem comparison_keeps (compares : Bool) :
    (comparison compares resource definition).Keeps (Confined service inside)
      (Ready service inside source) := by
  cases definition with
  | service inner => exact pure_keeps _
  | container inner => exact compare_container_keeps within _
  | object inner => exact compare_object_keeps within _ compares

end Steps

section Calls

variable {service : ServiceHandle} {inside : String → Prop} {source : NameSource} {desk : Desk}

theorem validate_keeps {target : Resource} {definition : Definition} (compares : Bool)
    (here : target.serviceHandle = service)
    (named : ∀ name ∈ walkedNames target definition, inside name) :
    (validate target definition compares).Keeps (Confined service inside)
      (Ready service inside source) := by
  refine bind_keeps (check_keeps _) fun _ => bind_keeps context_keeps fun current => ?_
  apply ite_keeps
  · exact note_keeps _ _
  · refine bind_keeps (traverse_keeps ?_ here named) fun _ => ?_
    · exact fun _ definition within => comparison_keeps within definition compares
    · exact bind_keeps context_keeps fun _ => note_keeps _ _

theorem delete_keeps {resource : Resource} (within : resource.Within service inside) :
    (delete resource).Keeps (Confined service inside) (Ready service inside source) :=
  bind_keeps (note_keeps _ _) fun _ => access_keeps _ _ within

theorem cleanup_keeps :
    cleanup.Keeps (Confined service inside) (Ready service inside source) := by
  intro desk ready
  have deletions : (forM delete desk.context.created.reverse).Keeps (Confined service inside)
      (Ready service inside source) :=
    forM_keeps _ fun resource member => delete_keeps (ready.tracked _ (List.mem_reverse.mp member))
  exact deletions _ ⟨ready.names, by simp⟩

theorem lift_closes (definition : Definition) (desk : Desk) :
    ∃ result after, (lift definition).dialogue desk = .closed result after := by
  have naming_closes : ∀ (name? : Option String) {next : String → Work Definition}
      (rest : ∀ name, Unfolding (next name)),
      (∀ name current, ∃ result after, (rest name).dialogue current = .closed result after) →
        ∃ result after, (naming name? rest).dialogue desk = .closed result after := by
    intro name? next rest closes
    cases name? with
    | some name => exact closes name desk
    | none => exact closes _ _
  cases definition with
  | service inner => exact ⟨_, _, rfl⟩
  | container inner => exact naming_closes _ _ fun _ _ => ⟨_, _, rfl⟩
  | object inner => exact naming_closes _ _ fun _ _ => ⟨_, _, rfl⟩

theorem lift_times_closes (count : Nat) (definition : Definition) (desk : Desk) :
    ∃ result after, (liftTimes count definition).dialogue desk = .closed result after := by
  induction count generalizing definition desk with
  | zero => exact ⟨_, _, rfl⟩
  | succ count ih =>
      obtain ⟨result, after, lifted⟩ := lift_closes definition desk
      change ∃ result after, ((lift definition).dialogue desk).bind _ = .closed result after
      rw [lifted]
      cases result with
      | ok wrapper => exact ih wrapper after
      | error error => exact ⟨_, _, rfl⟩

theorem lift_times_comes_to {count : Nat} {definition lifted : Definition} {context : Context}
    {storage : Storage}
    (yields : (Definition.liftTimes count definition).Yields (desk.session storage) lifted context
      storage) :
    ∃ log, (liftTimes count definition).dialogue desk =
      .closed (.ok lifted) ⟨context, log⟩ := by
  obtain ⟨result, after, closes⟩ := lift_times_closes count definition desk
  obtain ⟨log, ran⟩ := yields
  have sound := (liftTimes count definition).sound desk storage
  rw [closes, ran] at sound
  cases result with
  | error error => cases sound
  | ok value =>
      obtain ⟨sameValue, sameSession⟩ := EStateM.Result.ok.inj sound
      have sameContext : after.context = context := congrArg Session.context sameSession
      refine ⟨after.log, ?_⟩
      rw [closes, sameValue, ← sameContext]

def createdNames (base : Resource) (definition : Definition) (source : NameSource) :
    List String :=
  walkedNames base (.service (definition.lifted source))

def namesAfterCreate (base : Resource) (definition : Definition) (source : NameSource) :
    NameSource :=
  if definition.level < base.level then source
  else source.skip (definition.generatedNames (definition.level.depth - base.level.depth))

theorem walked_names_lifted {base : Resource} {definition lifted : Definition}
    {context : Context} {storage : Storage}
    (yields : (Definition.liftTimes (definition.level.depth - base.level.depth)
      definition).Yields (desk.session storage) lifted context storage) :
    walkedNames base lifted = createdNames base definition desk.context.names := by
  cases base with
  | service handle =>
      obtain ⟨_, log, ran⟩ := definition.lift_below_service (desk.session storage)
      have same := (Work.yields_of_ok yields ran).1
      rw [← same]
      rfl
  | container handle => cases lifted <;> rfl
  | object handle => cases lifted <;> rfl

theorem create_stays {base : Resource} {definition : Definition}
    (here : base.serviceHandle = service)
    (named : ∀ name ∈ createdNames base definition source, inside name)
    (ready : Ready service inside source desk.context) :
    ((create base definition).dialogue desk).StaysWithin (Confined service inside)
      fun _ after => Ready service inside (namesAfterCreate base definition source)
        after.context := by
  unfold namesAfterCreate
  refine ite_stays (fun deeper => ?_) fun notDeeper => ?_
  · rw [if_pos deeper]
    exact ready
  · rw [if_neg notDeeper]
    have distance : definition.level.depth =
        base.level.depth + (definition.level.depth - base.level.depth) :=
      (Nat.add_sub_cancel' (Nat.not_lt.mp notDeeper)).symm
    -- Lifting reads no storage, so any storage shows what it comes to.
    obtain ⟨lifted, _, yields, _⟩ := Definition.lift_then_lower _ definition base
      (desk.session (.fresh (.ofDirectories ⟨0⟩ []))) distance
    obtain ⟨log, closes⟩ := lift_times_comes_to yields
    have walked : ∀ name ∈ walkedNames base lifted, inside name := by
      rw [walked_names_lifted yields, ready.names]
      exact named
    refine bind_closed_stays closes ?_
    refine bind_keeps (note_keeps _ _) (fun _ => ?_) _ ⟨?_, ready.tracked⟩
    · refine bind_keeps (traverse_keeps ?_ here walked) fun _ => ?_
      · exact fun _ definition within => creation_keeps within definition
      · refine bind_keeps (check_keeps _) fun _ => ?_
        exact bind_keeps (note_keeps _ _) fun _ => pure_keeps _
    · rw [← ready.names]
      rfl

end Calls

end Unfolding

end StorageScenario
