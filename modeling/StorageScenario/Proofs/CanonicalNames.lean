import StorageScenario.Proofs.PathPieces
import StorageScenario.Proofs.ValidationReads

/-!
What a canonical name tells of its resource. Behind the name of the service stand the pieces of
the container's name and then the names on the way to the object, and nothing shows where the
former end. So as long as the names of containers have no slashes, a name belongs to one place
and a failure to what was validated. Otherwise an object shares its name with what lies behind
the same steps in a container whose own name takes in some of them.
-/

namespace StorageScenario

open ObjectPath Work

def ServiceHandle.nameBehind (service : ServiceHandle) (steps : List String) : String :=
  service.canonicalName ++ "/" ++ render steps

theorem ServiceHandle.name_behind_injective (service : ServiceHandle) {first second : List String}
    (firstSome : first ≠ []) (firstPlain : ∀ step ∈ first, '/' ∉ step.toList)
    (secondSome : second ≠ []) (secondPlain : ∀ step ∈ second, '/' ∉ step.toList) :
    service.nameBehind first = service.nameBehind second ↔ first = second := by
  unfold nameBehind
  rw [String.append_right_inj]
  constructor
  · intro same
    rw [← pieces_render_plain firstSome firstPlain, same,
      pieces_render_plain secondSome secondPlain]
  · exact congrArg render

namespace Resource

/-- A container of any name, or an object in one that is not its root folder. -/
inductive Named (service : ServiceHandle) : Resource → Prop
  | container (name : String) : Named service (.container (service.container name))
  | object (name : String) {path : String} (kind : EntityKind) (inside : clean path ≠ "") :
      Named service (.object ((service.container name).object path kind))

def containerName : Resource → String
  | .service _ => ""
  | .container handle => handle.name
  | .object handle => handle.container.name

def objectPath : Resource → String
  | .object handle => handle.path
  | _ => ""

structure SamePlace (first second : Resource) : Prop where
  level : first.level = second.level
  containerName : first.containerName = second.containerName
  objectPath : first.objectPath = second.objectPath

/-- The second lies in a container whose name takes in some of the names on the way to the first,
and there it is behind the others. -/
def TakenIn (first second : Resource) : Prop :=
  ∃ folder, folder ≠ [] ∧
    second.containerName = first.containerName ++ "/" ++ render folder ∧
    ObjectPath.names first.objectPath = folder ++ ObjectPath.names second.objectPath

def SharesName (first second : Resource) : Prop :=
  SamePlace first second ∨ TakenIn first second ∨ TakenIn second first

def AtOrBelow (first second : Resource) : Prop :=
  first.containerName = second.containerName ∧
    ObjectPath.names first.objectPath <+: ObjectPath.names second.objectPath

/-- What the canonical name is made of behind that of the service. -/
def steps (resource : Resource) : List String :=
  pieces resource.containerName ++ ObjectPath.names resource.objectPath

theorem steps_ne_nil (resource : Resource) : resource.steps ≠ [] :=
  List.append_ne_nil_of_left_ne_nil (pieces_ne_nil _) _

theorem steps_plain (resource : Resource) : ∀ step ∈ resource.steps, '/' ∉ step.toList := by
  intro step member
  rcases List.mem_append.mp member with ofContainer | below
  · exact pieces_plain _ step ofContainer
  · exact (names_are_names _ step below).2.2.2

theorem steps_of_object (container : ContainerHandle) (path : String) (kind : EntityKind) :
    steps (.container container) <+: steps (.object (container.object path kind)) := by
  simp only [steps, objectPath, names_empty, List.append_nil]
  exact List.prefix_append _ _

theorem container_canonical_name (container : ContainerHandle) :
    container.canonicalName = container.service.nameBehind (steps (.container container)) := by
  have alone : steps (.container container) = pieces container.name := List.append_nil _
  rw [alone, ServiceHandle.nameBehind, render_pieces]
  rfl

/-- The root folder is called like its container. -/
theorem object_canonical_name (container : ContainerHandle) (path : String) (kind : EntityKind) :
    (container.object path kind).canonicalName =
      container.service.nameBehind (steps (.object (container.object path kind))) := by
  have whole : steps (.object (container.object path kind)) =
      pieces container.name ++ ObjectPath.names (clean path) := rfl
  have path_eq : (container.object path kind).path = clean path := rfl
  unfold ObjectHandle.canonicalName ObjectHandle.isRoot
  rw [whole, path_eq]
  by_cases atRoot : clean path = ""
  · rw [if_pos (by simpa using atRoot), atRoot, names_empty]
    exact container_canonical_name container
  · have isClean : clean (clean path) = clean path := clean_join "" path
    have down := (names_eq_nil_iff isClean).not.mpr atRoot
    rw [if_neg (by simpa using atRoot), ServiceHandle.nameBehind,
      render_append (pieces_ne_nil _) down, render_pieces, render_names isClean]
    simp only [ContainerHandle.canonicalName, ContainerHandle.object, String.append_assoc]

section Naming

variable {service : ServiceHandle} {first second : Resource}

theorem named_canonical_name {resource : Resource} (named : resource.Named service) :
    resource.canonicalName = service.nameBehind resource.steps := by
  cases named with
  | container name => exact container_canonical_name _
  | object name kind inside => exact object_canonical_name _ _ kind

theorem named_path_clean {resource : Resource} (named : resource.Named service) :
    clean resource.objectPath = resource.objectPath := by
  cases named with
  | container name => rfl
  | object name kind inside => exact clean_join "" _

theorem named_level {resource : Resource} (named : resource.Named service) :
    resource.level = if ObjectPath.names resource.objectPath = [] then .container else .object := by
  cases named with
  | container name => rfl
  | @object name path kind inside =>
      have isClean : clean (clean path) = clean path := clean_join "" path
      exact (if_neg ((names_eq_nil_iff isClean).not.mpr inside)).symm

theorem taken_in_iff : TakenIn first second ↔
    ∃ folder, folder ≠ [] ∧
      pieces second.containerName = pieces first.containerName ++ folder ∧
      ObjectPath.names first.objectPath = folder ++ ObjectPath.names second.objectPath := by
  refine exists_congr fun folder => and_congr_right fun some => and_congr_left fun way => ?_
  have proper : AreNames folder := by
    have all := names_are_names first.objectPath
    rw [way] at all
    exact (are_names_append.mp all).1
  constructor
  · intro named
    rw [named, pieces_slash, pieces_render some proper]
  · intro split
    rw [← render_pieces second.containerName, split, render_append (pieces_ne_nil _) some,
      render_pieces]

theorem not_taken_in (plain : '/' ∉ second.containerName.toList) : ¬ TakenIn first second := by
  rintro ⟨folder, _, named, _⟩
  rw [named] at plain
  simp at plain

variable (firstNamed : first.Named service) (secondNamed : second.Named service)
include firstNamed secondNamed

theorem same_place_iff : SamePlace first second ↔
    pieces second.containerName = pieces first.containerName ∧
      ObjectPath.names first.objectPath = ObjectPath.names second.objectPath := by
  constructor
  · rintro ⟨_, sameContainer, samePath⟩
    rw [sameContainer, samePath]
    exact ⟨rfl, rfl⟩
  · rintro ⟨sameContainer, sameWay⟩
    refine ⟨?_, ?_, ?_⟩
    · rw [named_level firstNamed, named_level secondNamed, sameWay]
    · rw [← render_pieces first.containerName, ← sameContainer, render_pieces]
    · exact eq_of_names (named_path_clean firstNamed) (named_path_clean secondNamed)
        sameWay

/-- The steps of two resources are split between container and object at one place, or one of
them is split later. -/
theorem steps_eq_iff : first.steps = second.steps ↔ SharesName first second := by
  unfold SharesName
  rw [same_place_iff firstNamed secondNamed, taken_in_iff, taken_in_iff, steps, steps,
    List.append_eq_append_iff]
  constructor
  · rintro (⟨folder, later, way⟩ | ⟨folder, later, way⟩)
    · by_cases nothing : folder = []
      · subst nothing
        exact .inl ⟨by simpa using later, by simpa using way⟩
      · exact .inr (.inl ⟨folder, nothing, later, way⟩)
    · by_cases nothing : folder = []
      · subst nothing
        exact .inl ⟨by simpa using later.symm, by simpa using way.symm⟩
      · exact .inr (.inr ⟨folder, nothing, later, way⟩)
  · rintro (⟨sameContainer, sameWay⟩ | ⟨folder, _, later, way⟩ |
      ⟨folder, _, later, way⟩)
    · exact .inl ⟨[], by simpa using sameContainer, by simpa using sameWay⟩
    · exact .inl ⟨folder, later, way⟩
    · exact .inr ⟨folder, later, way⟩

theorem canonical_name_eq_iff :
    first.canonicalName = second.canonicalName ↔ SharesName first second := by
  rw [named_canonical_name firstNamed, named_canonical_name secondNamed,
    service.name_behind_injective (steps_ne_nil _) (steps_plain _) (steps_ne_nil _)
      (steps_plain _),
    steps_eq_iff firstNamed secondNamed]

end Naming

theorem shares_name_of_plain {first second : Resource}
    (firstPlain : '/' ∉ first.containerName.toList)
    (secondPlain : '/' ∉ second.containerName.toList) :
    SharesName first second ↔ SamePlace first second := by
  simp [SharesName, not_taken_in firstPlain, not_taken_in secondPlain]

theorem steps_prefix_iff {first second : Resource} (firstPlain : '/' ∉ first.containerName.toList)
    (secondPlain : '/' ∉ second.containerName.toList) :
    first.steps <+: second.steps ↔ AtOrBelow first second := by
  unfold steps AtOrBelow
  rw [pieces_of_plain firstPlain, pieces_of_plain secondPlain]
  exact List.cons_prefix_cons

end Resource

theorem Work.check_then_keeps {σ α β : Type} {kept : σ → Prop}
    {result : Except ScenarioError α} {next : α → EStateM ScenarioError σ β}
    (goesOn : ∀ value, result = .ok value → Keeps kept (next value)) :
    Keeps kept (check result >>= next) := by
  cases result with
  | ok value => exact goesOn value rfl
  | error error => exact fun _ start => start

namespace Validation

def NamesBelow (service : ServiceHandle) (above : List String) (name : String) : Prop :=
  ∃ steps, above <+: steps ∧ (∀ step ∈ steps, '/' ∉ step.toList) ∧
    name = service.nameBehind steps

/-- Whatever has been recorded since `start` is about something there. -/
def RecordedBelow (service : ServiceHandle) (above : List String) (start session : Session) :
    Prop :=
  ∃ found, session.context.failures = start.context.failures ++ found ∧
    ∀ failure ∈ found, NamesBelow service above failure.resource

section Recording

variable {service : ServiceHandle} {above : List String} {start : Session} {name : String}

theorem note_records_below (severity : Severity) (text : String) :
    Keeps (RecordedBelow service above start) (note severity text) :=
  fun _ reached => reached

theorem access_records_below {α : Type} (operation : Operation) (resource : String)
    (call : Access α) :
    Keeps (RecordedBelow service above start) (access operation resource call) := by
  intro before reached
  unfold left access
  cases call before.storage <;> exact reached

theorem record_below {failure : SoftFailure} (named : NamesBelow service above failure.resource) :
    Keeps (RecordedBelow service above start) (record failure) := by
  refine bind_keeps (note_records_below _ _) fun _ before reached => ?_
  obtain ⟨found, whole, below⟩ := reached
  refine ⟨found ++ [failure], ?_, ?_⟩
  · rw [← List.append_assoc, ← whole]
    rfl
  · intro other member
    rcases List.mem_append.mp member with earlier | new
    · exact below other earlier
    · rw [List.mem_singleton.mp new]
      exact named

variable (named : NamesBelow service above name)
include named

theorem record_all_below (mismatches : List Mismatch) :
    Keeps (RecordedBelow service above start) (recordAll name mismatches) :=
  forM_keeps mismatches fun _ _ => record_below named

theorem existence_below (expected actual : Bool) :
    Keeps (RecordedBelow service above start) (existence name expected actual) := by
  unfold existence
  split
  · exact bind_keeps (record_below named) fun _ => pure_keeps false
  · split
    · exact bind_keeps (note_records_below _ _) fun _ => pure_keeps false
    · exact pure_keeps true

omit named in
theorem container_below {handle : ContainerHandle}
    (named : NamesBelow service above handle.canonicalName) (definition : Definition) :
    Keeps (RecordedBelow service above start)
      (Validation.container (.container handle) definition) := by
  refine bind_keeps (check_keeps _) fun wanted => check_then_keeps ?_
  rintro _ ⟨⟩
  refine bind_keeps (access_records_below _ _ _) fun present => ?_
  refine bind_keeps (existence_below named _ _) fun goesOn => ?_
  split
  · refine bind_keeps (access_records_below _ _ _) fun actual => ?_
    exact bind_keeps (record_all_below named _) fun _ => pure_keeps _
  · exact pure_keeps _

omit named in
theorem contents_below {handle : ObjectHandle}
    (named : NamesBelow service above handle.canonicalName) (expected : Body) :
    Keeps (RecordedBelow service above start) (contents handle expected) := by
  refine bind_keeps (access_records_below _ _ _) fun downloaded => ?_
  cases downloaded with
  | error cause => exact fun _ reached => reached
  | ok bytes =>
      dsimp only
      split
      · exact fun _ reached => reached
      · split
        · exact record_below named
        · exact pure_keeps ()

omit named in
theorem object_below {handle : ObjectHandle}
    (named : NamesBelow service above handle.canonicalName) (compares : Bool)
    (definition : Definition) :
    Keeps (RecordedBelow service above start)
      (Validation.object compares (.object handle) definition) := by
  refine bind_keeps (check_keeps _) fun wanted => check_then_keeps ?_
  rintro _ ⟨⟩
  refine bind_keeps (access_records_below _ _ _) fun present => ?_
  refine bind_keeps (existence_below named _ _) fun goesOn => ?_
  split
  · refine bind_keeps (access_records_below _ _ _) fun actual => ?_
    refine bind_keeps (record_all_below named _) fun _ => ?_
    refine bind_keeps (record_all_below named _) fun _ => ?_
    dsimp only
    split
    · exact bind_keeps (contents_below named _) fun _ => pure_keeps _
    · exact pure_keeps _
  · exact pure_keeps _

end Recording

/-- A container and its objects are called by their steps, and those of the objects begin with
those of the container. -/
theorem traverse_below {service : ServiceHandle} {target : Resource}
    (named : target.Named service) (compares : Bool) {definition : Definition}
    (sameLevel : target.level = definition.level) (start : Session) :
    Keeps (RecordedBelow service target.steps start)
      (definition.traverse (callbacks compares) target) := by
  cases named with
  | container name =>
      cases definition with
      | service inner => cases sameLevel
      | object inner => cases sameLevel
      | container inner =>
          refine visit_keeps (fun _ => container_below ?own _) (forM_keeps _ fun entry _ => ?_)
          case own =>
            exact ⟨_, List.prefix_rfl, Resource.steps_plain _,
              Resource.container_canonical_name _⟩
          refine check_then_keeps ?_
          rintro _ ⟨⟩
          refine visit_keeps (fun _ => object_below ?child _ _) (pure_keeps ())
          case child =>
            exact ⟨_, Resource.steps_of_object _ _ _, Resource.steps_plain _,
              Resource.object_canonical_name _ _ _⟩
  | object name kind inside =>
      cases definition with
      | service inner => cases sameLevel
      | container inner => cases sameLevel
      | object inner =>
          refine visit_keeps (fun _ => object_below ?own _ _) (pure_keeps ())
          exact ⟨_, List.prefix_rfl, Resource.steps_plain _,
            Resource.object_canonical_name _ _ kind⟩

theorem validate_below {service : ServiceHandle} {target : Resource}
    (named : target.Named service) (definition : Definition) (compares : Bool)
    (session : Session) :
    RecordedBelow service target.steps session
      (left (validate target definition compares) session) := by
  have nothing : RecordedBelow service target.steps session session :=
    ⟨[], (List.append_nil _).symm, by simp⟩
  by_cases sameLevel : target.level = definition.level
  · have kept : Keeps (RecordedBelow service target.steps session)
        (validate target definition compares) := by
      refine bind_keeps (check_keeps _) fun _ => bind_keeps (fun _ reached => reached) fun _ => ?_
      split
      · exact note_records_below _ _
      · refine bind_keeps (traverse_below named compares sameLevel session) fun _ => ?_
        exact bind_keeps (fun _ reached => reached) fun _ => note_records_below _ _
    exact kept session nothing
  · rw [left_of_error (validate_at_other_level compares sameLevel session)]
    exact nothing

/-- What is recorded of other resources is not attributed to this one. -/
theorem failures_for_unchanged {service : ServiceHandle} {above : List String}
    {before after : Session} (recorded : RecordedBelow service above before after)
    {resource : Resource} (named : resource.Named service)
    (elsewhere : ¬ above <+: resource.steps) (someAbove : above ≠ []) :
    after.context.report.failuresFor resource.canonicalName =
      before.context.report.failuresFor resource.canonicalName := by
  obtain ⟨found, whole, below⟩ := recorded
  have none : found.filter (fun failure => failure.resource == resource.canonicalName) = [] := by
    rw [List.filter_eq_nil_iff]
    intro failure member same
    obtain ⟨steps, begins, plain, isNamed⟩ := below failure member
    rw [beq_iff_eq, isNamed, Resource.named_canonical_name named,
      service.name_behind_injective (begins.ne_nil someAbove) plain resource.steps_ne_nil
        resource.steps_plain] at same
    exact elsewhere (same ▸ begins)
  simp only [Report.failuresFor, Context.report, whole, List.filter_append, none, List.append_nil]

end Validation

namespace Resource

open Validation

/-- Two resources of a service have one canonical name just if they are at one place, or the name
of one's container takes in some of the names on the way to the other. So where the names of
containers have no slashes, a canonical name belongs to one level, container and path, and a
validation changes nothing in the failures that are attributed to a resource unless that is at its
target or below it. -/
theorem canonical_names_shared {service : ServiceHandle} {first second : Resource}
    (firstNamed : first.Named service) (secondNamed : second.Named service) :
    (first.canonicalName = second.canonicalName ↔ first.SharesName second) ∧
    ('/' ∉ first.containerName.toList → '/' ∉ second.containerName.toList →
      (first.canonicalName = second.canonicalName ↔ first.SamePlace second) ∧
      ∀ definition compares (session : Session), ¬ first.AtOrBelow second →
        (left (validate first definition compares) session).context.report.failuresFor
            second.canonicalName =
          session.context.report.failuresFor second.canonicalName) := by
  refine ⟨canonical_name_eq_iff firstNamed secondNamed, ?_⟩
  intro firstPlain secondPlain
  constructor
  · rw [canonical_name_eq_iff firstNamed secondNamed, shares_name_of_plain firstPlain secondPlain]
  · intro definition compares session elsewhere
    rw [← steps_prefix_iff firstPlain secondPlain] at elsewhere
    exact failures_for_unchanged (validate_below firstNamed definition compares session) secondNamed
      elsewhere first.steps_ne_nil

/-- A container that is missing is reported under the name of an object which is in another one,
but for a container without a slash in its name that does not happen. -/
theorem canonical_names_shared_across_levels :
    let service : ServiceHandle := .memory ⟨0, "account", .standard⟩ .blob
    let object : Resource := .object ((service.container "a").object "b" .file)
    let container := fun name => Resource.container (service.container name)
    let session : Session :=
      ⟨⟨"scenario", {}, .counting "n", [], []⟩,
        Storage.fresh (.ofDirectories ⟨0⟩ []), []⟩
    let after := fun name => left (validate (container name) (.container {}) true) session
    (container "a/b").canonicalName = object.canonicalName ∧
      ¬ (container "a/b").SamePlace object ∧
      (after "a/b").context.report.failuresFor object.canonicalName =
        [.existence (container "a/b").canonicalName true] ∧
      (container "c").canonicalName ≠ object.canonicalName ∧
      (after "c").context.report.failuresFor object.canonicalName = [] := by
  intro service object container session after
  have isObject : object.Named service := .object "a" .file (by decide)
  obtain ⟨shared, _⟩ := canonical_names_shared (.container "a/b") isObject
  obtain ⟨_, apart⟩ := canonical_names_shared (.container "c") isObject
  obtain ⟨same, unchanged⟩ := apart (by decide) (by decide)
  have notSame : ∀ name, ¬ (container name).SamePlace object := by
    intro name same
    cases same.level
  have collide : (container "a/b").canonicalName = object.canonicalName :=
    shared.mpr (.inr (.inr ⟨["b"], by decide, by decide, by decide⟩))
  have recorded : (after "a/b").context.failures =
      [.existence (container "a/b").canonicalName true] := by rfl
  refine ⟨collide, notSame _, ?_, same.not.mpr (notSame "c"), unchanged _ _ _ ?_⟩
  · have isFor : (SoftFailure.existence (container "a/b").canonicalName true).resource =
        object.canonicalName := collide
    simp [Report.failuresFor, Context.report, recorded, isFor]
  · rintro ⟨sameContainer, _⟩
    revert sameContainer
    decide

end Resource

end StorageScenario
