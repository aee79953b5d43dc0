import StorageScenario.Proofs.ReadOnlyCalls
import StorageScenario.Proofs.ValidationRun

/-!
A validation only reads. Each back-end call that it makes leaves the storage as it was, on
an emulated account, on disk and in a rehearsal alike. Of the context it changes the
failures alone: what it finds stands behind what was recorded before. This holds however
the validation ends, also where a call fails after failures have been recorded.
-/

namespace StorageScenario

open Work

namespace StoredResources

variable (account : Account) (location : Location)

theorem read_store_looks : Looks (Access.readStore account location) :=
  bind_looks get_looks fun _ => pure_looks _

theorem container_looks (name resource : String) :
    Looks (container account location name resource) := by
  refine bind_looks (read_store_looks account location) fun store => ?_
  split
  · exact pure_looks _
  · exact throw_looks _

theorem object_is_present_looks (object : ObjectHandle) :
    Looks (objectIsPresent account location object) := by
  refine bind_looks (read_store_looks account location) fun store => ?_
  split
  · exact pure_looks _
  · exact pure_looks _

theorem object_properties_looks (object : ObjectHandle) :
    Looks (objectProperties account location object) := by
  refine bind_looks (container_looks account location _ _) fun stored => ?_
  split
  · exact pure_looks _
  · exact throw_looks _

theorem download_looks (object : ObjectHandle) : Looks (download account location object) := by
  refine bind_looks (read_store_looks account location) fun store => ?_
  split
  · exact throw_looks _
  · split
    · exact pure_looks _
    · exact throw_looks _

end StoredResources

namespace ContainerHandle

theorem is_present_looks (container : ContainerHandle) : Looks container.isPresent := by
  unfold isPresent
  split
  · exact pure_looks true
  · exact bind_looks (StoredResources.read_store_looks _ _) fun _ => pure_looks _
  · exact DiskResources.container_is_present_looks _

theorem properties_looks (container : ContainerHandle) : Looks container.properties := by
  unfold properties
  split
  · exact pure_looks _
  · exact bind_looks (StoredResources.container_looks _ _ _ _) fun _ => pure_looks _
  · refine bind_looks container.is_present_looks fun present => ?_
    split
    · exact pure_looks _
    · exact throw_looks _

end ContainerHandle

namespace ObjectHandle

theorem is_present_looks (object : ObjectHandle) : Looks object.isPresent := by
  unfold isPresent
  split
  · exact pure_looks true
  · exact StoredResources.object_is_present_looks _ _ object
  · split
    · exact object.container.is_present_looks
    · exact Access.on_disk_looks _ (Disk.is_present_looks _)

theorem properties_looks (object : ObjectHandle) : Looks object.properties := by
  unfold properties
  split
  · exact pure_looks _
  · exact StoredResources.object_properties_looks _ _ object
  · exact bind_looks (Access.on_disk_looks _ (Disk.metadata_looks _)) fun _ => pure_looks _

theorem download_looks (object : ObjectHandle) : Looks object.download := by
  unfold download
  split
  · exact pure_looks _
  · exact bind_looks (StoredResources.download_looks _ _ object) fun _ => pure_looks _
  · exact Access.on_disk_looks _ (Disk.read_file_looks _)

end ObjectHandle

namespace Validation

/-- Nothing has changed since `start` but for failures that were added. -/
structure OnlyRecorded (start session : Session) : Prop where
  storage : session.storage = start.storage
  context : ∃ found, session.context = start.context.withFailures found

def NotOverLevels (error : ScenarioError) (_ : Session) : Prop :=
  ∀ expected actual, error ≠ .levelMismatch expected actual

/-- However the step ends, it has only recorded failures, and it does not fail over levels. -/
structure Reads (start : Session) {α : Type} (step : Work α) : Prop where
  keeps : Keeps (OnlyRecorded start) step
  fails : FailsOnly NotOverLevels step

section Steps

variable {α β : Type} {start : Session}

theorem only_recorded_refl (session : Session) : OnlyRecorded session session :=
  ⟨rfl, [], (Context.with_no_failures _).symm⟩

theorem pure_reads (value : α) : Reads start (pure value) :=
  ⟨pure_keeps value, pure_fails_only value⟩

theorem bind_reads {step : Work α} {next : α → Work β} (first : Reads start step)
    (rest : ∀ value, Reads start (next value)) : Reads start (step >>= next) :=
  ⟨bind_keeps first.keeps fun value => (rest value).keeps,
    bind_fails_only first.fails fun value => (rest value).fails⟩

theorem forM_reads {step : α → Work Unit} (entries : List α)
    (each : ∀ entry ∈ entries, Reads start (step entry)) : Reads start (entries.forM step) :=
  ⟨forM_keeps entries fun entry member => (each entry member).keeps,
    forM_fails_only entries fun entry member => (each entry member).fails⟩

theorem context_reads : Reads start Work.context where
  keeps _ reached := reached
  fails := by
    intro before error after failed
    cases failed

theorem note_reads (severity : Severity) (text : String) : Reads start (note severity text) where
  keeps _ reached := ⟨reached.storage, reached.context⟩
  fails := note_fails_only severity text

theorem record_reads (failure : SoftFailure) : Reads start (record failure) where
  keeps := by
    intro before reached
    obtain ⟨found, same⟩ := reached.context
    refine ⟨reached.storage, found ++ [failure], ?_⟩
    rw [← Context.with_failures_twice, ← same]
    rfl
  fails := bind_fails_only (note_fails_only _ _) fun _ => update_context_fails_only _

theorem access_reads (operation : Operation) (resource : String) {call : Access α}
    (looks : Looks call) : Reads start (access operation resource call) where
  keeps := by
    intro before reached
    have kept := looks before.storage
    unfold left at kept ⊢
    unfold access
    cases ran : call before.storage with
    | ok value storage =>
        rw [ran] at kept
        exact ⟨kept.trans reached.storage, reached.context⟩
    | error cause storage =>
        rw [ran] at kept
        exact ⟨kept.trans reached.storage, reached.context⟩
  fails := by
    intro before error after failed expected actual
    obtain ⟨cause, _, reported⟩ := access_error failed
    rw [reported]
    exact ScenarioError.noConfusion

theorem content_read_reads (resource : String) (cause : IoError) :
    Reads start (throw (.contentRead resource cause) : Work α) where
  keeps _ reached := reached
  fails := by
    intro before error after failed expected actual
    cases failed
    exact ScenarioError.noConfusion

theorem record_all_reads (resource : String) (mismatches : List Mismatch) :
    Reads start (recordAll resource mismatches) :=
  forM_reads mismatches fun mismatch _ => record_reads (mismatch.toFailure resource)

theorem existence_reads (resource : String) (expected actual : Bool) :
    Reads start (existence resource expected actual) := by
  unfold existence
  split
  · exact bind_reads (record_reads _) fun _ => pure_reads false
  · split
    · exact bind_reads (note_reads _ _) fun _ => pure_reads false
    · exact pure_reads true

theorem container_reads (handle : ContainerHandle) (definition : ContainerDefinition) :
    Reads start (Validation.container (.container handle) (.container definition)) := by
  refine bind_reads (pure_reads definition) fun wanted => ?_
  refine bind_reads (pure_reads handle) fun handle => ?_
  refine bind_reads (access_reads _ _ handle.is_present_looks) fun present => ?_
  refine bind_reads (existence_reads _ _ _) fun goesOn => ?_
  split
  · refine bind_reads (access_reads _ _ handle.properties_looks) fun actual => ?_
    exact bind_reads (record_all_reads _ _) fun _ => pure_reads _
  · exact pure_reads _

theorem contents_reads (handle : ObjectHandle) (expected : Body) :
    Reads start (contents handle expected) := by
  refine bind_reads (access_reads _ _ handle.download_looks) fun downloaded => ?_
  cases downloaded with
  | error cause => exact content_read_reads _ cause
  | ok bytes =>
      dsimp only
      split
      · exact content_read_reads _ _
      · split
        · exact record_reads _
        · exact pure_reads ()

theorem object_reads (compareContents : Bool) (handle : ObjectHandle)
    (definition : ObjectDefinition) :
    Reads start (Validation.object compareContents (.object handle) (.object definition)) := by
  refine bind_reads (pure_reads definition) fun wanted => ?_
  refine bind_reads (pure_reads handle) fun handle => ?_
  refine bind_reads (access_reads _ _ handle.is_present_looks) fun present => ?_
  refine bind_reads (existence_reads _ _ _) fun goesOn => ?_
  split
  · refine bind_reads (access_reads _ _ handle.properties_looks) fun actual => ?_
    refine bind_reads (record_all_reads _ _) fun _ => ?_
    refine bind_reads (record_all_reads _ _) fun _ => ?_
    dsimp only
    split
    · exact bind_reads (contents_reads handle _) fun _ => pure_reads _
    · exact pure_reads _
  · exact pure_reads _

theorem callbacks_read (compareContents : Bool) (resource : Resource) (definition : Definition)
    (sameLevel : resource.level = definition.level) :
    Reads start ((callbacks compareContents).invoke resource definition) := by
  cases definition <;> cases resource <;> try cases sameLevel
  · exact pure_reads _
  · exact container_reads _ _
  · exact object_reads _ _ _

theorem traverse_reads (compareContents : Bool) {resource : Resource} {definition : Definition}
    (sameLevel : resource.level = definition.level) :
    Reads start (definition.traverse (callbacks compareContents) resource) := by
  have called : ∀ resource definition, resource.level = definition.level →
      Reads start ((callbacks compareContents).invoke resource definition) :=
    callbacks_read compareContents
  exact ⟨traverse_keeps (fun _ _ same => (called _ _ same).keeps) definition resource,
    traverse_fails_only (fun _ _ same => (called _ _ same).fails) sameLevel.symm⟩

end Steps

section Runs

variable (target : Resource) (definition : Definition) (compareContents : Bool)

theorem validate_at_other_level {target : Resource} {definition : Definition}
    (otherLevel : target.level ≠ definition.level) (session : Session) :
    validate target definition compareContents session =
      .error (.levelMismatch definition.level target.level) session := by
  unfold validate
  rw [Definition.check_level_other otherLevel]
  rfl

theorem validate_in_dry_run {target : Resource} {definition : Definition}
    (sameLevel : target.level = definition.level) {session : Session}
    (dry : session.context.settings.dryRun) :
    (validate target definition compareContents).Yields session () session.context
      session.storage := by
  unfold validate
  rw [Definition.check_level_same sameLevel]
  refine bind_yields (pure_yields () session) fun _ => ?_
  refine bind_yields (pure_yields session.context _) fun _ => ?_
  rw [if_pos dry]
  exact note_yields _ _ _

theorem validate_reads {target : Resource} {definition : Definition}
    (sameLevel : target.level = definition.level) (start : Session) :
    Reads start (validate target definition compareContents) := by
  unfold validate
  rw [Definition.check_level_same sameLevel]
  refine bind_reads (pure_reads ()) fun _ => bind_reads context_reads fun _ => ?_
  split
  · exact note_reads _ _
  · refine bind_reads (traverse_reads compareContents sameLevel) fun _ => ?_
    exact bind_reads context_reads fun _ => note_reads _ _

/-- The levels are compared once, before anything else, and no later step fails over them. -/
theorem level_mismatch_iff (session : Session) :
    (∃ expected actual after, validate target definition compareContents session =
        .error (.levelMismatch expected actual) after) ↔ target.level ≠ definition.level := by
  constructor
  · rintro ⟨expected, actual, after, failed⟩ sameLevel
    have reads := validate_reads compareContents sameLevel session
    exact reads.fails _ _ _ failed expected actual rfl
  · intro otherLevel
    exact ⟨_, _, _, validate_at_other_level compareContents otherLevel session⟩

/-- However it ends, a validation leaves the storage as it was and of the context changes
nothing but the failures, where those that it finds come behind those recorded before.
It finds none in a dry run, and none where its error is one over levels. -/
theorem validate_only_reads (session : Session) :
    let after := left (validate target definition compareContents) session
    after.storage = session.storage ∧
      ∃ found,
        after.context =
          { session.context with failures := session.context.failures ++ found } ∧
        (session.context.settings.dryRun ∨
            (∃ expected actual ended, validate target definition compareContents session =
              .error (.levelMismatch expected actual) ended) →
          found = []) := by
  intro after
  by_cases sameLevel : target.level = definition.level
  · have kept : OnlyRecorded session after :=
      (validate_reads compareContents sameLevel session).keeps _ (only_recorded_refl session)
    refine ⟨kept.storage, ?_⟩
    cases dry : session.context.settings.dryRun with
    | true =>
        obtain ⟨log, ran⟩ := validate_in_dry_run compareContents sameLevel dry
        have unchanged : after = ⟨session.context, session.storage, log⟩ := left_of_ok ran
        refine ⟨[], ?_, fun _ => rfl⟩
        rw [unchanged]
        exact (Context.with_no_failures _).symm
    | false =>
        obtain ⟨found, same⟩ := kept.context
        refine ⟨found, same, ?_⟩
        rintro (isDry | mismatch)
        · cases isDry
        · exact absurd sameLevel
            ((level_mismatch_iff target definition compareContents session).mp mismatch)
  · have unchanged : after = session :=
      left_of_error (validate_at_other_level compareContents sameLevel session)
    rw [unchanged]
    exact ⟨rfl, [], (Context.with_no_failures _).symm, fun _ => rfl⟩

end Runs

/-- The walk records that a folder is where a file should be, and then it cannot download
that folder. An earlier failure and a tracked resource are still there. -/
theorem validate_only_reads_until_error :
    let account : Account := ⟨0, "account", .hierarchicalNamespace⟩
    let target : ContainerHandle := ⟨.memory account .blobFs, "c"⟩
    let definition : ContainerDefinition :=
      { objects := .flat (Table.ofList [("dir", { body := some (.buffered []) }), ("z", {})]) }
    let stored : StoredContainer := ⟨{}, .folder, Table.singleton "dir/x" ⟨{}, []⟩⟩
    let session : Session :=
      ⟨⟨"scenario", {}, .counting "n", [.existence "account/blobfs/b" true],
          [.container target]⟩,
        (Storage.fresh (.ofDirectories ⟨0⟩ [])).setStore account .blobFs
          (Table.singleton "c" stored), []⟩
    let after := left (validate (.container target) (.container definition) true) session
    after.storage = session.storage ∧
      after.context.names = .counting "n" ∧ after.context.created = [.container target] ∧
      after.context.failures =
        [.existence "account/blobfs/b" true,
          .property "account/blobfs/c/dir" "entity type" "file" "folder"] := by
  intro account target definition stored session after
  obtain ⟨storage, found, context, _⟩ :=
    validate_only_reads (.container target) (.container definition) true session
  have recorded : after.context.failures =
      [.existence "account/blobfs/b" true,
        .property "account/blobfs/c/dir" "entity type" "file" "folder"] := by
    decide +kernel
  refine ⟨storage, ?_, ?_, recorded⟩
  · exact congrArg Context.names context
  · exact congrArg Context.created context

end Validation

end StorageScenario
