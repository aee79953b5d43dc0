import StorageScenario.Proofs.ValidationReads

/-!
What a validation that stays silent vouches for. Of every object that it comes to, all
that the definition declares is there: the headers, the metadata and the properties that
the location keeps, with one exception. The change time of a file in a file share can be
declared, but no validation looks at it. This holds on every back-end.
-/

namespace StorageScenario

namespace Field

variable {α : Type}

def Agrees (field : Field α) (expected actual : α) : Prop :=
  ∀ wanted, field.read expected = some wanted → field.real actual = some wanted

theorem agrees_iff_not_diverges (field : Field α) (expected actual : α) :
    field.Agrees expected actual ↔ ¬ field.Diverges expected actual := by
  unfold Agrees Diverges
  simp only [not_exists, not_and, Decidable.not_not]

theorem failures_eq_nil_iff (fields : List (Field α)) (resource : String) (expected actual : α) :
    failures fields resource expected actual = [] ↔
      ∀ field ∈ fields, field.Agrees expected actual := by
  unfold failures
  rw [List.filterMap_eq_nil_iff]
  refine forall₂_congr fun field _ => ?_
  rw [agrees_iff_not_diverges, ← failure_iff_diverges field resource]
  simp

theorem failures_resource {fields : List (Field α)} {resource : String} {expected actual : α}
    {failure : SoftFailure} (member : failure ∈ failures fields resource expected actual) :
    failure.resource = resource := by
  obtain ⟨field, _, found⟩ := List.mem_filterMap.mp member
  unfold failure? at found
  split at found
  · cases found
  · split at found
    · cases found
    · cases found
      rfl

end Field

attribute [ext] ContentHeaders BlobProperties BlobFsProperties NfsProperties

namespace Location

abbrev changeTime : Field ObjectProperties := .time "smb change time" (·.file.changeTime)

def bagFields (location : Location) : List (Field ObjectProperties) :=
  match location with
  | .blob =>
      [.value "blob type" BlobType.tag (·.blob.blobType), .table "blob tags" (·.blob.tags),
        .value "block blob access tier" AccessTier.tag (·.blob.blockBlobTier),
        .text "page blob access tier" (·.blob.pageBlobTier)]
  | .blobFs =>
      [.text "permissions" (·.blobFs.permissions), .text "owner" (·.blobFs.owner),
        .text "group" (·.blobFs.group), .text "acl" (·.blobFs.acl)]
  | .file =>
      [.text "smb attributes" (·.file.attributes), changeTime,
        .time "smb creation time" (·.file.creationTime),
        .time "smb last write time" (·.file.lastWriteTime),
        .text "smb permissions" (·.file.permissions)]
  | .fileNfs | .disk => nfsFields

/-- All that a definition of an object can declare at a location. -/
def declarableFields (location : Location) : List (Field ObjectProperties) :=
  headerFields ++ .table "metadata" (·.metadata) :: location.bagFields

def kept (location : Location) (properties : ObjectProperties) : ObjectProperties :=
  let common : ObjectProperties :=
    { headers := properties.headers, metadata := properties.metadata }
  match location with
  | .blob => { common with blob := properties.blob }
  | .blobFs => { common with blobFs := properties.blobFs }
  | .file =>
      let cut : Instant → Instant := fun instant => .ofParts (instant.nanoseconds / 1000000000) 0
      { common with
        file :=
          { properties.file with
            changeTime := properties.file.changeTime.map cut
            creationTime := properties.file.creationTime.map cut
            lastWriteTime := properties.file.lastWriteTime.map cut } }
  | .fileNfs | .disk => { common with nfs := properties.nfs }

theorem cut_of_seconds {first second : Option Instant}
    (same : (first.map fun instant => instant.nanoseconds / 1000000000) =
      second.map fun instant => instant.nanoseconds / 1000000000) :
    (first.map fun instant => Instant.ofParts (instant.nanoseconds / 1000000000) 0) =
      second.map fun instant => Instant.ofParts (instant.nanoseconds / 1000000000) 0 := by
  have again := congrArg (Option.map fun seconds => Instant.ofParts seconds 0) same
  rwa [Option.map_map, Option.map_map] at again

/-- No property is missing from the table: objects that read alike in all of its fields
are alike in all that their location keeps. -/
theorem kept_eq_of_fields (location : Location) {first second : ObjectProperties}
    (same : ∀ field ∈ location.declarableFields, field.read first = field.read second) :
    location.kept first = location.kept second := by
  unfold declarableFields headerFields at same
  simp only [List.cons_append, List.nil_append, List.forall_mem_cons] at same
  obtain ⟨control, disposition, encoding, language, type, metadata, bag⟩ := same
  have headers := ContentHeaders.ext control disposition encoding language type
  unfold kept
  rw [headers, metadata]
  cases location <;> simp only [bagFields, nfsFields, List.forall_mem_cons] at bag
  case blob =>
    obtain ⟨blobType, tags, blockTier, pageTier, _⟩ := bag
    rw [BlobProperties.ext blobType tags blockTier pageTier]
  case blobFs =>
    obtain ⟨permissions, owner, group, acl, _⟩ := bag
    rw [BlobFsProperties.ext permissions owner group acl]
  case file =>
    obtain ⟨attributes, change, creation, lastWrite, permissions, _⟩ := bag
    dsimp only
    rw [cut_of_seconds change, cut_of_seconds creation, cut_of_seconds lastWrite, attributes,
      permissions]
  case fileNfs =>
    obtain ⟨owner, group, fileMode, _⟩ := bag
    rw [NfsProperties.ext owner group fileMode]
  case disk =>
    obtain ⟨owner, group, fileMode, _⟩ := bag
    rw [NfsProperties.ext owner group fileMode]

/-- Of all that can be declared only the change time is left out of the comparison. -/
theorem bag_field_compared {location : Location} {field : Field ObjectProperties}
    (member : field ∈ location.bagFields) (other : field.name ≠ changeTime.name) :
    field ∈ location.locatedFields := by
  cases location
  case blob => exact member
  case blobFs => exact member
  case fileNfs => exact member
  case disk => exact List.mem_cons_of_mem _ member
  case file =>
    simp only [bagFields, List.mem_cons] at member
    rcases member with attributes | change | rest
    · exact List.mem_cons.mpr (Or.inl attributes)
    · exact absurd (congrArg Field.name change) other
    · refine List.mem_cons_of_mem _ ?_
      simpa only [List.mem_cons] using rest

theorem declarable_field_compared {location : Location} {field : Field ObjectProperties}
    (member : field ∈ location.declarableFields) (other : field.name ≠ changeTime.name)
    (path : String) : field ∈ location.objectFields path := by
  refine List.mem_append_right _ ?_
  rcases List.mem_append.mp member with inHeaders | behind
  · exact List.mem_append_left _ inHeaders
  · refine List.mem_append_right _ ?_
    rcases List.mem_cons.mp behind with metadata | inBag
    · exact List.mem_cons.mpr (Or.inl metadata)
    · exact List.mem_cons_of_mem _ (bag_field_compared inBag other)

end Location

def ObjectDefinition.withChangeTime (definition : ObjectDefinition) (change : Option Instant) :
    ObjectDefinition :=
  { definition with
    properties :=
      { definition.properties with
        file := { definition.properties.file with changeTime := change } } }

namespace Validation

open Work

def ComesBelow (storage : Storage) (container : ContainerHandle)
    (definition : ContainerDefinition) (handle : ObjectHandle) (wanted : ObjectDefinition) :
    Prop :=
  definition.isWanted ∧ container.isPresent storage = .ok true storage ∧
    ∃ entry ∈ definition.objects.flatten.entries,
      handle = container.object entry.1 entry.2.properties.kind ∧ wanted = entry.2

/-- The objects that a walk comes to, and what is wanted of each: all but those of containers
that are not there or should not be. -/
def ComesTo (storage : Storage) (target : Resource) (definition : Definition)
    (handle : ObjectHandle) (wanted : ObjectDefinition) : Prop :=
  match target, definition with
  | .service service, .service inner =>
      ∃ entry ∈ inner.containers.entries,
        ComesBelow storage (service.container entry.1) entry.2 handle wanted
  | .container container, .container inner => ComesBelow storage container inner handle wanted
  | .object object, .object inner => handle = object ∧ wanted = inner
  | _, _ => False

/-- If the object is there and should be, then its properties can be read and all in which
they diverge is recorded. -/
def Told (before after : Session) (handle : ObjectHandle) (wanted : ObjectDefinition) : Prop :=
  wanted.isWanted → handle.isPresent before.storage = .ok true before.storage →
    ∃ actual found,
      handle.properties before.storage = .ok actual before.storage ∧
      after.context.failures = before.context.failures ++ found ∧
      ∀ failure ∈ Field.failures (handle.location.objectFields handle.path)
          handle.canonicalName wanted.properties actual,
        failure ∈ found

section Telling

variable {start before between after final : Session} {handle : ObjectHandle}
  {compareContents : Bool}

theorem only_recorded_trans (begins : OnlyRecorded start between)
    (goesOn : OnlyRecorded between after) : OnlyRecorded start after := by
  obtain ⟨found, sameFirst⟩ := begins.context
  obtain ⟨more, sameSecond⟩ := goesOn.context
  refine ⟨goesOn.storage.trans begins.storage, found ++ more, ?_⟩
  rw [sameSecond, sameFirst, Context.with_failures_twice]

theorem only_recorded_of_ok {α : Type} {step : Work α} {value : α} (reads : Reads before step)
    (ran : step before = .ok value after) : OnlyRecorded before after := by
  have kept := reads.keeps before (only_recorded_refl before)
  rwa [left_of_ok ran] at kept

theorem access_ok_of_looks {α : Type} {operation : Operation} {resource : String}
    {call : Access α} {value : α} (looks : Looks call)
    (ran : access operation resource call before = .ok value after) :
    call before.storage = .ok value before.storage ∧ after = before := by
  have kept := looks before.storage
  unfold access at ran
  cases called : call before.storage with
  | error cause storage =>
      rw [called] at ran
      cases ran
  | ok found storage =>
      rw [left_of_ok called] at kept
      rw [called, kept] at ran
      cases ran
      exact ⟨by rw [kept], rfl⟩

/-- What is told of an object in the middle of a walk is told at its end. -/
theorem told_between {wanted : ObjectDefinition} (earlier : OnlyRecorded start before)
    (told : Told before after handle wanted) (later : OnlyRecorded after final) :
    Told start final handle wanted := by
  intro isWanted present
  rw [← earlier.storage] at present ⊢
  obtain ⟨actual, found, read, recorded, complete⟩ := told isWanted present
  obtain ⟨first, sameFirst⟩ := earlier.context
  obtain ⟨last, sameLast⟩ := later.context
  refine ⟨actual, first ++ found ++ last, read, ?_, ?_⟩
  · rw [sameLast]
    change after.context.failures ++ last = _
    rw [recorded, sameFirst]
    simp [Context.withFailures]
  · intro failure member
    simp [complete failure member]

theorem comparison_reads (handle : ObjectHandle) (definition : ObjectDefinition) :
    Reads start
      (match compareContents, comparedBody? definition with
        | true, some body => do
            contents handle body
            return .descend
        | _, _ => return .descend : Work Traversal) := by
  split
  · exact bind_reads (contents_reads handle _) fun _ => pure_reads _
  · exact pure_reads _

theorem object_tells {definition : ObjectDefinition} {traversal : Traversal}
    (ran : object compareContents (.object handle) (.object definition) before =
      .ok traversal after) : Told before after handle definition := by
  intro isWanted present
  obtain ⟨_, ran⟩ := ok_after_yields ran (pure_yields definition before)
  obtain ⟨_, ran⟩ := ok_after_yields ran (pure_yields handle _)
  dsimp only at ran
  obtain ⟨_, ran⟩ := ok_after_yields ran (access_yields present)
  rw [isWanted] at ran
  obtain ⟨_, ran⟩ := ok_after_yields ran (existence_passes _ _)
  obtain ⟨actual, _, ranRead, ran⟩ := bind_ok_iff.mp ran
  obtain ⟨read, same⟩ := access_ok_of_looks handle.properties_looks ranRead
  rw [same] at ran
  obtain ⟨_, ran⟩ := ok_after_yields ran (record_all_yields _ _ _)
  obtain ⟨log, ran⟩ := ok_after_yields ran (record_all_yields _ _ _)
  have rest : OnlyRecorded _ after := only_recorded_of_ok (comparison_reads handle definition) ran
  obtain ⟨more, recorded⟩ := rest.context
  dsimp only at recorded
  rw [Mismatch.of_kind_failures, Mismatch.of_object_failures, Context.with_failures_twice,
    Context.with_failures_twice, ← List.append_assoc, ← Field.failures_append] at recorded
  refine ⟨actual, _, read, congrArg Context.failures recorded, ?_⟩
  intro failure member
  exact List.mem_append_left more member

theorem visit_object_tells {definition : ObjectDefinition}
    (ran : (callbacks compareContents).visitObject (.object handle) definition before =
      .ok () after) : Told before after handle definition := by
  rcases (visit_ok_iff rfl).mp ran with ⟨between, ranObject, same⟩ | ranObject
  · cases same
    exact object_tells ranObject
  · exact object_tells ranObject

theorem loop_tells {α : Type} {step : α → Work Unit} {wanted : ObjectDefinition}
    (entries : List α) (reads : ∀ entry ∈ entries, ∀ session, Reads session (step entry))
    (ran : entries.forM step before = .ok () after) {entry : α} (member : entry ∈ entries)
    (tells : ∀ first last, first.storage = before.storage → step entry first = .ok () last →
      Told first last handle wanted) : Told before after handle wanted := by
  have rounds := forM_ok_rounds only_recorded_refl (fun _ _ _ => only_recorded_trans) entries
    (fun other inside first _ ranOther => only_recorded_of_ok (reads other inside first) ranOther)
    ran
  obtain ⟨first, last, reached, ranEntry, leaves⟩ := rounds.2 entry member
  exact told_between reached (tells first last reached.storage ranEntry) leaves

theorem container_descends {container : ContainerHandle} {definition : ContainerDefinition}
    {traversal : Traversal} (wanted : definition.isWanted)
    (present : container.isPresent before.storage = .ok true before.storage)
    (ran : Validation.container (.container container) (.container definition) before =
      .ok traversal after) : traversal = .descend := by
  obtain ⟨_, ran⟩ := ok_after_yields ran (pure_yields definition before)
  obtain ⟨_, ran⟩ := ok_after_yields ran (pure_yields container _)
  dsimp only at ran
  obtain ⟨_, ran⟩ := ok_after_yields ran (access_yields present)
  rw [wanted] at ran
  obtain ⟨_, ran⟩ := ok_after_yields ran (existence_passes _ _)
  obtain ⟨_, _, _, ran⟩ := bind_ok_iff.mp ran
  obtain ⟨_, ran⟩ := ok_after_yields ran (record_all_yields _ _ _)
  cases ran
  rfl

theorem visit_container_tells {container : ContainerHandle} {definition : ContainerDefinition}
    {wanted : ObjectDefinition}
    (ran : (callbacks compareContents).visitContainer (.container container) definition before =
      .ok () after)
    (comes : ComesBelow before.storage container definition handle wanted) :
    Told before after handle wanted := by
  obtain ⟨containerWanted, present, entry, member, sameHandle, sameWanted⟩ := comes
  rcases (visit_ok_iff rfl).mp ran with ⟨between, ranContainer, ranLoop⟩ | ranContainer
  · have begins := only_recorded_of_ok (container_reads container definition) ranContainer
    have told : Told between after handle wanted := by
      refine loop_tells definition.objects.flatten.entries ?_ ranLoop member ?_
      · intro other _ session
        have reads : Reads session
            ((Definition.object (other.2.boundTo other.1)).traverse (callbacks compareContents)
              (.object (container.object other.1 other.2.properties.kind))) :=
          traverse_reads compareContents rfl
        exact reads
      · intro first last _ ranEntry
        have ranVisit : (callbacks compareContents).visitObject
            (.object (container.object entry.1 entry.2.properties.kind))
            (entry.2.boundTo entry.1) first = .ok () last := ranEntry
        rw [sameHandle, sameWanted]
        exact visit_object_tells ranVisit
    exact told_between begins told (only_recorded_refl after)
  · cases container_descends containerWanted present ranContainer

theorem visit_service_tells {service : ServiceHandle} {definition : ServiceDefinition}
    {wanted : ObjectDefinition}
    (ran : (callbacks compareContents).visitService (.service service) definition before =
      .ok () after)
    (comes : ∃ entry ∈ definition.containers.entries,
      ComesBelow before.storage (service.container entry.1) entry.2 handle wanted) :
    Told before after handle wanted := by
  obtain ⟨entry, member, below⟩ := comes
  refine loop_tells definition.containers.entries ?_ ran member ?_
  · intro other _ session
    have reads : Reads session
        ((Definition.container (other.2.boundTo other.1)).traverse (callbacks compareContents)
          (.container (service.container other.1))) :=
      traverse_reads compareContents rfl
    exact reads
  · intro first last same ranEntry
    rw [← same] at below
    have ranVisit : (callbacks compareContents).visitContainer
        (.container (service.container entry.1)) (entry.2.boundTo entry.1) first =
          .ok () last := ranEntry
    exact visit_container_tells ranVisit below

theorem traverse_tells {target : Resource} {definition : Definition} {wanted : ObjectDefinition}
    (ran : definition.traverse (callbacks compareContents) target before = .ok () after)
    (comes : ComesTo before.storage target definition handle wanted) :
    Told before after handle wanted := by
  cases definition <;> cases target
  case service.service inner service => exact visit_service_tells ran comes
  case container.container inner container => exact visit_container_tells ran comes
  case object.object inner object =>
    obtain ⟨rfl, rfl⟩ := comes
    exact visit_object_tells ran
  all_goals cases comes

theorem validate_tells {target : Resource} {definition : Definition}
    {wanted : ObjectDefinition} (wet : before.context.settings.dryRun = false)
    (ran : validate target definition compareContents before = .ok () after)
    (comes : ComesTo before.storage target definition handle wanted) :
    Told before after handle wanted := by
  obtain ⟨_, _, ranCheck, ran⟩ := bind_ok_iff.mp ran
  obtain ⟨_, same⟩ := check_level_ok ranCheck
  rw [same] at ran
  obtain ⟨_, ran⟩ := ok_after_yields ran (pure_yields before.context before)
  rw [wet, if_neg (by simp)] at ran
  obtain ⟨_, between, ranTraverse, ran⟩ := bind_ok_iff.mp ran
  have told : Told _ between handle wanted := traverse_tells ranTraverse comes
  have ends : OnlyRecorded between after :=
    only_recorded_of_ok (bind_reads context_reads fun _ => note_reads _ _) ran
  exact told_between (only_recorded_refl _) told ends

end Telling

/-- A validation that succeeds and records nothing about an object that is there and should
be has found all that its definition declares in it: headers, metadata and every field of
the properties that the location keeps, times to the second. Only the change time of a
file share is not among them: whatever change time a definition declares, the validation
of the object is the same. -/
theorem silent_validation_agrees {target : Resource} {definition : Definition}
    {compareContents : Bool} {session after : Session} {found : List SoftFailure}
    {handle : ObjectHandle} {wanted : ObjectDefinition}
    (wet : session.context.settings.dryRun = false)
    (ran : validate target definition compareContents session = .ok () after)
    (recorded : after.context.failures = session.context.failures ++ found)
    (comes : ComesTo session.storage target definition handle wanted)
    (isWanted : wanted.isWanted)
    (present : handle.isPresent session.storage = .ok true session.storage)
    (silent : ∀ failure ∈ found, failure.resource ≠ handle.canonicalName) :
    (∃ actual,
      handle.properties session.storage = .ok actual session.storage ∧
        ∀ field ∈ handle.location.declarableFields, field.name ≠ Location.changeTime.name →
          field.Agrees wanted.properties actual) ∧
      ∀ change,
        validate (.object handle) (.object (wanted.withChangeTime change)) compareContents
            session =
          validate (.object handle) (.object wanted) compareContents session := by
  obtain ⟨actual, more, read, alsoRecorded, complete⟩ :=
    validate_tells wet ran comes isWanted present
  have sameFound : found = more := List.append_cancel_left (recorded.symm.trans alsoRecorded)
  have none : Field.failures (handle.location.objectFields handle.path) handle.canonicalName
      wanted.properties actual = [] := by
    apply List.eq_nil_iff_forall_not_mem.mpr
    intro failure member
    have named := Field.failures_resource member
    exact silent failure (sameFound ▸ complete failure member) named
  have agree := (Field.failures_eq_nil_iff _ _ _ _).mp none
  -- No step of a validation reads the change time, so both sides are one computation.
  refine ⟨⟨actual, read, ?_⟩, fun change => rfl⟩
  intro field member other
  exact agree field (Location.declarable_field_compared member other handle.path)

/-- Nothing is recorded about `x`, whose creation time differs by less than a second and
whose change time differs by more. That `y` is missing is recorded. -/
theorem silent_validation_agrees_share_file :
    let account : Account := ⟨0, "account", .standard⟩
    let container : ContainerHandle := ⟨.memory account .file, "c"⟩
    let handle : ObjectHandle := container.object "x" .file
    let held : ObjectProperties :=
      { file := { attributes := "a", changeTime := some (.ofParts 5 0)
                  creationTime := some (.ofParts (-7) 900) } }
    let wanted : ObjectDefinition :=
      { properties :=
          { metadata := some ∅
            file := { attributes := "a", changeTime := some (.ofParts 99 0)
                      creationTime := some (.ofParts (-7) 100) } } }
    let objects : Table ObjectDefinition := Table.ofList [("x", wanted), ("y", {})]
    let definition : ContainerDefinition := { objects := .flat objects }
    let session : Session :=
      ⟨⟨"scenario", {}, .counting "n", [.existence "account/file/b" true], []⟩,
        (Storage.fresh (.ofDirectories ⟨0⟩ [])).setStore account .file
          (Table.singleton "c" ⟨{}, .folder, Table.singleton "x" ⟨held, []⟩⟩), []⟩
    ∃ after,
      validate (.container container) (.container definition) false session = .ok () after ∧
      after.context.failures =
        [.existence "account/file/b" true, .existence "account/file/c/y" true] ∧
      handle.properties session.storage = .ok held session.storage ∧
      (∀ field ∈ Location.file.declarableFields, field.name ≠ Location.changeTime.name →
        field.Agrees wanted.properties held) ∧
      ¬ Location.changeTime.Agrees wanted.properties held := by
  intro account container handle held wanted objects definition session
  have found : divergences (session.storage.store account .file) false (.container container)
      (.container definition) = [.existence "account/file/c/y" true] := by
    decide +kernel
  have yields : (validate (.container container) (.container definition) false).Yields session ()
      (session.context.withFailures (divergences (session.storage.store account .file) false
        (.container container) (.container definition))) session.storage :=
    validate_yields rfl rfl rfl (by simp)
  rw [found] at yields
  obtain ⟨log, ran⟩ := yields
  have declared : objects.get? "x" = some wanted := by
    simp [objects, Table.get?_of_list, List.lookup_cons]
  have member : ("x", wanted) ∈ objects.entries := (Table.get?_eq_some_iff _ _ _).mp declared
  have comes : ComesTo session.storage (.container container) (.container definition) handle
      wanted :=
    ⟨rfl, rfl, ("x", wanted), member, rfl, rfl⟩
  have read : handle.properties session.storage = .ok held session.storage := by rfl
  have named : handle.canonicalName = "account/file/c/x" := by decide +kernel
  obtain ⟨⟨actual, readActual, agree⟩, _⟩ :=
    silent_validation_agrees rfl ran rfl comes rfl rfl
    (by simp [named, SoftFailure.resource])
  have same : actual = held := (EStateM.Result.ok.inj (readActual.symm.trans read)).1
  subst same
  refine ⟨_, ran, rfl, read, agree, ?_⟩
  intro agrees
  cases agrees 99 rfl

end Validation

end StorageScenario
