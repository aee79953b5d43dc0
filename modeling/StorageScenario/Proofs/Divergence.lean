import StorageScenario.Validation

/-!
Divergence of a service's store from a definition. What is compared is a table of
fields for every location, and the differences are read off the store in the
order in which the definition is walked; no back-end call is involved.
-/

namespace StorageScenario

/-- A property that a definition may declare. A real one that is not set counts as
`unset`, if anything. -/
structure Field (α : Type) where
  {Value : Type}
  [decidable : DecidableEq Value]
  name : String
  read : α → Option Value
  unset : Option Value
  render : Value → String

attribute [instance] Field.decidable

namespace Field

variable {α β : Type}

abbrev value [DecidableEq β] (name : String) (render : β → String) (read : α → Option β) :
    Field α :=
  ⟨name, read, none, render⟩

abbrev text (name : String) (read : α → Option String) : Field α :=
  value name Text.quote read

/-- A real table that is not set counts as an empty one. -/
abbrev table (name : String) (read : α → Option (Table String)) : Field α :=
  ⟨name, read, some ∅, fun value => Text.quoteMap value.entries⟩

/-- The second in which a time lies, also before the epoch. -/
abbrev time (name : String) (read : α → Option Instant) : Field α :=
  value name (toString : Int → String) fun properties =>
    (read properties).map fun instant => instant.nanoseconds / 1000000000

def real (field : Field α) (actual : α) : Option field.Value :=
  (field.read actual).or field.unset

def Diverges (field : Field α) (expected actual : α) : Prop :=
  ∃ wanted, field.read expected = some wanted ∧ field.real actual ≠ some wanted

def failure? (field : Field α) (resource : String) (expected actual : α) : Option SoftFailure :=
  match field.read expected with
  | none => none
  | some wanted =>
      if field.real actual = some wanted then none
      else
        some (.property resource field.name (field.render wanted)
          (((field.real actual).map field.render).getD "<unset>"))

theorem failure_of_undeclared (field : Field α) (resource : String) {expected : α} (actual : α)
    (undeclared : field.read expected = none) : field.failure? resource expected actual = none := by
  unfold failure?
  rw [undeclared]

theorem failure_of_declared (field : Field α) (resource : String) {expected : α} (actual : α)
    {wanted : field.Value} (declared : field.read expected = some wanted) :
    field.failure? resource expected actual =
      if field.real actual = some wanted then none
      else
        some (.property resource field.name (field.render wanted)
          (((field.real actual).map field.render).getD "<unset>")) := by
  unfold failure?
  rw [declared]

theorem failure_iff_diverges (field : Field α) (resource : String) (expected actual : α) :
    (field.failure? resource expected actual).isSome ↔ field.Diverges expected actual := by
  unfold failure? Diverges
  cases field.read expected with
  | none => simp
  | some wanted =>
      dsimp only
      split
      next same => simp [same]
      next differs => simpa using differs

def failures (fields : List (Field α)) (resource : String) (expected actual : α) :
    List SoftFailure :=
  fields.filterMap fun field => field.failure? resource expected actual

theorem failures_nil (resource : String) (expected actual : α) :
    failures [] resource expected actual = [] :=
  rfl

theorem failures_append (first second : List (Field α)) (resource : String)
    (expected actual : α) :
    failures (first ++ second) resource expected actual =
      failures first resource expected actual ++ failures second resource expected actual :=
  List.filterMap_append

theorem failures_cons (field : Field α) (rest : List (Field α)) (resource : String)
    (expected actual : α) :
    failures (field :: rest) resource expected actual =
      (field.failure? resource expected actual).toList ++
        failures rest resource expected actual := by
  unfold failures
  rw [List.filterMap_cons]
  cases field.failure? resource expected actual <;> rfl

end Field

namespace Location

def shareFields : List (Field ContainerProperties) :=
  [.value "share access tier" ShareTier.tag (·.file.accessTier),
    .text "enabled protocols" (·.file.enabledProtocols),
    .value "quota" (toString : Int → String) (·.file.quota),
    .value "root squash" RootSquash.tag (·.file.rootSquash)]

def containerFields (location : Location) : List (Field ContainerProperties) :=
  .table "metadata" (·.metadata) ::
    match location with
    | .blob | .blobFs => [.value "public access" PublicAccess.tag (·.blob.access)]
    | .file | .fileNfs => shareFields
    | .disk => []

def nfsFields : List (Field ObjectProperties) :=
  [.text "nfs owner" (·.nfs.owner), .text "nfs group" (·.nfs.group),
    .value "file mode" (toString : UInt32 → String) (·.nfs.fileMode)]

def locatedFields (location : Location) : List (Field ObjectProperties) :=
  match location with
  | .blob =>
      [.value "blob type" BlobType.tag (·.blob.blobType), .table "blob tags" (·.blob.tags),
        .value "block blob access tier" AccessTier.tag (·.blob.blockBlobTier),
        .text "page blob access tier" (·.blob.pageBlobTier)]
  | .blobFs =>
      [.text "permissions" (·.blobFs.permissions), .text "owner" (·.blobFs.owner),
        .text "group" (·.blobFs.group), .text "acl" (·.blobFs.acl)]
  | .file =>
      [.text "smb attributes" (·.file.attributes),
        .time "smb creation time" (·.file.creationTime),
        .time "smb last write time" (·.file.lastWriteTime),
        .text "smb permissions" (·.file.permissions)]
  | .fileNfs => nfsFields
  | .disk => .time "last write time" (·.file.lastWriteTime) :: nfsFields

def headerFields : List (Field ObjectProperties) :=
  [.text "cache control" (·.headers.cacheControl),
    .text "content disposition" (·.headers.contentDisposition),
    .text "content encoding" (·.headers.contentEncoding),
    .text "content language" (·.headers.contentLanguage),
    .text "content type" (·.headers.contentType)]

/-- The kind of an object is compared where folders are entities, except for the root
folder, whose kind is known. -/
def kindFields (location : Location) (path : String) : List (Field ObjectProperties) :=
  if location.isHierarchical ∧ path ≠ "" then
    [.value "entity type" EntityKind.name fun properties => some properties.kind]
  else []

def objectFields (location : Location) (path : String) : List (Field ObjectProperties) :=
  location.kindFields path ++
    (headerFields ++ .table "metadata" (·.metadata) :: location.locatedFields)

/-- No two failures about one resource name the same property. -/
theorem object_field_names_distinct (location : Location) (path : String) :
    ((location.objectFields path).map (·.name)).Nodup := by
  unfold objectFields kindFields
  cases location <;> split <;> decide +kernel

theorem container_field_names_distinct (location : Location) :
    (location.containerFields.map (·.name)).Nodup := by
  cases location <;> decide +kernel

end Location

namespace Mismatch

variable {α β : Type} (resource : String)

theorem of_value_failure [DecidableEq β] (render : β → String) (name : String)
    (read : α → Option β) (expected actual : α) :
    (ofValue render name (read expected) (read actual)).map (·.toFailure resource) =
      ((Field.value name render read).failure? resource expected actual).toList := by
  simp only [ofValue, Field.failure?, Field.value, Field.real, Option.or_none]
  cases read expected with
  | none => rfl
  | some wanted =>
      cases read actual with
      | none => rfl
      | some held => by_cases same : held = wanted <;> simp [same, toFailure]

theorem of_time_floor (name : String) (expected actual : Option Instant) :
    ofTime name expected actual =
      ofValue toString name (expected.map fun instant => instant.nanoseconds / 1000000000)
        (actual.map fun instant => instant.nanoseconds / 1000000000) := by
  have floor : Instant.wholeSeconds = fun instant => instant.nanoseconds / 1000000000 :=
    funext Instant.whole_seconds_eq_div
  unfold ofTime
  rw [floor]

theorem of_table_failure (name : String) (read : α → Option (Table String))
    (expected actual : α) :
    (ofTable name (read expected) (read actual)).map (·.toFailure resource) =
      ((Field.table name read).failure? resource expected actual).toList := by
  have real : (Field.table name read).real actual = some ((read actual).getD ∅) := by
    change (read actual).or (some ∅) = _
    cases read actual <;> rfl
  unfold ofTable
  cases declared : read expected with
  | none =>
      rw [Field.failure_of_undeclared (Field.table name read) resource actual declared]
      rfl
  | some wanted =>
      rw [Field.failure_of_declared (Field.table name read) resource actual declared, real]
      by_cases same : wanted = (read actual).getD ∅ <;> simp [same, eq_comm, toFailure]

theorem of_kind_failures (object : ObjectHandle) (expected actual : ObjectProperties) :
    (ofKind object expected.kind actual.kind).map (·.toFailure resource) =
      Field.failures (object.location.kindFields object.path) resource expected actual := by
  unfold ofKind Location.kindFields
  by_cases compared : object.location.isHierarchical ∧ object.path ≠ ""
  · rw [if_pos compared, Field.failures_cons, Field.failures_nil, List.append_nil,
      ← of_value_failure]
    by_cases same : actual.kind = expected.kind
    · simp [ofValue, same]
    · simp [ofValue, same, compared, Ne.symm same]
  · rw [if_neg compared, if_neg fun all => compared ⟨all.1, all.2.1⟩]
    rfl

theorem of_object_failures (location : Location) (expected actual : ObjectProperties) :
    (ofObject location expected actual).map (·.toFailure resource) =
      Field.failures (Location.headerFields ++ .table "metadata" (·.metadata) ::
        location.locatedFields) resource expected actual := by
  unfold ofObject ofHeaders ofLocated ofBlob ofBlobFs ofSmb ofNfs Location.headerFields
    Location.locatedFields Location.nfsFields
  cases location <;>
    simp only [List.map_append, Field.failures_append, Field.failures_cons, Field.failures_nil,
      ← of_table_failure, ← of_value_failure, of_time_floor, List.append_assoc,
      List.append_nil] <;>
    rfl

theorem of_container_failures (location : Location) (expected actual : ContainerProperties) :
    (ofContainer location expected actual).map (·.toFailure resource) =
      Field.failures location.containerFields resource expected actual := by
  unfold ofContainer ofShare Location.containerFields Location.shareFields
  cases location <;>
    simp only [List.map_append, Field.failures_cons, Field.failures_nil,
      ← of_table_failure, ← of_value_failure, List.append_assoc, List.append_nil] <;>
    rfl

end Mismatch

theorem StoredContainer.has_object_iff (stored : StoredContainer) (hierarchical : Bool)
    (path : String) :
    stored.hasObject hierarchical path = (stored.objectProperties? hierarchical path).isSome := by
  unfold hasObject objectProperties? Table.contains
  by_cases atRoot : path = ""
  · simp [atRoot]
  · cases stored.objects.get? path with
    | some object => simp [atRoot]
    | none =>
        by_cases implicit : (hierarchical && stored.isImplicitFolder path) = true <;>
          simp [atRoot, implicit]

namespace Divergence

variable (store : ServiceStore) (compareContents : Bool)

def seenObject? (handle : ObjectHandle) : Option ObjectProperties :=
  (store.get? handle.container.name).bind
    (·.objectProperties? handle.location.isHierarchical handle.path)

def storedObject? (handle : ObjectHandle) : Option StoredObject :=
  (store.get? handle.container.name).bind (·.objects.get? handle.path)

/-- Only a file has contents to compare, and only if its definition has a body. -/
def ofContents (handle : ObjectHandle) (definition : ObjectDefinition) : List SoftFailure :=
  match definition.properties.kind, definition.body.map Body.digest, storedObject? store handle with
  | .file, some (.ok wanted), some object =>
      let real := Digest.ofBytes object.data
      if real = wanted then [] else [.contentHash handle.canonicalName wanted.hex real.hex]
  | _, _, _ => []

def ofObject (handle : ObjectHandle) (definition : ObjectDefinition) : List SoftFailure :=
  match definition.isWanted, seenObject? store handle with
  | true, some actual =>
      Field.failures (handle.location.objectFields handle.path) handle.canonicalName
        definition.properties actual ++
        if compareContents then ofContents store handle definition else []
  | true, none => [.existence handle.canonicalName true]
  | false, some _ => [.existence handle.canonicalName false]
  | false, none => []

theorem of_object_stops {store : ServiceStore} {compareContents : Bool} {handle : ObjectHandle}
    {definition : ObjectDefinition}
    (stops : (definition.isWanted && (seenObject? store handle).isSome) = false) :
    ofObject store compareContents handle definition =
      if definition.isWanted = (seenObject? store handle).isSome then []
      else [.existence handle.canonicalName definition.isWanted] := by
  unfold ofObject
  cases wanted : definition.isWanted <;> cases seen : seenObject? store handle <;>
    simp_all

/-- The objects of a container are looked at only if it is there and should be. -/
def ofContainer (handle : ContainerHandle) (definition : ContainerDefinition) :
    List SoftFailure :=
  match definition.isWanted, store.get? handle.name with
  | true, some stored =>
      Field.failures handle.location.containerFields handle.canonicalName definition.properties
        stored.properties ++
        definition.objects.flatten.entries.flatMap fun entry =>
          ofObject store compareContents (handle.object entry.1 entry.2.properties.kind) entry.2
  | true, none => [.existence handle.canonicalName true]
  | false, some _ => [.existence handle.canonicalName false]
  | false, none => []

theorem of_container_stops {store : ServiceStore} {compareContents : Bool}
    {handle : ContainerHandle} {definition : ContainerDefinition}
    (stops : (definition.isWanted && (store.get? handle.name).isSome) = false) :
    ofContainer store compareContents handle definition =
      if definition.isWanted = (store.get? handle.name).isSome then []
      else [.existence handle.canonicalName definition.isWanted] := by
  unfold ofContainer
  cases wanted : definition.isWanted <;> cases found : store.get? handle.name <;>
    simp_all

def ofService (handle : ServiceHandle) (definition : ServiceDefinition) : List SoftFailure :=
  definition.containers.entries.flatMap fun entry =>
    ofContainer store compareContents (handle.container entry.1) entry.2

end Divergence

def divergences (store : ServiceStore) (compareContents : Bool) (target : Resource)
    (definition : Definition) : List SoftFailure :=
  match target, definition with
  | .service handle, .service inner => Divergence.ofService store compareContents handle inner
  | .container handle, .container inner => Divergence.ofContainer store compareContents handle inner
  | .object handle, .object inner => Divergence.ofObject store compareContents handle inner
  | _, _ => []

end StorageScenario
