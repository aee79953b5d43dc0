import StorageScenario.Traversal

/-!
Comparing real resources with a definition. What the definition leaves unset is
not compared, every difference becomes a soft failure, and a resource whose
existence differs is recorded once and not looked into.
-/

namespace StorageScenario

/-- A declared property next to a real one that differs from it. -/
structure Mismatch where
  field : String
  expected : String
  actual : String
  deriving DecidableEq

namespace Mismatch

def toFailure (mismatch : Mismatch) (resource : String) : SoftFailure :=
  .property resource mismatch.field mismatch.expected mismatch.actual

def ofValue {α : Type} [DecidableEq α] (render : α → String) (field : String)
    (expected actual : Option α) : List Mismatch :=
  match expected with
  | none => []
  | some wanted =>
      if actual = some wanted then []
      else
        let real :=
          match actual with
          | none => "<unset>"
          | some value => render value
        [⟨field, render wanted, real⟩]

def ofText (field : String) (expected actual : Option String) : List Mismatch :=
  ofValue Text.quote field expected actual

/-- Times agree if they fall into the same whole second. -/
def ofTime (field : String) (expected actual : Option Instant) : List Mismatch :=
  ofValue toString field (expected.map Instant.wholeSeconds) (actual.map Instant.wholeSeconds)

/-- Tables are compared as a whole, and an unset real one counts as empty. -/
def ofTable (field : String) (expected actual : Option (Table String)) : List Mismatch :=
  match expected with
  | none => []
  | some wanted =>
      let real := actual.getD ∅
      if wanted = real then []
      else [⟨field, Text.quoteMap wanted.entries, Text.quoteMap real.entries⟩]

def ofHeaders (expected actual : ContentHeaders) : List Mismatch :=
  ofText "cache control" expected.cacheControl actual.cacheControl ++
    ofText "content disposition" expected.contentDisposition actual.contentDisposition ++
    ofText "content encoding" expected.contentEncoding actual.contentEncoding ++
    ofText "content language" expected.contentLanguage actual.contentLanguage ++
    ofText "content type" expected.contentType actual.contentType

def ofBlob (expected actual : BlobProperties) : List Mismatch :=
  ofValue BlobType.tag "blob type" expected.blobType actual.blobType ++
    ofTable "blob tags" expected.tags actual.tags ++
    ofValue AccessTier.tag "block blob access tier" expected.blockBlobTier actual.blockBlobTier ++
    ofText "page blob access tier" expected.pageBlobTier actual.pageBlobTier

def ofBlobFs (expected actual : BlobFsProperties) : List Mismatch :=
  ofText "permissions" expected.permissions actual.permissions ++
    ofText "owner" expected.owner actual.owner ++
    ofText "group" expected.group actual.group ++
    ofText "acl" expected.acl actual.acl

def ofSmb (expected actual : SmbProperties) : List Mismatch :=
  ofText "smb attributes" expected.attributes actual.attributes ++
    ofTime "smb creation time" expected.creationTime actual.creationTime ++
    ofTime "smb last write time" expected.lastWriteTime actual.lastWriteTime ++
    ofText "smb permissions" expected.permissions actual.permissions

def ofNfs (expected actual : NfsProperties) : List Mismatch :=
  ofText "nfs owner" expected.owner actual.owner ++
    ofText "nfs group" expected.group actual.group ++
    ofValue toString "file mode" expected.fileMode actual.fileMode

def ofLocated (location : Location) (expected actual : ObjectProperties) : List Mismatch :=
  match location with
  | .blob => ofBlob expected.blob actual.blob
  | .blobFs => ofBlobFs expected.blobFs actual.blobFs
  | .file => ofSmb expected.file actual.file
  | .fileNfs => ofNfs expected.nfs actual.nfs
  | .disk =>
      ofTime "last write time" expected.file.lastWriteTime actual.file.lastWriteTime ++
        ofNfs expected.nfs actual.nfs

def ofObject (location : Location) (expected actual : ObjectProperties) : List Mismatch :=
  ofHeaders expected.headers actual.headers ++
    ofTable "metadata" expected.metadata actual.metadata ++
    ofLocated location expected actual

def ofShare (expected actual : ShareProperties) : List Mismatch :=
  ofValue ShareTier.tag "share access tier" expected.accessTier actual.accessTier ++
    ofText "enabled protocols" expected.enabledProtocols actual.enabledProtocols ++
    ofValue toString "quota" expected.quota actual.quota ++
    ofValue RootSquash.tag "root squash" expected.rootSquash actual.rootSquash

def ofContainer (location : Location) (expected actual : ContainerProperties) : List Mismatch :=
  ofTable "metadata" expected.metadata actual.metadata ++
    match location with
    | .blob | .blobFs =>
        ofValue PublicAccess.tag "public access" expected.blob.access actual.blob.access
    | .file | .fileNfs => ofShare expected.file actual.file
    | .disk => []

/-- The kind of an object, which only means something where folders are entities
and never for the root folder. -/
def ofKind (object : ObjectHandle) (expected actual : EntityKind) : List Mismatch :=
  if object.location.isHierarchical ∧ object.path ≠ "" ∧ expected ≠ actual then
    [⟨"entity type", expected.name, actual.name⟩]
  else []

end Mismatch

namespace Validation

def recordAll (resource : String) (mismatches : List Mismatch) : Work Unit :=
  mismatches.forM fun mismatch => Work.record (mismatch.toFailure resource)

/-- Compares existence and tells whether there is more to compare. -/
def existence (resource : String) (expected actual : Bool) : Work Bool := do
  if expected ≠ actual then
    Work.record (.existence resource expected)
    return false
  else if !expected then
    Work.note .debug (resource ++ " is absent, as expected")
    return false
  else return true

def container (resource : Resource) (definition : Definition) : Work Traversal := do
  let wanted ← Work.check definition.asContainer
  let handle ← Work.check resource.asContainer
  let name := handle.canonicalName
  let present ← Work.access .checkContainerExistence name handle.isPresent
  if ← existence name wanted.isWanted present then
    let actual ← Work.access .getContainerProperties name handle.properties
    recordAll name (Mismatch.ofContainer handle.location wanted.properties actual)
    return .descend
  else return .skipChildren

/-- Compares digests. The real body is read before the expected one. -/
def contents (handle : ObjectHandle) (expected : Body) : Work Unit := do
  let name := handle.canonicalName
  match ← Work.access .downloadObject name handle.download with
  | .error cause => throw (.contentRead name cause)
  | .ok bytes =>
      match expected.digest with
      | .error cause => throw (.contentRead ("expected body of " ++ name) cause)
      | .ok wanted =>
          let real := Digest.ofBytes bytes
          if real ≠ wanted then Work.record (.contentHash name wanted.hex real.hex)

/-- The body whose contents are compared: that of a file that declares one. -/
def comparedBody? (definition : ObjectDefinition) : Option Body :=
  if definition.properties.kind = .file then definition.body else none

def object (compareContents : Bool) (resource : Resource) (definition : Definition) :
    Work Traversal := do
  let wanted ← Work.check definition.asObject
  let handle ← Work.check resource.asObject
  let name := handle.canonicalName
  let present ← Work.access .checkObjectExistence name handle.isPresent
  if ← existence name wanted.isWanted present then
    let actual ← Work.access .getObjectProperties name handle.properties
    recordAll name (Mismatch.ofKind handle wanted.properties.kind actual.kind)
    recordAll name (Mismatch.ofObject handle.location wanted.properties actual)
    match compareContents, comparedBody? wanted with
    | true, some body => contents handle body
    | _, _ => pure ()
    return .descend
  else return .skipChildren

def callbacks (compareContents : Bool) : Callbacks Session :=
  (Callbacks.none.on .container container).on .object (object compareContents)

end Validation

/-- Records every difference between `target` and its definition. A dry run only
checks that the two are at one level. -/
def validate (target : Resource) (definition : Definition) (compareContents : Bool) :
    Work Unit := do
  Work.check (definition.checkLevel target)
  let context ← Work.context
  if context.settings.dryRun then
    Work.note .debug ("dry run, skipping validation of " ++ target.canonicalName)
  else
    definition.traverse (Validation.callbacks compareContents) target
    let recorded := (← Work.context).failures.length - context.failures.length
    Work.note .info ("validated " ++ target.canonicalName ++ " with " ++ toString recorded ++
      " new failure(s)")

end StorageScenario
