import StorageScenario.Creation

/-!
Services for tests: one of a fresh emulated account, and one on a directory that
goes away with the test.
-/

namespace StorageScenario.Fixtures

def accountKind? (location : Location) : Option AccountKind :=
  match location with
  | .disk => none
  | .fileNfs => some .premiumFileShares
  | .blob | .file | .blobFs => some .standard

def memoryService (location : Location) (storage : Storage) : Except String (Resource × Storage) :=
  match accountKind? location with
  | none => .error "the memory back-end does not emulate the local filesystem"
  | some kind =>
      let added := storage.addAccount ("memory-" ++ location.name) kind
      .ok (.service (.memory added.1 location), added.2)

/-- A service on a directory for the time of one test. -/
structure DiskFixture where
  root : String
  service : Resource

namespace DiskFixture

def openAt (root : String) : Access DiskFixture := do
  return ⟨root, .service (← DiskResources.openService root)⟩

def childPath (fixture : DiskFixture) (path : String) : String :=
  DiskPath.join fixture.root path

def settings (fixture : DiskFixture) : Settings := { localRoot := some fixture.root }

def context (fixture : DiskFixture) (scenario : String) : Context :=
  { scenario := scenario, settings := fixture.settings, names := .counting scenario }

def destroy (fixture : DiskFixture) : Disk Unit := Disk.removeAll fixture.root

def undestroyed (fixture : DiskFixture) (cause : IoError) : String :=
  let error := Text.record "PathError"
    [("path", Text.quote fixture.root), ("err", cause.describe)]
  "failed to remove temporary directory: " ++
    Text.record "Custom" [("kind", cause.kind), ("error", error)]

end DiskFixture

structure DiskTrial where
  fixture : DiskFixture
  context : Context
  created : Except ScenarioError Resource
  childPath : String
  childIsPresent : Bool
  nextName : String
  rootRemains : Bool

namespace DiskTrial

def isPresent (path : String) (disk : FileTree) : Bool :=
  match Disk.isPresent path disk with
  | .ok present _ => present
  | .error _ _ => false

/-- Creates what a definition describes in a fixture, looks for a path in it and destroys it. -/
def runIn (fixture : DiskFixture) (scenario subPath : String) (definition : Definition)
    (storage : Storage) : Except String DiskTrial :=
  let context := fixture.context scenario
  let (created, session) :=
    match create fixture.service definition { context := context, storage := storage } with
    | .ok resource session => (Except.ok resource, session)
    | .error error session => (Except.error error, session)
  let childPath := fixture.childPath subPath
  match fixture.destroy session.storage.disk with
  | .error cause _ => .error (fixture.undestroyed cause)
  | .ok _ disk =>
      .ok {
        fixture := fixture
        context := context
        created := created
        childPath := childPath
        childIsPresent := isPresent childPath session.storage.disk
        nextName := session.context.names.next.1
        rootRemains := isPresent fixture.root disk }

def run (root scenario subPath : String) (definition : Definition) (storage : Storage) :
    Except String DiskTrial :=
  match DiskFixture.openAt root storage with
  | .ok fixture after => runIn fixture scenario subPath definition after
  | .error error _ => .error error.message

end DiskTrial

end StorageScenario.Fixtures
