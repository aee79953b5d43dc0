import StorageScenario.Registry
import StorageScenario.Testing.TestFault

/-!
A scenario on the bench: its accounts, its session, and the resources that have
been given a name. A step works on the bench, may fail in several ways, and keeps
what it did before it failed. Files and links are put in place by hand, past all
back-ends, at paths relative to the directory of the test.
-/

namespace StorageScenario

structure Workbench where
  registry : Registry
  session : Session
  named : List (String × Resource)

abbrev Step (α : Type) := EStateM StepError Workbench α

namespace Step

def ofWork {α : Type} (work : Work α) : Step α := fun bench =>
  match work bench.session with
  | .ok value session => .ok value { bench with session := session }
  | .error error session => .error (.scenario error) { bench with session := session }

def ofAccess {α : Type} (call : Access α) : Step α := fun bench =>
  let before := bench.session
  match call before.storage with
  | .ok value storage => .ok value { bench with session := { before with storage := storage } }
  | .error error storage =>
      .error (.backend error) { bench with session := { before with storage := storage } }

/-- Calls on the file tree past all back-ends. -/
def onDisk {α : Type} (explain : IoError → StepError) (calls : Disk α) : Step α := fun bench =>
  let before := bench.session
  let after (disk : FileTree) : Workbench :=
    { bench with session := { before with storage := { before.storage with disk := disk } } }
  match calls before.storage.disk with
  | .ok value disk => .ok value (after disk)
  | .error cause disk => .error (explain cause) (after disk)

def check {α : Type} (result : Except ScenarioError α) : Step α :=
  match result with
  | .ok value => pure value
  | .error error => throw (.scenario error)

def resource (name : String) : Step Resource := do
  match (← get).named.lookup name with
  | some resource => return resource
  | none => throw (.unnamed name)

/-- A later resource of the same name replaces an earlier one. -/
def name (name : String) (resource : Resource) : Step Unit :=
  modify fun bench => { bench with
    named := (name, resource) :: bench.named.filter fun entry => entry.1 ≠ name }

def register (name : String) (kind : AccountKind) : Step Unit :=
  modify fun bench =>
    let added := bench.session.storage.addAccount name kind
    { bench with
      registry := bench.registry.register added.1
      session := { bench.session with storage := added.2 } }

def setContext (context : Context) : Step Unit :=
  modify fun bench => { bench with session := { bench.session with context := context } }

def setStorage (storage : Storage) : Step Unit :=
  modify fun bench => { bench with session := { bench.session with storage := storage } }

def context : Step Context := do return (← get).session.context

end Step

namespace Workbench

def setUp (context : Context) (storage : Storage) (accounts : List (String × AccountKind)) :
    Workbench :=
  let bench : Workbench := ⟨⟨[]⟩, { context := context, storage := storage }, []⟩
  match accounts.forM (fun account => Step.register account.1 account.2) bench with
  | .ok _ after => after
  | .error _ after => after

def withoutLog (bench : Workbench) : Workbench :=
  { bench with session := { bench.session with log := [] } }

def log (bench : Workbench) : List LogLine := bench.session.log

end Workbench

inductive Preparation where
  | directory (path : String)
  | file (path text : String)
  | link (path target : String)
  | removal (path : String)

namespace Preparation

def calls (base : String) : Preparation → Disk Unit
  | .directory path => Disk.makeDirectories (DiskPath.join base path)
  | .file path text => Disk.writeFile (DiskPath.join base path) text.toUTF8.toList
  | .link path target => Disk.makeLink (DiskPath.join base path) target
  | .removal path => do
      let path := DiskPath.join base path
      if (← Disk.linkMetadata path).isDirectory then Disk.removeAll path else Disk.unlink path

/-- Stops at the first that cannot be done. -/
def runAll (base : String) (preparations : List Preparation) : Disk Unit :=
  preparations.forM (calls base)

end Preparation

end StorageScenario
