import StorageScenario.FileTree.Calls
import StorageScenario.Resource
import StorageScenario.Store

/-!
All that outlives a scenario: the stores of the emulated accounts and the file
tree. A back-end call is an action on it that may fail.
-/

namespace StorageScenario

structure Storage where
  nextAccount : Nat
  stores : List ((Nat × Location) × ServiceStore)
  disk : FileTree

abbrev Access (α : Type) := EStateM BackendError Storage α

namespace Storage

def fresh (disk : FileTree) : Storage := ⟨0, [], disk⟩

def addAccount (storage : Storage) (name : String) (kind : AccountKind) : Account × Storage :=
  (⟨storage.nextAccount, name, kind⟩, { storage with nextAccount := storage.nextAccount + 1 })

/-- The store of one service. A store that was never written to is empty. -/
def store (storage : Storage) (account : Account) (location : Location) : ServiceStore :=
  (storage.stores.lookup (account.id, location)).getD ∅

def setStore (storage : Storage) (account : Account) (location : Location) (store : ServiceStore) :
    Storage :=
  { storage with
    stores := ((account.id, location), store) ::
      storage.stores.filter fun entry => entry.1 ≠ (account.id, location) }

/-- Everything but the store of one service is the same. -/
structure SameElsewhere (account : Account) (location : Location) (first second : Storage) :
    Prop where
  stores : ∀ key, key ≠ (account.id, location) →
    second.stores.lookup key = first.stores.lookup key
  disk : second.disk = first.disk
  nextAccount : second.nextAccount = first.nextAccount

theorem lookup_other_stores (dropped key : Nat × Location) (different : key ≠ dropped)
    (stores : List ((Nat × Location) × ServiceStore)) :
    (stores.filter fun entry => entry.1 ≠ dropped).lookup key = stores.lookup key := by
  induction stores with
  | nil => rfl
  | cons head rest ih =>
      cases head with
      | mk place store =>
          by_cases atDropped : place = dropped
          · have elsewhere : (key == place) = false := by simp [atDropped, different]
            rw [List.filter_cons_of_neg (by simp [atDropped]), ih, List.lookup_cons, elsewhere]
          · rw [List.filter_cons_of_pos (by simp [atDropped]), List.lookup_cons,
              List.lookup_cons, ih]

@[simp]
theorem store_set_store (storage : Storage) (account : Account) (location : Location)
    (store : ServiceStore) :
    (storage.setStore account location store).store account location = store := by
  simp [setStore, Storage.store]

theorem same_elsewhere_refl (account : Account) (location : Location) (storage : Storage) :
    storage.SameElsewhere account location storage :=
  ⟨fun _ _ => rfl, rfl, rfl⟩

theorem same_elsewhere_trans {account : Account} {location : Location}
    {first second third : Storage} (begins : first.SameElsewhere account location second)
    (goesOn : second.SameElsewhere account location third) :
    first.SameElsewhere account location third where
  stores key different := (goesOn.stores key different).trans (begins.stores key different)
  disk := goesOn.disk.trans begins.disk
  nextAccount := goesOn.nextAccount.trans begins.nextAccount

theorem same_elsewhere_set_store {account : Account} {location : Location}
    {first second : Storage} (same : first.SameElsewhere account location second)
    (store : ServiceStore) :
    first.SameElsewhere account location (second.setStore account location store) := by
  refine ⟨?_, same.disk, same.nextAccount⟩
  intro key different
  have elsewhere : (key == (account.id, location)) = false := by simpa using different
  simp only [setStore, List.lookup_cons, elsewhere]
  rw [lookup_other_stores _ key different]
  exact same.stores key different

theorem store_after_set_store (storage : Storage) (account other : Account)
    (location place : Location) (store : ServiceStore) :
    (storage.setStore account location store).store other place =
      if (other.id, place) = (account.id, location) then store
      else storage.store other place := by
  have elsewhere := (same_elsewhere_set_store
    (same_elsewhere_refl account location storage) store).stores (other.id, place)
  split
  · rename_i same
    simp [setStore, Storage.store, same]
  · rename_i different
    unfold Storage.store
    rw [elsewhere different]

end Storage

namespace Access

def readStore (account : Account) (location : Location) : Access ServiceStore := do
  return (← get).store account location

def writeStore (account : Account) (location : Location) (store : ServiceStore) : Access Unit :=
  modify fun storage => storage.setStore account location store

/-- Runs calls on the file tree and says in whose name they fail. -/
def onDisk {α : Type} (explain : IoError → BackendError) (calls : Disk α) : Access α :=
  fun storage =>
    match calls storage.disk with
    | .ok value disk => .ok value { storage with disk := disk }
    | .error cause disk => .error (explain cause) { storage with disk := disk }

def atPath {α : Type} (path : String) (calls : Disk α) : Access α :=
  onDisk (fun cause => .io path cause) calls

/-- As `atPath`, but what is missing is a resource that does not exist. -/
def existingAt {α : Type} (path : String) (calls : Disk α) : Access α :=
  onDisk (fun cause =>
    if cause = .fault .notFound then .notFound path else .io path cause) calls

end Access

end StorageScenario
