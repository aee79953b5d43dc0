import StorageScenario.FileTree.Calls
import StorageScenario.Proofs.Outcomes
import StorageScenario.Storage.DiskResources

/-!
Calls that only look. They leave the state as it was, however they end, and calls that look
one after the other do so too. On a file tree these are all that ask about a path.
-/

namespace StorageScenario

namespace Work

variable {ε σ α β : Type}

/-- However the call ends, the state is as it was. -/
def Looks (call : EStateM ε σ α) : Prop := ∀ state, left call state = state

theorem pure_looks (value : α) : Looks (pure value : EStateM ε σ α) := fun _ => rfl

theorem throw_looks (error : ε) : Looks (throw error : EStateM ε σ α) := fun _ => rfl

theorem get_looks : Looks (get : EStateM ε σ σ) := fun _ => rfl

theorem bind_looks {call : EStateM ε σ α} {next : α → EStateM ε σ β} (first : Looks call)
    (rest : ∀ value, Looks (next value)) : Looks (call >>= next) := by
  intro state
  have kept : Keeps (· = state) (call >>= next) := by
    refine bind_keeps ?_ fun value => ?_
    · rintro _ rfl
      exact first _
    · rintro _ rfl
      exact rest value _
  exact kept state rfl

theorem Looks.of_ok {call : EStateM ε σ α} (looks : Looks call) {before after : σ} {value : α}
    (ran : call before = .ok value after) : after = before := by
  rw [← left_of_ok ran, looks]

theorem Looks.of_error {call : EStateM ε σ α} (looks : Looks call)
    {before after : σ} {error : ε}
    (ran : call before = .error error after) : after = before := by
  rw [← left_of_error ran, looks]

theorem Looks.keeps {call : EStateM ε σ α} (looks : Looks call) (kept : σ → Prop) :
    Keeps kept call := by
  intro state start
  rw [looks state]
  exact start

/-- What holds of a state holds still when a call has looked at it, and then of what is left by
the work that goes on with the value. -/
theorem Looks.bind_left {call : EStateM ε σ α} {next : α → EStateM ε σ β} {state : σ}
    (looks : Looks call) (kept : σ → Prop) (start : kept state)
    (rest : ∀ value, call state = .ok value state → kept (left (next value) state)) :
    kept (left (call >>= next) state) := by
  cases ran : call state with
  | ok value after =>
      cases looks.of_ok ran
      rw [left_of_same (bind_of_ok ran)]
      exact rest value ran
  | error error after =>
      cases looks.of_error ran
      rw [left_of_error (bind_of_error ran)]
      exact start

end Work

open Work

namespace Disk

theorem check_looks {α : Type} (result : Except FileFault α) : Looks (check result) := by
  cases result with
  | ok value => exact pure_looks value
  | error cause => exact throw_looks _

theorem check_path_looks (path : String) : Looks (checkPath path) := by
  unfold checkPath
  split
  · exact throw_looks _
  · split
    · exact throw_looks _
    · split
      · exact throw_looks _
      · exact pure_looks ()

theorem demand_looks (node : Node) (permission : Permission) : Looks (demand node permission) := by
  unfold demand
  split
  · exact pure_looks ()
  · exact throw_looks _

theorem demand_change_looks (directory : Node) : Looks (demandChange directory) :=
  bind_looks (demand_looks directory .write) fun _ => demand_looks directory .search

theorem spot_looks (path : String) (aim : FileTree.Aim) : Looks (spot path aim) := by
  refine bind_looks (check_path_looks path) fun _ => ?_
  exact bind_looks get_looks fun tree => check_looks _

theorem last_step_looks (path : String) : Looks (lastStep path) := by
  refine bind_looks (check_path_looks path) fun _ => ?_
  split
  · exact pure_looks _
  · exact bind_looks get_looks fun tree => bind_looks (check_looks _) fun _ => pure_looks _

theorem locate_looks (path : String) (aim : FileTree.Aim) : Looks (locate path aim) := by
  refine bind_looks (spot_looks path aim) fun found => ?_
  cases found with
  | found place => exact pure_looks place
  | vacant directory name => exact throw_looks _

theorem metadata_looks (path : String) : Looks (metadata path) :=
  bind_looks (locate_looks path .target) fun _ => pure_looks _

theorem link_metadata_looks (path : String) : Looks (linkMetadata path) :=
  bind_looks (locate_looks path .entry) fun _ => pure_looks _

theorem entry_looks (directory : FileTree.Place) (name : String) : Looks <| entry? directory name :=
  check_looks _

theorem is_present_looks (path : String) : Looks (isPresent path) := by
  intro tree
  have kept := metadata_looks path tree
  unfold left at kept ⊢
  unfold isPresent
  cases ran : metadata path tree with
  | ok node after => simpa only [ran] using kept
  | error cause after =>
      rw [ran] at kept
      cases cause with
      | fault fault => cases fault <;> exact kept
      | nulInName => exact kept
      | unreadableBody reason => exact kept
      | invalidSeek => exact kept

theorem is_directory_looks (path : String) : Looks (isDirectory path) := by
  intro tree
  have kept := metadata_looks path tree
  unfold left at kept ⊢
  unfold isDirectory
  cases ran : metadata path tree with
  | ok node after => simpa only [ran] using kept
  | error cause after => simpa only [ran] using kept

theorem read_file_looks (path : String) : Looks (readFile path) := by
  have openNode : Looks (openNode path) := by
    refine bind_looks (locate_looks path .target) fun place => ?_
    exact bind_looks (demand_looks _ _) fun _ => pure_looks place
  refine bind_looks openNode fun place => ?_
  split
  · exact pure_looks _
  · exact pure_looks _

end Disk

theorem Access.on_disk_disk {α : Type} (explain : IoError → BackendError) (calls : Disk α)
    (storage : Storage) :
    (left (Access.onDisk explain calls) storage).disk = left calls storage.disk := by
  unfold left onDisk
  cases calls storage.disk <;> rfl

theorem Access.on_disk_keeps {α : Type} (explain : IoError → BackendError) {calls : Disk α}
    {kept : FileTree → Prop} (keeps : Keeps kept calls) :
    Keeps (fun storage => kept storage.disk) (Access.onDisk explain calls) := by
  intro storage start
  rw [on_disk_disk]
  exact keeps storage.disk start

theorem Access.on_disk_looks {α : Type} (explain : IoError → BackendError) {calls : Disk α}
    (looks : Looks calls) : Looks (Access.onDisk explain calls) := by
  intro storage
  have kept := looks storage.disk
  unfold left at kept ⊢
  unfold onDisk
  cases ran : calls storage.disk with
  | ok value disk =>
      rw [ran] at kept
      simp only [kept]
  | error cause disk =>
      rw [ran] at kept
      simp only [kept]

theorem DiskResources.container_is_present_looks (path : String) :
    Looks (containerIsPresent path) := by
  refine bind_looks (Access.on_disk_looks _ (Disk.is_present_looks path)) fun present => ?_
  split
  · exact Access.on_disk_looks _ (Disk.is_directory_looks path)
  · exact pure_looks false

theorem DiskResources.left_of_delete_container (path : String) (storage : Storage) :
    left (deleteContainer path) storage =
      left (Access.existingAt path (Disk.removeAll path)) storage := by
  unfold left deleteContainer
  cases Access.existingAt path (Disk.removeAll path) storage with
  | ok value after => rfl
  | error cause after => cases cause <;> rfl

/-- A deletion leaves everything as it is, or what the removal of a directory or an entry leaves. -/
theorem DiskResources.left_of_delete_object (path : String) (storage : Storage) :
    left (deleteObject path) storage = storage ∨
      left (deleteObject path) storage =
        left (Access.atPath path (Disk.removeAll path)) storage ∨
      left (deleteObject path) storage =
        left (Access.atPath path (Disk.unlink path)) storage := by
  have looks : Looks (Access.existingAt path (Disk.linkMetadata path)) :=
    Access.on_disk_looks _ (Disk.link_metadata_looks path)
  cases found : Access.existingAt path (Disk.linkMetadata path) storage with
  | error cause after =>
      cases looks.of_error found
      refine Or.inl ?_
      unfold left deleteObject
      rw [found]
      cases cause <;> rfl
  | ok node after =>
      cases looks.of_ok found
      have goesOn : deleteObject path storage =
          if node.isDirectory then Access.atPath path (Disk.removeAll path) storage
          else Access.atPath path (Disk.unlink path) storage := by
        unfold deleteObject
        rw [found]
      split at goesOn
      · exact Or.inr (Or.inl (left_of_same goesOn))
      · exact Or.inr (Or.inr (left_of_same goesOn))

end StorageScenario
