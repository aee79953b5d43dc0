import StorageScenario.Proofs.PathNormalForm
import StorageScenario.Store

/-!
Listings as look-ups. A listing goes through the stored objects one by one: it shows an
object under its own path, or the folders that it meets on the way to it, or both. What is
stored at a path wins over the folder that is met there, whichever comes first.
-/

namespace StorageScenario

open ObjectPath

theorem Text.remainder_eq_some_iff (start text remainder : String) :
    Text.remainder? start text = some remainder ↔ text = start ++ remainder := by
  unfold Text.remainder?
  rw [Option.map_eq_some_iff]
  simp only [List.isPrefixOf?_eq_some_iff_append_eq]
  constructor
  · rintro ⟨letters, whole, same⟩
    rw [← same, ← String.toList_inj, String.toList_append, String.toList_ofList, whole]
  · intro whole
    exact ⟨remainder.toList, by rw [whole, String.toList_append], String.ofList_toList⟩

namespace StoredContainer

theorem mem_before_slashes (part letters : List Char) :
    part ∈ beforeSlashes letters ↔ part ++ ['/'] <+: letters := by
  induction letters generalizing part with
  | nil => simp [beforeSlashes]
  | cons letter rest ih =>
      cases part with
      | nil => by_cases slash : letter = '/' <;> simp [beforeSlashes, slash, eq_comm]
      | cons first others =>
          rw [List.cons_append, List.cons_prefix_cons, ← ih]
          by_cases slash : letter = '/' <;>
            simp [beforeSlashes, slash, eq_comm, and_comm]

theorem add_folders_get? (paths : List String) (listed : Table ObjectProperties)
    (path : String) :
    (paths.foldl addFolder listed).get? path =
      if path ∈ paths then some ((listed.get? path).getD ObjectProperties.folder)
      else listed.get? path := by
  induction paths generalizing listed with
  | nil => simp
  | cons head rest ih =>
      have added : (addFolder listed head).get? path =
          if path = head then some ((listed.get? path).getD ObjectProperties.folder)
          else listed.get? path := by
        unfold addFolder Table.contains
        by_cases same : path = head
        · subst same
          cases found : listed.get? path <;> simp [found]
        · cases (listed.get? head).isSome <;> simp [same]
      rw [List.foldl_cons, ih, added]
      by_cases same : path = head <;> by_cases later : path ∈ rest <;> simp [same, later]

/-- Whether a listing shows an object under its own path. -/
def showsItself (start : String) (recursive : Bool) (key : String) : Bool :=
  match Text.remainder? start key with
  | none => false
  | some remainder =>
      remainder ≠ "" && (recursive || (beforeSlashes remainder.toList).isEmpty)

def foldersOnWay (start : String) (recursive hierarchical : Bool) (key : String) : List String :=
  match Text.remainder? start key with
  | none => []
  | some remainder =>
      let folders := (beforeSlashes remainder.toList).map fun part => start ++ String.ofList part
      if recursive then (if hierarchical then folders else []) else folders.take 1

section Rounds

variable {start : String} {recursive hierarchical : Bool}

theorem list_object_get? (listed : Table ObjectProperties) (entry : String × StoredObject)
    (path : String) :
    (listObject start recursive hierarchical listed entry).get? path =
      if path = entry.1 ∧ showsItself start recursive entry.1 then some entry.2.properties
      else if path ∈ foldersOnWay start recursive hierarchical entry.1 then
        some ((listed.get? path).getD ObjectProperties.folder)
      else listed.get? path := by
  unfold listObject showsItself foldersOnWay
  cases Text.remainder? start entry.1 with
  | none => simp
  | some remainder =>
      by_cases nothing : remainder = ""
      · cases recursive <;> cases hierarchical <;> simp [nothing, beforeSlashes]
      · cases recursive with
        | true => cases hierarchical <;> simp [nothing, add_folders_get?]
        | false =>
            by_cases direct : beforeSlashes remainder.toList = []
            · simp [nothing, direct]
            · obtain ⟨nearest, others, split⟩ := List.exists_cons_of_ne_nil direct
              simpa [nothing, split] using
                add_folders_get? [start ++ String.ofList nearest] listed path

/-- What a whole listing shows at a path: what is stored there, if it is shown itself, or
else a folder, if one is met there. -/
theorem list_objects_get? {entries : List (String × StoredObject)}
    (ordered : entries.Pairwise fun first second => first.1 < second.1)
    (listed : Table ObjectProperties) (path : String) :
    (entries.foldl (listObject start recursive hierarchical) listed).get? path =
      ((if showsItself start recursive path then entries.lookup path else none).map
        (·.properties)).or
          (if entries.any fun entry =>
            path ∈ foldersOnWay start recursive hierarchical entry.1 then
            some ((listed.get? path).getD ObjectProperties.folder)
          else listed.get? path) := by
  induction entries generalizing listed with
  | nil => simp
  | cons head rest ih =>
      have tail := (List.pairwise_cons.mp ordered).2
      rw [List.foldl_cons, ih tail, list_object_get?, Table.lookup_entry, List.any_cons]
      by_cases atHead : path = head.1
      · subst atHead
        rw [Table.lookup_below_head ordered]
        cases showsItself start recursive head.1 <;>
          by_cases here : head.1 ∈ foldersOnWay start recursive hierarchical head.1 <;>
            cases rest.any fun entry =>
              head.1 ∈ foldersOnWay start recursive hierarchical entry.1 <;>
                simp [here]
      · have notHead : ¬ (path = head.1 ∧ showsItself start recursive head.1) :=
          fun both => atHead both.1
        rw [if_neg notHead, if_neg atHead]
        by_cases here : path ∈ foldersOnWay start recursive hierarchical head.1 <;>
          cases rest.any fun entry => path ∈ foldersOnWay start recursive hierarchical entry.1 <;>
            simp [here]

theorem list_from_get? (container : StoredContainer) (path : String) :
    (container.listFrom start recursive hierarchical).get? path =
      ((if showsItself start recursive path then container.objects.get? path else none).map
        (·.properties)).or
          (if container.objects.keys.any fun key =>
              path ∈ foldersOnWay start recursive hierarchical key then
            some ObjectProperties.folder
          else none) := by
  unfold listFrom Table.keys
  rw [list_objects_get? container.objects.ordered, List.any_map]
  rfl

end Rounds

end StoredContainer

end StorageScenario
