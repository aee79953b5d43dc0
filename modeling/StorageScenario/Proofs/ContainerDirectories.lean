import StorageScenario.Proofs.ContainerReach
import StorageScenario.Proofs.UnderFolder

/-!
Where the directory of a container is, told from its path alone. The path of a container is its
name behind the root of its service, or the name alone if it is absolute, so the directory is
below every root just where the name is relative, climbs nowhere and goes down at all.
-/

namespace StorageScenario

open DiskPath ObjectPath Work

namespace ObjectPath

theorem resolve_without_idle (first second : List String) :
    resolve (first ++ "" :: second) = resolve (first ++ second) := by
  have idle : ∀ trail, follow trail "" = trail := follow_idle (Or.inl rfl)
  simp [resolve, idle]

end ObjectPath

section Roots

variable {base : List String} (proper : AreNames base)
include proper

theorem resolve_behind_root (steps : List String) :
    resolve (pieces (ofNames base) ++ steps) = resolve (base ++ steps) := by
  have whole : ofNames base = "" ++ "/" ++ render base := rfl
  have empty : pieces "" = [""] := rfl
  rw [whole, pieces_slash, empty]
  by_cases atTop : base = []
  · subst atTop
    rfl
  · rw [pieces_render atTop proper]
    rfl

theorem names_behind_root (name : String) :
    ObjectPath.names (DiskPath.join (ofNames base) name) =
      if isAbsolute name then ObjectPath.names name
      else base.take (base.length - climb 0 (pieces name)) ++ ObjectPath.names name := by
  have fromRoot : resolve (base ++ pieces name) =
      base.take (base.length - climb 0 (pieces name)) ++ ObjectPath.names name := by
    rw [resolve_append, resolve_names proper]
    rfl
  unfold DiskPath.join
  split
  · rfl
  · rw [← fromRoot, ← resolve_behind_root proper]
    have nonempty : ofNames base ≠ "" := by simp [ofNames]
    unfold ObjectPath.names
    by_cases slash : endsWithSlash (ofNames base) = true
    · rw [if_pos (Or.inr slash)]
      obtain ⟨front, whole⟩ := (ends_with_slash_iff _).mp slash
      rw [whole, pieces_slash, pieces_of_slash, List.append_assoc, List.singleton_append,
        resolve_without_idle]
    · rw [if_neg (by simp [nonempty, slash]), pieces_slash]

end Roots

def StrictlyBelow (base names : List String) : Prop :=
  ∃ deeper, deeper ≠ [] ∧ names = base ++ deeper

instance (base names : List String) : Decidable (StrictlyBelow base names) :=
  decidable_of_iff (base <+: names ∧ names ≠ base) <| by
    constructor
    · rintro ⟨⟨deeper, rfl⟩, further⟩
      refine ⟨deeper, ?_, rfl⟩
      rintro rfl
      exact further (List.append_nil base)
    · rintro ⟨deeper, further, rfl⟩
      exact ⟨List.prefix_append base deeper,
        fun same => further (List.append_right_eq_self.mp same)⟩

namespace ContainerHandle

/-- The names on the way to the directory of a container, if all steps of its path are taken by
their text. -/
def directory (container : ContainerHandle) : List String := ObjectPath.names container.uri

def StaysBelow (name : String) : Prop :=
  isAbsolute name = false ∧ StaysInside (pieces name) ∧ ObjectPath.names name ≠ []

instance (name : String) : Decidable (StaysBelow name) :=
  inferInstanceAs (Decidable (_ ∧ _ ∧ _))

section Directories

variable {base : List String} {name : String}

theorem directory_on_disk (proper : AreNames base) (name : String) :
    (ContainerHandle.mk (.disk (ofNames base)) name).directory =
      if isAbsolute name then ObjectPath.names name
      else base.take (base.length - climb 0 (pieces name)) ++ ObjectPath.names name :=
  names_behind_root proper name

theorem directory_of_stays_below (proper : AreNames base) (stays : StaysBelow name) :
    (ContainerHandle.mk (.disk (ofNames base)) name).directory =
      base ++ ObjectPath.names name := by
  obtain ⟨relative, inside, _⟩ := stays
  rw [directory_on_disk proper, if_neg (by simp [relative]), (stays_inside_iff _).mp inside,
    Nat.sub_zero, List.take_length]

/-- Behind a root, the steps of a relative name come back down through what they have left of
it, and go on. -/
theorem strictly_below_iff (proper : AreNames base) (name : String) :
    StrictlyBelow base (ContainerHandle.mk (.disk (ofNames base)) name).directory ↔
      if isAbsolute name then StrictlyBelow base (ObjectPath.names name)
      else StrictlyBelow (base.drop (base.length - climb 0 (pieces name)))
        (ObjectPath.names name) := by
  rw [directory_on_disk proper]
  split
  · rfl
  · constructor
    · rintro ⟨deeper, further, whole⟩
      refine ⟨deeper, further, ?_⟩
      rw [← List.append_right_inj (base.take (base.length - climb 0 (pieces name))), whole,
        ← List.append_assoc, List.take_append_drop]
    · rintro ⟨deeper, further, whole⟩
      refine ⟨deeper, further, ?_⟩
      rw [whole, ← List.append_assoc, List.take_append_drop]

theorem stays_below_iff (name : String) :
    (∀ base, AreNames base →
      StrictlyBelow base (ContainerHandle.mk (.disk (ofNames base)) name).directory) ↔
      StaysBelow name := by
  constructor
  · intro everywhere
    have relative : isAbsolute name = false := by
      apply Bool.eq_false_iff.mpr
      intro absolute
      have below := everywhere _ (names_are_names name)
      rw [strictly_below_iff (names_are_names name), if_pos absolute] at below
      obtain ⟨deeper, further, whole⟩ := below
      exact further (List.append_right_eq_self.mp whole.symm)
    have behind : ∀ {base}, AreNames base →
        StrictlyBelow (base.drop (base.length - climb 0 (pieces name)))
          (ObjectPath.names name) := by
      intro base proper
      have below := everywhere base proper
      rwa [strictly_below_iff proper, if_neg (by simp [relative])] at below
    refine ⟨relative, ?_, ?_⟩
    · rw [← comes_back_everywhere_iff]
      intro folder
      obtain ⟨deeper, _, whole⟩ := behind (names_are_names folder)
      exact ⟨deeper, whole.symm⟩
    · obtain ⟨deeper, further, whole⟩ := behind are_names_nil
      rw [whole]
      simpa using further
  · intro stays base proper
    exact ⟨_, stays.2.2, directory_of_stays_below proper stays⟩

theorem name_stays_below (isName : IsName name) : StaysBelow name := by
  have proper : AreNames [name] := are_names_single.mpr isName
  have relative := render_is_relative proper
  rw [render_single] at relative
  refine ⟨Bool.eq_false_iff.mpr relative, ?_, ?_⟩
  · rw [pieces_of_plain isName.2.2.2, stays_inside_iff]
    exact climb_names proper 0
  · rw [names_name isName]
    exact List.cons_ne_nil _ _

end Directories

/-- Where containers are and how far they reach. The directory of a container is strictly below
the root of its service, whatever the root, just if the name is relative, climbs nowhere and goes
down at all, and two such containers are nested just as their names are. So single names lead
directly into the root and never into each other. However it ends, the creation of a container
alters nothing that is there, and in a tree without links its deletion alters nothing but what
stands at and below its directory, wherever that is. -/
theorem container_directories {base : List String} (proper : AreNames base) :
    let container := fun name => ContainerHandle.mk (.disk (ofNames base)) name
    let directory := fun name => (container name).directory
    (∀ name, (∀ base, AreNames base →
      StrictlyBelow base (ContainerHandle.mk (.disk (ofNames base)) name).directory) ↔
        StaysBelow name) ∧
    (∀ name, StrictlyBelow base (directory name) ↔
      if isAbsolute name then StrictlyBelow base (ObjectPath.names name)
      else StrictlyBelow (base.drop (base.length - climb 0 (pieces name)))
        (ObjectPath.names name)) ∧
    (∀ first second, StaysBelow first → StaysBelow second →
      (directory first <+: directory second ↔
        ObjectPath.names first <+: ObjectPath.names second)) ∧
    (∀ name, IsName name → directory name = base ++ [name] ∧
      ∀ other, IsName other → directory name <+: directory other → name = other) ∧
    (∀ name properties (storage : Storage), storage.disk.root.KeptIn
      (left ((container name).create properties) storage).disk.root) ∧
    ∀ name (storage : Storage), storage.disk.root.Tidy →
      storage.disk.root.Spared (directory name)
      (left (container name).delete storage).disk.root := by
  intro container directory
  have behind : ∀ {name}, StaysBelow name → directory name = base ++ ObjectPath.names name :=
    fun stays => directory_of_stays_below proper stays
  refine ⟨stays_below_iff, strictly_below_iff proper, ?nested, ?single, ?creates, ?deletes⟩
  case nested =>
    intro first second firstStays secondStays
    rw [behind firstStays, behind secondStays]
    exact List.prefix_append_right_inj base
  case single =>
    intro name isName
    have isDirectory : ∀ {name}, IsName name → directory name = base ++ [name] := by
      intro name isName
      rw [behind (name_stays_below isName), names_name isName]
    refine ⟨isDirectory isName, ?_⟩
    intro other isOther nested
    rw [isDirectory isName, isDirectory isOther, List.prefix_append_right_inj,
      List.cons_prefix_cons] at nested
    exact nested.1
  case creates =>
    exact fun name properties => DiskResources.create_container_keeps (container name).uri
  case deletes =>
    exact fun name => DiskResources.delete_container_spares (container name).uri

/-- One container inside another, which goes when the other is deleted, while the one beside them
stays, and names that lead to the root or out of it. -/
theorem container_directories_nested_names :
    let base := ["srv", "root"]
    let container := fun name => ContainerHandle.mk (.disk (ofNames base)) name
    let directory := fun name => (container name).directory
    let folder := fun entries => Node.directory 0o755 ⟨0⟩ entries
    let storage := Storage.fresh ⟨folder [("srv", folder [("root",
      folder [("a", folder [("b", folder [])]), ("keep", folder [])])])], ⟨0⟩⟩
    let after := (left (container "a").delete storage).disk.root
    AreNames base ∧ storage.disk.root.Tidy ∧
      (StaysBelow "a" ∧ StaysBelow "a/b" ∧ directory "a" <+: directory "a/b") ∧
      ¬ StrictlyBelow base (directory "") ∧ ¬ StrictlyBelow base (directory "..") ∧
      ¬ StrictlyBelow base (directory "/etc") ∧
      after.at? (directory "a/b") = none ∧
        ∃ later, after.at? (directory "keep") = some later := by
  intro base container directory folder storage after
  have proper : AreNames base := by decide
  obtain ⟨_, below, nested, _, _, deletes⟩ := container_directories proper
  have empty : (folder []).Tidy := .directory (by decide) (by simp) (by simp)
  have nest : ∀ {name child}, IsName name → child.Tidy → (folder [(name, child)]).Tidy := by
    intro name child isName tidy
    exact .directory (by simp) (by simpa using isName) (by simpa using tidy)
  have inRoot : (folder [("a", folder [("b", folder [])]), ("keep", folder [])]).Tidy := by
    refine .directory (by decide) (by decide) ?_
    simpa using ⟨nest (by decide) empty, empty⟩
  have plain : storage.disk.root.Tidy := nest (by decide) (nest (by decide) inRoot)
  have first : StaysBelow "a" := by decide
  have second : StaysBelow "a/b" := by decide
  have spared := deletes "a" storage plain
  have isThere : storage.disk.root.at? (directory "keep") = some (folder []) := by
    rw [show directory "keep" = ["srv", "root", "keep"] by decide]
    rfl
  obtain ⟨later, stands, _⟩ :=
    Node.later_of_remains (spared (directory "keep") (by decide)) isThere
  refine ⟨proper, plain, ⟨first, second, (nested "a" "a/b" first second).mpr (by decide)⟩,
    (below "").not.mpr (by decide), (below "..").not.mpr (by decide),
    (below "/etc").not.mpr (by decide), ?_, later, stands⟩
  have isGone : (after.at? (directory "a/b")).isNone = true := by decide +kernel
  exact Option.isNone_iff_eq_none.mp isGone

end ContainerHandle

end StorageScenario
