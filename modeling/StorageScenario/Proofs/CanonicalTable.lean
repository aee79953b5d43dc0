import StorageScenario.Proofs.FlattenLookup
import StorageScenario.Traversal

/-!
Spellings of paths in flattened mappings. Every path in a flattened mapping is clean,
except those that a table brings along as they are written there, from where only
overlays lie above it. A table in which no object is spelled twice is walked object by
object, and its only entry, if there is one, is the only object it is about.
-/

namespace StorageScenario

open ObjectPath

/-- No two keys are spellings of one path. -/
def Table.Canonical {α : Type} (table : Table α) : Prop :=
  ∀ first ∈ table.keys, ∀ second ∈ table.keys, clean first = clean second → first = second

theorem Table.canonical_iff_nodup {α : Type} (table : Table α) :
    table.Canonical ↔ (table.keys.map clean).Nodup :=
  (List.nodup_map_iff_inj_on table.keys_nodup).symm

namespace Mapping

theorem mem_under_keys (folder : String) (mapping : Mapping) (path : String) :
    path ∈ (Mapping.under folder mapping).flatten.keys ↔
      ∃ key ∈ mapping.flatten.keys, join folder key = path := by
  rw [flatten, Table.mem_keys_of_list]
  simp [moved, Table.keys]

/-- The paths that flattening takes over as they are written. -/
def asWritten : Mapping → List String
  | .flat objects => objects.keys
  | .overlay base upper => base.asWritten ++ upper.asWritten
  | _ => []

theorem written_is_key : (mapping : Mapping) → ∀ path ∈ mapping.asWritten,
    path ∈ mapping.flatten.keys
  | .flat _, _, written => written
  | .folder _ _, _, written => absurd written List.not_mem_nil
  | .single _, _, written => absurd written List.not_mem_nil
  | .under _ _, _, written => absurd written List.not_mem_nil
  | .overlay base upper, path, written => by
      rw [flatten, Table.mem_keys_extend]
      rcases List.mem_append.mp written with inBase | inUpper
      · exact Or.inl (written_is_key base path inBase)
      · exact Or.inr (written_is_key upper path inUpper)

theorem key_clean_or_written : (mapping : Mapping) → ∀ path ∈ mapping.flatten.keys,
    clean path = path ∨ path ∈ mapping.asWritten
  | .flat _, _, member => Or.inr member
  | .folder own children, path, member => by
      rw [flatten, Table.mem_keys_extend] at member
      rcases member with atOwn | below
      · exact Or.inl (root_clean own.markedFolder path atOwn)
      · exact Or.inl (children_keys_clean children path below)
  | .single object, path, member => Or.inl (root_clean object path member)
  | .under parent mapping, path, member => by
      rw [flatten, Table.mem_keys_of_list] at member
      exact Or.inl (moved_clean parent mapping.flatten path member)
  | .overlay base upper, path, member => by
      rw [flatten, Table.mem_keys_extend] at member
      simp only [asWritten, List.mem_append]
      rcases member with inBase | inUpper
      · exact (key_clean_or_written base path inBase).imp_right Or.inl
      · exact (key_clean_or_written upper path inUpper).imp_right Or.inr

/-- Only a path written otherwise than clean can be a second spelling. -/
theorem canonical_iff (mapping : Mapping) :
    mapping.flatten.Canonical ↔
      ∀ path ∈ mapping.asWritten, clean path ≠ path →
        ∀ other ∈ mapping.flatten.keys, clean other = clean path → other = path := by
  constructor
  · intro canonical path written _ other member same
    exact canonical other member path (written_is_key mapping path written) same
  · intro alone first inFirst second inSecond same
    by_cases firstClean : clean first = first
    · by_cases secondClean : clean second = second
      · rw [← firstClean, same, secondClean]
      · have written := (key_clean_or_written mapping second inSecond).resolve_left secondClean
        exact alone second written secondClean first inFirst same
    · have written := (key_clean_or_written mapping first inFirst).resolve_left firstClean
      exact (alone first written firstClean second inSecond same.symm).symm

end Mapping

namespace ContainerDefinition

def visits (definition : ContainerDefinition) (container : ContainerHandle) :
    List (ObjectHandle × ObjectDefinition) :=
  definition.objects.flatten.entries.map fun entry =>
    (container.object entry.1 entry.2.properties.kind, entry.2.boundTo entry.1)

theorem visit_container_visits {σ : Type} (callbacks : Callbacks σ) (container : ContainerHandle)
    (definition : ContainerDefinition) :
    callbacks.visitContainer (.container container) definition =
      callbacks.visit (.container container) (.container definition)
        ((definition.visits container).forM fun visit =>
          callbacks.visitObject (.object visit.1) visit.2) := by
  unfold visits
  rw [List.forM_eq_forM, List.forM_map]
  rfl

theorem visits_paths (definition : ContainerDefinition) (container : ContainerHandle) :
    (definition.visits container).map (·.1.path) =
      definition.objects.flatten.keys.map clean := by
  unfold visits Table.keys
  rw [List.map_map, List.map_map]
  rfl

theorem lower_eq (definition : ContainerDefinition) (container : ContainerHandle) :
    (Definition.container definition).lower (.container container) =
      match definition.visits container with
      | [visit] => .ok (.object visit.1, .object visit.2)
      | visits => .error (.ambiguousAdoptiveChild .container visits.length) := by
  have opened : (Definition.container definition).lower (.container container) = (do
      let entry ← Definition.singleEntry .container definition.objects.flatten
      return (Resource.object (container.object entry.1 entry.2.properties.kind),
        Definition.object (entry.2.boundTo entry.1))) := rfl
  rw [opened]
  unfold Definition.singleEntry Table.single? Table.size visits
  cases definition.objects.flatten.entries with
  | nil => rfl
  | cons entry rest =>
      cases rest with
      | nil => rfl
      | cons second others =>
          simp only [List.map_cons, List.length_cons, List.length_map]
          rfl

def objectCount (definition : ContainerDefinition) : Nat :=
  (definition.objects.flatten.keys.map clean).dedup.length

theorem object_count_of_canonical {definition : ContainerDefinition}
    (canonical : definition.objects.flatten.Canonical) (container : ContainerHandle) :
    definition.objectCount = (definition.visits container).length := by
  have distinct := (Table.canonical_iff_nodup _).mp canonical
  rw [objectCount, List.Nodup.dedup distinct, ← visits_paths definition container,
    List.length_map]

end ContainerDefinition

/-- A flattened mapping has one path for every object unless a table somewhere in it,
with nothing but overlays above, spells a path otherwise than clean that is there
already. Then a walk comes to no object twice, and lowering counts objects. -/
theorem flatten_canonical (mapping : Mapping) :
    (mapping.flatten.Canonical ↔
      ∀ path ∈ mapping.asWritten, clean path ≠ path →
        ∀ other ∈ mapping.flatten.keys, clean other = clean path → other = path) ∧
    ∀ (definition : ContainerDefinition) (container : ContainerHandle),
      definition.objects = mapping → mapping.flatten.Canonical →
        (∀ (σ : Type) (callbacks : Callbacks σ),
          callbacks.visitContainer (.container container) definition =
            callbacks.visit (.container container) (.container definition)
              ((definition.visits container).forM fun visit =>
                callbacks.visitObject (.object visit.1) visit.2)) ∧
        ((definition.visits container).map (·.1.path)).Nodup ∧
        ((∃ child, (Definition.container definition).lower (.container container) = .ok child) ↔
          definition.objectCount = 1) ∧
        (definition.objectCount ≠ 1 →
          (Definition.container definition).lower (.container container) =
            .error (.ambiguousAdoptiveChild .container definition.objectCount)) := by
  refine ⟨mapping.canonical_iff, ?_⟩
  intro definition container ofMapping canonical
  subst ofMapping
  have paths := definition.visits_paths container
  rw [ContainerDefinition.object_count_of_canonical canonical container,
    ContainerDefinition.lower_eq]
  refine ⟨fun σ callbacks => definition.visit_container_visits callbacks container, ?_, ?_, ?_⟩
  · rw [paths]
    exact (Table.canonical_iff_nodup _).mp canonical
  · rcases definition.visits container with _ | ⟨visit, _ | ⟨second, others⟩⟩ <;> simp
  · rcases definition.visits container with _ | ⟨visit, _ | ⟨second, others⟩⟩ <;> simp

/-- Under a folder no two spellings are left. Side by side in one table they are two
children of a container that is about one object. -/
theorem flatten_canonical_two_spellings :
    let spelled : Mapping := .flat (Table.ofList [("a//b", {}), ("a/b", {})])
    let container : ContainerHandle := ⟨.rehearsal .blob, "c"⟩
    ¬ spelled.flatten.Canonical ∧
      (Mapping.under "x" spelled).flatten.Canonical ∧
      (∃ child, (Definition.container { objects := .under "x" spelled }).lower
        (.container container) = .ok child) ∧
      (Definition.container { objects := spelled }).lower (.container container) =
        .error (.ambiguousAdoptiveChild .container 2) := by
  intro spelled container
  have twice : ¬ spelled.flatten.Canonical := by
    intro canonical
    have same := (flatten_canonical spelled).1.mp canonical "a//b" (by decide) (by decide)
      "a/b" (by decide) (by decide)
    exact absurd same (by decide)
  have once : (Mapping.under "x" spelled).flatten.Canonical :=
    (flatten_canonical _).1.mpr fun _ written => absurd written List.not_mem_nil
  obtain ⟨_, _, lowered, _⟩ := (flatten_canonical (.under "x" spelled)).2
    { objects := .under "x" spelled } container rfl once
  exact ⟨twice, once, lowered.mpr (by decide), rfl⟩

end StorageScenario
