import StorageScenario.Proofs.FlattenLookup
import StorageScenario.Proofs.PathClimbing

/-!
Mappings in folders in folders. Moving a table below one folder and then below
another moves every path twice, and where two definitions meet it is the same one
that stays. What a folder name above the own start of a path would lead to is lost in
between, so nesting and one joined folder agree where no path climbs that high.
-/

namespace StorageScenario.Mapping

open ObjectPath

/-- A table moved twice. Paths that have met below the inner folder meet no others below
the outer one. -/
theorem moved_moved (outer inner : String) (objects : Table ObjectDefinition) :
    Table.ofList (moved outer (Table.ofList (moved inner objects))) =
      Table.ofList (objects.entries.map fun entry =>
        (join outer (join inner entry.1), entry.2)) := by
  have injective : ∀ first ∈ (moved inner objects).map Prod.fst,
      ∀ second ∈ (moved inner objects).map Prod.fst,
        join outer first = join outer second → first = second := by
    intro first inFirst second inSecond same
    apply join_injective outer ?_ ?_ same
    · exact moved_clean inner objects first inFirst
    · exact moved_clean inner objects second inSecond
  have gathered := Table.of_list_renamed (join outer) injective
  rw [moved, gathered, moved, List.map_map]
  rfl

theorem flatten_under_under (outer inner : String) (mapping : Mapping) :
    flatten (.under outer (.under inner mapping)) =
      Table.ofList (mapping.flatten.entries.map fun entry =>
        (join outer (join inner entry.1), entry.2)) := by
  rw [flatten, flatten]
  exact moved_moved outer inner mapping.flatten

/-- Folders in folders are one joined folder if no path climbs above the inner folder, or
if the outer one is the root. For a mapping of one path there is no other case. -/
theorem flatten_nested_folders (outer inner : String) :
    (∀ mapping : Mapping,
      (clean outer = "" ∨
        ∀ path ∈ mapping.flatten.keys, StaysInside (pieces inner ++ pieces path)) →
      flatten (.under outer (.under inner mapping)) =
        flatten (.under (join outer inner) mapping)) ∧
    ∀ path object,
      flatten (.under outer (.under inner (.flat (Table.singleton path object)))) =
          flatten (.under (join outer inner) (.flat (Table.singleton path object))) ↔
        clean outer = "" ∨ StaysInside (pieces inner ++ pieces path) := by
  constructor
  · intro mapping condition
    rw [flatten_under_under, flatten, moved]
    apply congrArg Table.ofList
    apply List.map_congr_left
    intro entry member
    have atEntry : clean outer = "" ∨ StaysInside (pieces inner ++ pieces entry.1) :=
      condition.imp_right fun inside => inside entry.1 (List.mem_map_of_mem member)
    rw [(join_join_iff outer inner entry.1).mpr atEntry]
  · intro path object
    have nested : flatten (.under outer (.under inner (.flat (Table.singleton path object)))) =
        Table.singleton (join outer (join inner path)) object := by
      rw [flatten_under_under, flatten]
      exact Table.of_list_single _ object
    have joined : flatten (.under (join outer inner) (.flat (Table.singleton path object))) =
        Table.singleton (join (join outer inner) path) object := by
      rw [flatten, flatten]
      exact Table.of_list_single _ object
    rw [nested, joined, ← join_join_iff]
    constructor
    · intro same
      exact Table.singleton_key same
    · intro same
      rw [same]

/-- Paths that meet below the inner folder, one of which goes up and down again. A folder
beside the outer one is not found by its name from inside. -/
theorem flatten_nested_folders_beside :
    let mapping : Mapping := .flat (Table.ofList [("../c/f", {}), ("f", .folder)])
    flatten (.under "a/b" (.under "./c" mapping)) = Table.singleton "a/b/c/f" .folder ∧
      flatten (.under "a/b" (.under "./c" mapping)) = flatten (.under "a/b/c" mapping) ∧
      flatten (.under "a/b" (.under "../c" (.flat (Table.singleton "f" {})))) ≠
        flatten (.under (join "a/b" "../c") (.flat (Table.singleton "f" {}))) := by
  intro mapping
  have inside : ∀ path ∈ mapping.flatten.keys, StaysInside (pieces "./c" ++ pieces path) := by
    decide
  have agrees := (flatten_nested_folders "a/b" "./c").1 mapping (Or.inr inside)
  have climbs : ¬ (clean "a/b" = "" ∨ StaysInside (pieces "../c" ++ pieces "f")) := by decide
  refine ⟨rfl, agrees, ?_⟩
  intro same
  exact climbs (((flatten_nested_folders "a/b" "../c").2 "f" {}).mp same)

end StorageScenario.Mapping
