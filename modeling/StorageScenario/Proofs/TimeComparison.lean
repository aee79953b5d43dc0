import Mathlib.Data.Rat.Floor
import StorageScenario.Proofs.ValidationRun

/-!
Comparison of times. Times agree if they have the same floor in seconds since the epoch. Before
the epoch a time is known by the span back from it, whose whole seconds lead up to the time and
not below it; what counts is nevertheless the floor, so that nothing depends on where the epoch is.
-/

namespace StorageScenario

namespace Instant

def inSeconds (instant : Instant) : ℚ := instant.nanoseconds / 1000000000

def later (seconds : Int) (instant : Instant) : Instant :=
  ⟨instant.nanoseconds + seconds * perSecond⟩

theorem whole_seconds_eq_floor (instant : Instant) :
    instant.wholeSeconds = ⌊instant.inSeconds⌋ := by
  have floor := Rat.floor_intCast_div_natCast instant.nanoseconds 1000000000
  rw [whole_seconds_eq_div, inSeconds]
  exact_mod_cast floor.symm

theorem in_seconds_later (seconds : Int) (instant : Instant) :
    (instant.later seconds).inSeconds = instant.inSeconds + seconds := by
  unfold inSeconds later perSecond
  push_cast
  ring

theorem floor_later (seconds : Int) (instant : Instant) :
    ⌊(instant.later seconds).inSeconds⌋ = ⌊instant.inSeconds⌋ + seconds := by
  rw [in_seconds_later, Int.floor_add_intCast]

/-- A time is expected, and the real one is unset or does not have its floor. -/
def Differ (expected actual : Option Instant) : Prop :=
  ∃ wanted, expected = some wanted ∧
    (actual = none ∨ ∃ real, actual = some real ∧
      ⌊wanted.inSeconds⌋ ≠ ⌊real.inSeconds⌋)

theorem differ_iff (expected actual : Option Instant) :
    Differ expected actual ↔
      ∃ wanted, expected = some wanted ∧
        actual.map wholeSeconds ≠ some wanted.wholeSeconds := by
  refine exists_congr fun wanted => and_congr_right fun _ => ?_
  simp only [← whole_seconds_eq_floor]
  cases actual with
  | none => simp
  | some real => simp [eq_comm]

theorem differ_later_iff (seconds : Int) (expected actual : Option Instant) :
    Differ (expected.map (later seconds)) (actual.map (later seconds)) ↔
      Differ expected actual := by
  unfold Differ
  cases expected with
  | none => simp
  | some wanted =>
      cases actual with
      | none => simp
      | some real => simp [floor_later]

end Instant

namespace Validation

open Instant Work

def timeFailure (resource field : String) (wanted : Instant) (actual : Option Instant) :
    SoftFailure :=
  .property resource field (toString ⌊wanted.inSeconds⌋)
    ((actual.map fun real => toString ⌊real.inSeconds⌋).getD "<unset>")

theorem of_time_same {expected actual : Option Instant} (field : String)
    (same : ¬ Differ expected actual) : Mismatch.ofTime field expected actual = [] := by
  rw [differ_iff] at same
  unfold Mismatch.ofTime Mismatch.ofValue
  cases expected with
  | none => rfl
  | some wanted =>
      have agrees : actual.map wholeSeconds = some wanted.wholeSeconds := by
        by_contra differs
        exact same ⟨wanted, rfl, differs⟩
      rw [agrees]
      exact if_pos rfl

theorem of_time_differ {wanted : Instant} {actual : Option Instant} (resource field : String)
    (differ : Differ (some wanted) actual) :
    (Mismatch.ofTime field (some wanted) actual).map (·.toFailure resource) =
      [timeFailure resource field wanted actual] := by
  rw [differ_iff] at differ
  obtain ⟨_, ⟨⟩, differs⟩ := differ
  unfold Mismatch.ofTime Mismatch.ofValue timeFailure
  simp only [← whole_seconds_eq_floor, Option.map_some, if_neg differs]
  cases actual <;> rfl

/-- Of two times a failure is recorded just if one is expected and the real one is unset or has
another floor in seconds since the epoch, and then the failure shows both floors. Whole seconds
by which both times are shifted, across the epoch or not, make no difference. -/
theorem times_compared_by_floor (resource field : String) (expected actual : Option Instant) :
    (∀ wanted, expected = some wanted → Differ expected actual → ∀ session,
      (recordAll resource (Mismatch.ofTime field expected actual)).Yields session ()
        (session.context.record (timeFailure resource field wanted actual)) session.storage) ∧
    (¬ Differ expected actual → ∀ session,
      (recordAll resource (Mismatch.ofTime field expected actual)).Yields session ()
        session.context session.storage) ∧
    ∀ seconds, Differ (expected.map (later seconds)) (actual.map (later seconds)) ↔
      Differ expected actual := by
  refine ⟨?differ, ?same, fun seconds => differ_later_iff seconds expected actual⟩
  case differ =>
    rintro wanted rfl differ session
    have recorded := record_all_yields resource (Mismatch.ofTime field (some wanted) actual) session
    rwa [of_time_differ resource field differ] at recorded
  case same =>
    intro same session
    have recorded := record_all_yields resource (Mismatch.ofTime field expected actual) session
    rw [of_time_same field same] at recorded ⊢
    rwa [List.map_nil, Context.with_no_failures] at recorded

/-- The last nanosecond before the epoch is in another second than the first one after it, one
whole negative second lasts as long as any other, and a shift across the epoch keeps both. -/
theorem times_compared_by_floor_before_epoch :
    let before := Instant.ofParts (-1) 999999999
    let after := Instant.ofParts 0 1
    let whole := Instant.ofParts (-2) 0
    let late := Instant.ofParts (-2) 999999999
    let field := "last write time"
    let session : Session :=
      ⟨⟨"scenario", {}, .counting "n", [], []⟩,
        Storage.fresh (.ofDirectories ⟨0⟩ []), []⟩
    Differ (some before) (some after) ∧
      (recordAll "x" (Mismatch.ofTime field (some before) (some after))).Yields session ()
        (session.context.record (timeFailure "x" field before (some after))) session.storage ∧
      ¬ Differ (some whole) (some late) ∧
      (recordAll "x" (Mismatch.ofTime field (some whole) (some late))).Yields session ()
        session.context session.storage ∧
      Differ ((some before).map (later 5)) ((some after).map (later 5)) ∧
      ¬ Differ ((some whole).map (later 5)) ((some late).map (later 5)) := by
  intro before after whole late field session
  have differ : Differ (some before) (some after) := by
    rw [differ_iff]
    exact ⟨before, rfl, by decide⟩
  have same : ¬ Differ (some whole) (some late) := by
    rw [differ_iff]
    rintro ⟨_, ⟨⟩, differs⟩
    exact differs rfl
  obtain ⟨recorded, _, shifted⟩ := times_compared_by_floor "x" field (some before) (some after)
  obtain ⟨_, silent, sameShifted⟩ := times_compared_by_floor "x" field (some whole) (some late)
  exact ⟨differ, recorded before rfl differ session, same, silent same session,
    (shifted 5).mpr differ, (sameShifted 5).not.mpr same⟩

end Validation

end StorageScenario
