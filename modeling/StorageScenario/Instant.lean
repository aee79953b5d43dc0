/-!
Points in time as nanoseconds since the Unix epoch, before it or after it.
-/

namespace StorageScenario

/-- A length of time: whole seconds, and what is over of the next one. -/
structure Span where
  seconds : Nat
  nanos : Nat
  nanos_lt : nanos < 1000000000

def Span.ofNanoseconds (nanoseconds : Nat) : Span :=
  ⟨nanoseconds / 1000000000, nanoseconds % 1000000000, Nat.mod_lt _ (by decide)⟩

structure Instant where
  nanoseconds : Int
  deriving DecidableEq

namespace Instant

def perSecond : Int := 1000000000

/-- `nanos` counts on from the second and may exceed one second. -/
def ofParts (seconds : Int) (nanos : Nat) : Instant :=
  ⟨seconds * perSecond + nanos⟩

/-- How long after the epoch the instant is, or else how long before it. -/
def sinceEpoch (instant : Instant) : Except Span Span :=
  match instant.nanoseconds with
  | .ofNat passed => .ok (Span.ofNanoseconds passed)
  | .negSucc before => .error (Span.ofNanoseconds (before + 1))

/-- The last whole second not after the instant. On the way back from the epoch, a second
that has been entered counts in full. -/
def wholeSeconds (instant : Instant) : Int :=
  match instant.sinceEpoch with
  | .ok passed => passed.seconds
  | .error before => -before.seconds - if 0 < before.nanos then 1 else 0

/-- Nanoseconds passed since that second. -/
def subsecond (instant : Instant) : Int :=
  instant.nanoseconds.fmod perSecond

theorem whole_seconds_eq_div (instant : Instant) :
    instant.wholeSeconds = instant.nanoseconds / 1000000000 := by
  obtain ⟨nanoseconds⟩ := instant
  cases nanoseconds with
  | ofNat passed => rfl
  | negSucc before =>
      simp only [wholeSeconds, sinceEpoch, Span.ofNanoseconds, Int.negSucc_eq]
      split <;> omega

end Instant

end StorageScenario
