/-!
Time as the library measures it.

A duration is a whole number of nanoseconds. An instant is a signed number of
nanoseconds from the origin of the clock, so there are instants before the
origin. Elapsed time never goes below zero: a clock that was set back reads as
if no time had passed.

Timers go off at whole milliseconds of the clock (`Instant.due`): never before
their time is up, and less than a millisecond after it.
-/

namespace Bulwark

structure Duration where
  nanos : Nat
  deriving DecidableEq, Repr, Inhabited

/-- A point of time, counted from the origin of the clock. -/
structure Instant where
  nanos : Int
  deriving DecidableEq, Repr, Inhabited

namespace Duration

def zero : Duration := ⟨0⟩

def ofMillis (millis : Nat) : Duration := ⟨millis * 1000000⟩

def ofParts (seconds nanos : Nat) : Duration := ⟨seconds * 1000000000 + nanos⟩

def millis (d : Duration) : Nat := d.nanos / 1000000

def parts (d : Duration) : Nat × Nat := (d.nanos / 1000000000, d.nanos % 1000000000)

end Duration

namespace Instant

def origin : Instant := ⟨0⟩

def later (t : Instant) (d : Duration) : Instant := ⟨t.nanos + d.nanos⟩

def elapsed (since now : Instant) : Duration := ⟨(now.nanos - since.nanos).toNat⟩

/-- A positive time has passed iff the clock shows at least the start plus that time. -/
theorem le_elapsed_iff {since now : Instant} {d : Duration} (positive : 0 < d.nanos) :
    d.nanos ≤ (elapsed since now).nanos ↔ (since.later d).nanos ≤ now.nanos := by
  simp only [elapsed, later]
  omega

/-- The first whole millisecond of the clock that is not before an instant. -/
def tick (t : Instant) : Instant := ⟨(t.nanos + 999999) / 1000000 * 1000000⟩

/-- When a timer goes off that was set at an instant for a duration. -/
def due (t : Instant) (d : Duration) : Instant := (t.later d).tick

/-- A timer is never early. -/
theorem later_le_due (t : Instant) (d : Duration) : (t.later d).nanos ≤ (t.due d).nanos := by
  simp only [due, tick]
  omega

/-- A timer is less than a millisecond late. -/
theorem due_lt (t : Instant) (d : Duration) :
    (t.due d).nanos < (t.later d).nanos + 1000000 := by
  simp only [due, tick]
  omega

/-- A timer whose time is up at a whole millisecond goes off at once. -/
theorem due_eq_later {t : Instant} {d : Duration} (whole : (t.later d).nanos % 1000000 = 0) :
    t.due d = t.later d := by
  have same : ((t.later d).nanos + 999999) / 1000000 * 1000000 = (t.later d).nanos := by omega
  simp only [due, tick, same]

/-- On a clock that was not set back, elapsed time is the difference. -/
theorem nanos_elapsed {since now : Instant} (onward : since.nanos ≤ now.nanos) :
    ((elapsed since now).nanos : Int) = now.nanos - since.nanos := by
  simp only [elapsed]
  omega

end Instant

end Bulwark
