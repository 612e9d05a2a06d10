import Throttle.Time.Instant

/-!
# Clocks

An operation sees the clock as the list of readings it would get, one for each
time it samples. What an operation took is a number of samples, so the clock for
the next operation starts that many readings later.
-/

namespace Throttle

structure Clock where
  reading : Nat → Instant

namespace Clock

def now (c : Clock) : Instant := c.reading 0

def skip (c : Clock) (n : Nat) : Clock := ⟨fun i => c.reading (n + i)⟩

def still (t : Instant) : Clock := ⟨fun _ => t⟩

theorem skip_zero (c : Clock) : c.skip 0 = c := by simp [skip]
theorem skip_skip (c : Clock) (m n : Nat) : (c.skip m).skip n = c.skip (m + n) := by
  simp [skip, Nat.add_assoc]
theorem reading_still (t : Instant) (i : Nat) : (still t).reading i = t := rfl
theorem skip_still (t : Instant) (n : Nat) : (still t).skip n = still t := rfl

end Clock

/-- A clock moved by hand. After each sample it moves by `pace`, which is zero for
a clock that stands still. -/
structure PacedClock where
  reading : Instant
  pace : Span

namespace PacedClock

def set (c : PacedClock) (t : Instant) : PacedClock := { c with reading := t }
def setPace (c : PacedClock) (d : Span) : PacedClock := { c with pace := d }

def advance? (c : PacedClock) (d : Span) : Option PacedClock :=
  (c.reading.after? d).map c.set

/-- A reading that would leave the range of instants stays at its nearer end. -/
def readingAt (c : PacedClock) (i : Nat) : Instant :=
  match Instant.ofNs? (c.reading.ns + i * c.pace.ns) with
  | some t => t
  | none => if c.pace.ns < 0 then .earliest else .latest

def clock (c : PacedClock) : Clock := ⟨c.readingAt⟩

def afterSamples (c : PacedClock) (n : Nat) : PacedClock := c.set (c.readingAt n)

end PacedClock
end Throttle
