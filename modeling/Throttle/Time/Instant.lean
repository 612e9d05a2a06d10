/-!
# Instants and spans

Instants are counted in nanoseconds from the start of 1970 and run from the first
moment of the year -262143 to the last nanosecond of the year 262142. Spans are
signed and reach `2 ^ 63 - 1` milliseconds either way, far enough to hold the
distance of any two instants. Arithmetic that would leave either range has no
result, and no operation wraps.
-/

namespace Throttle

structure Span where
  ns : Int
  lower : -9223372036854775807000000 ≤ ns
  upper : ns ≤ 9223372036854775807000000
  deriving DecidableEq

namespace Span

@[ext] theorem ext {d e : Span} (h : d.ns = e.ns) : d = e := by
  cases d; cases e; simp_all

instance : LT Span := ⟨fun d e => d.ns < e.ns⟩
instance (d e : Span) : Decidable (d < e) := inferInstanceAs (Decidable (d.ns < e.ns))

def ofNs? (n : Int) : Option Span :=
  if h : -9223372036854775807000000 ≤ n ∧ n ≤ 9223372036854775807000000 then
    some ⟨n, h.1, h.2⟩
  else none

def ofSeconds? (n : Int) : Option Span := ofNs? (n * 1000000000)

def zero : Span := ⟨0, by decide, by decide⟩
def longest : Span := ⟨9223372036854775807000000, by decide, by decide⟩

def unit : Span := ⟨1, by decide, by decide⟩

def nudgeLimit : Nat := 1000

/-- Entries this close past a cutoff count as expired, so that a moved instant
does not flicker at the edge of a window. -/
def tolerance : Span := ⟨1000, by decide, by decide⟩

/-- Whole seconds, rounded up from whole milliseconds; a part of a millisecond is
dropped first. Nothing is left of a span that is not positive. -/
def wholeSeconds (d : Span) : Nat :=
  if d.ns ≤ 0 then 0 else (d.ns.toNat / 1000000 + 999) / 1000

end Span

structure Instant where
  ns : Int
  lower : -8334601228800000000000 ≤ ns
  upper : ns ≤ 8210266876799999999999
  deriving DecidableEq

namespace Instant

@[ext] theorem ext {s t : Instant} (h : s.ns = t.ns) : s = t := by
  cases s; cases t; simp_all

instance : LE Instant := ⟨fun s t => s.ns ≤ t.ns⟩
instance : LT Instant := ⟨fun s t => s.ns < t.ns⟩
instance (s t : Instant) : Decidable (s ≤ t) := inferInstanceAs (Decidable (s.ns ≤ t.ns))
instance (s t : Instant) : Decidable (s < t) := inferInstanceAs (Decidable (s.ns < t.ns))

theorem le_iff {s t : Instant} : s ≤ t ↔ s.ns ≤ t.ns := Iff.rfl
theorem lt_iff {s t : Instant} : s < t ↔ s.ns < t.ns := Iff.rfl

def ofNs? (n : Int) : Option Instant :=
  if h : -8334601228800000000000 ≤ n ∧ n ≤ 8210266876799999999999 then
    some ⟨n, h.1, h.2⟩
  else none

theorem ofNs?_eq_some_iff {n : Int} {t : Instant} : ofNs? n = some t ↔ t.ns = n := by
  unfold ofNs?
  split
  · simp [Instant.ext_iff, eq_comm]
  · rename_i h
    constructor
    · simp
    · intro e
      exact absurd ⟨e ▸ t.lower, e ▸ t.upper⟩ h

def earliest : Instant := ⟨-8334601228800000000000, by decide, by decide⟩
def latest : Instant := ⟨8210266876799999999999, by decide, by decide⟩

theorem earliest_le (t : Instant) : earliest ≤ t := t.lower
theorem le_latest (t : Instant) : t ≤ latest := t.upper

def after? (t : Instant) (d : Span) : Option Instant := ofNs? (t.ns + d.ns)
def before? (t : Instant) (d : Span) : Option Instant := ofNs? (t.ns - d.ns)

theorem after?_eq_some_iff {t u : Instant} {d : Span} :
    t.after? d = some u ↔ u.ns = t.ns + d.ns := ofNs?_eq_some_iff
theorem before?_eq_some_iff {t u : Instant} {d : Span} :
    t.before? d = some u ↔ u.ns = t.ns - d.ns := ofNs?_eq_some_iff

def next? (t : Instant) : Option Instant := t.after? Span.unit

def afterOrLatest (t : Instant) (d : Span) : Instant := (t.after? d).getD latest

def since (t s : Instant) : Span :=
  ⟨t.ns - s.ns, by have := t.lower; have := s.upper; omega,
    by have := t.upper; have := s.lower; omega⟩

theorem since_ns (t s : Instant) : (t.since s).ns = t.ns - s.ns := rfl

end Instant
end Throttle
