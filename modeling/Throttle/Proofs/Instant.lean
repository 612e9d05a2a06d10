import Mathlib.Order.Basic
import Throttle.Time.Clock

/-!
# The order of instants

Instants are ordered like their nanoseconds. An instant has a next one unless it is
the last.
-/

namespace Throttle
namespace Instant

instance : LinearOrder Instant where
  le := (· ≤ ·)
  lt := (· < ·)
  le_refl t := Int.le_refl t.ns
  le_trans _ _ _ hst htu := Int.le_trans hst htu
  le_antisymm _ _ hst hts := Instant.ext (Int.le_antisymm hst hts)
  le_total s t := Int.le_total s.ns t.ns
  lt_iff_le_not_ge _ _ := Int.lt_iff_le_and_not_ge
  toDecidableLE s t := inferInstanceAs (Decidable (s.ns ≤ t.ns))

theorem next?_eq_some_iff {t u : Instant} : t.next? = some u ↔ u.ns = t.ns + 1 :=
  after?_eq_some_iff

theorem next?_eq_none_iff {t : Instant} : t.next? = none ↔ t = latest := by
  have hu := t.upper
  have hl := t.lower
  constructor
  · intro h
    have hn : ¬ t.ns + 1 ≤ 8210266876799999999999 := by
      intro hle
      have hs : t.next? = some ⟨t.ns + 1, by omega, hle⟩ := next?_eq_some_iff.2 rfl
      rw [h] at hs
      cases hs
    ext
    change t.ns = 8210266876799999999999
    omega
  · rintro rfl
    rfl

theorem ofNs?_eq_none_iff {n : Int} : ofNs? n = none ↔ n < earliest.ns ∨ latest.ns < n := by
  unfold ofNs?
  split
  · rename_i h
    simp only [reduceCtorEq, false_iff]
    simp only [earliest, latest]
    omega
  · rename_i h
    simp only [true_iff]
    simp only [earliest, latest]
    omega

theorem afterOrLatest_ns {t : Instant} {d : Span} (hd : 0 ≤ d.ns) :
    (t.afterOrLatest d).ns = min (t.ns + d.ns) latest.ns := by
  have hl := le_iff.1 (earliest_le t)
  unfold afterOrLatest
  cases h : t.after? d with
  | none =>
    have hn := ofNs?_eq_none_iff.1 h
    rw [Option.getD_none]
    omega
  | some u =>
    have hu := le_iff.1 (le_latest u)
    have hns := after?_eq_some_iff.1 h
    rw [Option.getD_some]
    omega

def ofNs (n : Int) : Instant := (ofNs? n).getD latest

end Instant

def Span.second : Span := ⟨1000000000, by decide, by decide⟩

end Throttle
