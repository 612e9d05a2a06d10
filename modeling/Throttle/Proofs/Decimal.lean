import Throttle.Number.Int64

/-!
# Decimal texts

The decimal text of an integer is read back as that integer. Whatever is read as an integer has
only digits after its first character, so that no word is a number.
-/

namespace Throttle

variable {c : Char} {s t : List Char} {base acc d m : Nat} {n : Int}

theorem natFrom_append :
    natFrom base acc (s ++ t) = (natFrom base acc s).bind fun m => natFrom base m t := by
  induction s generalizing acc with
  | nil => rfl
  | cons c s ih =>
    rw [List.cons_append, natFrom, natFrom]
    cases digitValue? base c with
    | none => rfl
    | some d => exact ih

theorem digitValue?_digitChar (h : d < 10) : digitValue? 10 d.digitChar = some d := by
  have digits : ∀ d < 10, digitValue? 10 d.digitChar = some d := by decide
  exact digits d h

theorem natFrom_toDigits (m : Nat) : natFrom 10 0 (Nat.toDigits 10 m) = some m := by
  induction m using Nat.strongRecOn with
  | ind m ih =>
    rcases Nat.lt_or_ge m 10 with hlast | hmore
    · rw [Nat.toDigits_of_lt_base hlast, natFrom, digitValue?_digitChar hlast, Option.bind_some,
        Nat.zero_mul, Nat.zero_add, natFrom]
    · have hdigit := digitValue?_digitChar (Nat.mod_lt m (by decide : 0 < 10))
      rw [Nat.toDigits_of_base_le (by decide) hmore, natFrom_append, ih (m / 10) (by omega),
        Option.bind_some, natFrom, hdigit, Option.bind_some, natFrom]
      exact congrArg some (by omega)

theorem natOf?_toDigits (m : Nat) : natOf? 10 (Nat.toDigits 10 m) = some m := by
  rw [natOf?, if_neg Nat.toDigits_ne_nil, natFrom_toDigits]

theorem ne_sign_of_mem_toDigits (h : c ∈ Nat.toDigits 10 m) : c ≠ '-' ∧ c ≠ '+' := by
  have hdigit := Nat.isDigit_of_mem_toDigits (by decide) (by decide) h
  constructor <;>
  · rintro rfl
    cases hdigit

theorem int64Of?_toDigits (m : Nat) : int64Of? 10 (Nat.toDigits 10 m) = int64? m := by
  unfold int64Of?
  split
  · rename_i digits hdigits
    have hsign : '-' ∈ Nat.toDigits 10 m := by rw [hdigits]; exact List.mem_cons_self ..
    exact absurd rfl (ne_sign_of_mem_toDigits hsign).1
  · rename_i digits hdigits
    have hsign : '+' ∈ Nat.toDigits 10 m := by rw [hdigits]; exact List.mem_cons_self ..
    exact absurd rfl (ne_sign_of_mem_toDigits hsign).2
  · rw [natOf?_toDigits]
    rfl

theorem int64Of?_toString (h : inInt64 n) : int64Of? 10 (toString n).toList = some n := by
  have hfits : int64? n = some n := if_pos h
  rw [Int.toString_eq_repr, Int.repr_eq_if]
  split
  · rename_i hsign
    rw [Nat.toList_repr, int64Of?_toDigits, Int.toNat_of_nonneg hsign, hfits]
  · have habs : -((-n).toNat : Int) = n := by omega
    have htext : ("-" ++ (-n).toNat.repr).toList = '-' :: Nat.toDigits 10 (-n).toNat := by
      rw [String.toList_append, Nat.toList_repr]
      rfl
    rw [htext, int64Of?, natOf?_toDigits, Option.bind_some, habs, hfits]

/-! Texts that are no numbers. -/

theorem isDigit_of_digitValue? (h : digitValue? 10 c = some d) : c.isDigit := by
  simp only [digitValue?] at h
  by_cases hdigit : '0' ≤ c ∧ c ≤ '9'
  · rw [Char.isDigit, Bool.and_eq_true, decide_eq_true_eq, decide_eq_true_eq]
    exact hdigit
  · rw [if_neg hdigit] at h
    have hletter : 10 ≤ if 'a' ≤ c ∧ c ≤ 'z' then c.toNat - 87
        else if 'A' ≤ c ∧ c ≤ 'Z' then c.toNat - 55 else 10 := by
      split
      · rename_i hlower
        have hfirst : 97 ≤ c.toNat := hlower.1
        omega
      · split
        · rename_i hupper
          have hfirst : 65 ≤ c.toNat := hupper.1
          omega
        · exact Nat.le_refl 10
    rw [if_neg (Nat.not_lt.2 hletter)] at h
    cases h

theorem isDigit_of_natFrom (h : natFrom 10 acc s = some m) : ∀ c ∈ s, c.isDigit := by
  induction s generalizing acc with
  | nil => simp
  | cons c s ih =>
    rw [natFrom, Option.bind_eq_some_iff] at h
    obtain ⟨d, hd, hs⟩ := h
    rintro x (_ | ⟨_, hx⟩)
    · exact isDigit_of_digitValue? hd
    · exact ih hs x hx

theorem isDigit_of_natOf? (h : natOf? 10 s = some m) : ∀ c ∈ s, c.isDigit := by
  unfold natOf? at h
  split at h
  · cases h
  · exact isDigit_of_natFrom h

theorem isDigit_of_int64Of? (h : int64Of? 10 s = some n) : ∀ c ∈ s.tail, c.isDigit := by
  unfold int64Of? at h
  split at h
  · obtain ⟨m, hm, -⟩ := Option.bind_eq_some_iff.1 h
    exact isDigit_of_natOf? hm
  · obtain ⟨m, hm, -⟩ := Option.bind_eq_some_iff.1 h
    exact isDigit_of_natOf? hm
  · obtain ⟨m, hm, -⟩ := Option.bind_eq_some_iff.1 h
    exact fun c hc => isDigit_of_natOf? hm c (List.mem_of_mem_tail hc)

theorem toLower_of_isDigit (h : c.isDigit) : c.toLower = c := by
  simp only [Char.isDigit, Bool.and_eq_true, decide_eq_true_eq] at h
  unfold Char.toLower
  rw [dif_neg]
  rintro ⟨hupper, -⟩
  have hlast : c.toNat ≤ 57 := h.2
  have hfirst : 65 ≤ c.toNat := hupper
  omega

theorem map_toLower_ne (h : int64Of? 10 s = some n) (hword : ∃ c ∈ t.tail, ¬ c.isDigit) :
    s.map Char.toLower ≠ t := by
  rintro rfl
  obtain ⟨c, hc, hletter⟩ := hword
  rw [← List.map_tail, List.mem_map] at hc
  obtain ⟨d, hd, rfl⟩ := hc
  have hdigit := isDigit_of_int64Of? h d hd
  rw [toLower_of_isDigit hdigit] at hletter
  exact hletter hdigit

end Throttle
