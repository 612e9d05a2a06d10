import Mathlib.Data.List.GetD
import Mathlib.Data.List.Nodup
import Throttle.Access
import Throttle.Proofs.Words

/-!
# Reading base64

What base64 writes can be read back, so different bytes are written differently. It is one
word, since neither the alphabet nor the padding holds a blank.
-/

namespace Throttle.Text.Base64

def value (c : Char) : Nat := alphabet.idxOf c

def decode : List Char → List UInt8
  | a :: b :: c :: d :: rest =>
    let first := value a * 64 + value b
    if c = padding then [.ofNat (first / 16)]
    else if d = padding then
      let n := (first * 64 + value c) / 4
      [.ofNat (n / 256), .ofNat n]
    else
      let n := (first * 64 + value c) * 64 + value d
      .ofNat (n / 65536) :: .ofNat (n / 256) :: .ofNat n :: decode rest
  | _ => []

theorem nodup_alphabet : alphabet.Nodup := by decide

theorem padding_not_mem_alphabet : padding ∉ alphabet := by decide

theorem digit_eq_getElem (n : Nat) :
    ∃ h : n % 64 < alphabet.length, digit n = alphabet[n % 64] := by
  have h : n % 64 < alphabet.length := by
    rw [length_alphabet]
    exact Nat.mod_lt n (by decide)
  exact ⟨h, List.getD_eq_getElem alphabet padding h⟩

theorem digit_mem_alphabet (n : Nat) : digit n ∈ alphabet := by
  obtain ⟨h, hdigit⟩ := digit_eq_getElem n
  rw [hdigit]
  exact List.getElem_mem h

theorem digit_ne_padding (n : Nat) : digit n ≠ padding :=
  ne_of_mem_of_not_mem (digit_mem_alphabet n) padding_not_mem_alphabet

theorem value_digit (n : Nat) : value (digit n) = n % 64 := by
  obtain ⟨h, hdigit⟩ := digit_eq_getElem n
  rw [value, hdigit]
  exact nodup_alphabet.idxOf_getElem _ h

theorem ofNat_eq {n : Nat} {b : UInt8} (h : n % 256 = b.toNat) : UInt8.ofNat n = b := by
  rw [← UInt8.toNat_inj, UInt8.toNat_ofNat']
  exact h

theorem decode_encode (bytes : List UInt8) : decode (encode bytes) = bytes := by
  fun_induction encode bytes with
  | case1 => rfl
  | case2 a n =>
    have ha := a.toNat_lt
    simp only [decode, value_digit, if_true]
    rw [ofNat_eq (b := a) (by omega)]
  | case3 a b n =>
    have ha := a.toNat_lt
    have hb := b.toNat_lt
    simp only [decode, value_digit, digit_ne_padding, if_true, if_false]
    rw [ofNat_eq (b := a) (by omega), ofNat_eq (b := b) (by omega)]
  | case4 a b c rest n ih =>
    have ha := a.toNat_lt
    have hb := b.toNat_lt
    have hc := c.toNat_lt
    simp only [decode, value_digit, digit_ne_padding, if_false]
    rw [ofNat_eq (b := a) (by omega), ofNat_eq (b := b) (by omega), ofNat_eq (b := c) (by omega), ih]

theorem encode_injective : Function.Injective encode :=
  Function.LeftInverse.injective decode_encode

theorem mem_encode {bytes : List UInt8} {c : Char} (h : c ∈ encode bytes) :
    c = padding ∨ c ∈ alphabet := by
  fun_induction encode bytes with
  | case1 => cases h
  | case2 a n =>
    simp only [List.mem_cons, List.not_mem_nil, or_false] at h
    rcases h with rfl | rfl | rfl | rfl <;> simp [digit_mem_alphabet]
  | case3 a b n =>
    simp only [List.mem_cons, List.not_mem_nil, or_false] at h
    rcases h with rfl | rfl | rfl | rfl <;> simp [digit_mem_alphabet]
  | case4 a b c rest n ih =>
    simp only [List.mem_cons] at h
    rcases h with rfl | rfl | rfl | rfl | h
    · exact .inr (digit_mem_alphabet _)
    · exact .inr (digit_mem_alphabet _)
    · exact .inr (digit_mem_alphabet _)
    · exact .inr (digit_mem_alphabet _)
    · exact ih h

theorem isWord_encode {bytes : List UInt8} (h : bytes ≠ []) : IsWord (encode bytes) where
  ne_nil hnil := h (encode_injective (hnil.trans encode_nil.symm))
  solid c hc := by
    have hall : alphabet.all (!isBlank ·) = true := by decide
    rcases mem_encode hc with rfl | hc
    · rfl
    · simpa using List.all_eq_true.1 hall c hc

end Throttle.Text.Base64
