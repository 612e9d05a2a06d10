import Mathlib.Data.List.Basic
import Throttle.Proofs.Words
import Throttle.Text.Lines

/-!
# Lines of a text

A line feed is a byte of its own in UTF-8 and part of no other character. So the lines of
an encoded text are its encoded pieces between line feeds, up to carriage returns, which
are blank.
-/

namespace Throttle.Text

/-! Lines of bytes. -/

theorem pieces_append (first rest : List UInt8) :
    pieces (first ++ 10 :: rest) = pieces (first ++ [10]) ++ pieces rest := by
  induction first with
  | nil => rfl
  | cons b first ih =>
    by_cases hb : b = 10
    · subst b
      exact congrArg ([10] :: ·) ih
    · have hne : pieces (first ++ [10]) ≠ [] := pieces_ne_nil (by simp)
      cases hp : pieces (first ++ [10]) with
      | nil => exact absurd hp hne
      | cons piece others =>
        rw [hp] at ih
        simp only [pieces, List.cons_append, List.foldr_cons, hb, if_false] at ih hp ⊢
        rw [ih, hp]
        rfl

theorem lines_append (first rest : List UInt8) :
    lines (first ++ 10 :: rest) = lines (first ++ [10]) ++ lines rest := by
  rw [lines, pieces_append, List.map_append]
  rfl

theorem pieces_of_unbroken {word rest piece : List UInt8} {others : List (List UInt8)}
    (h : 10 ∉ word) (hrest : pieces rest = piece :: others) :
    pieces (word ++ rest) = (word ++ piece) :: others := by
  induction word with
  | nil => exact hrest
  | cons b word ih =>
    rw [List.mem_cons, not_or] at h
    have hword := ih h.2
    rw [pieces] at hword ⊢
    rw [List.cons_append, List.foldr_cons, hword, if_neg (Ne.symm h.1)]
    rfl

theorem chomp_of_unbroken {word : List UInt8} (h : 10 ∉ word) : chomp word = word := by
  have hr : 10 ∉ word.reverse := by rwa [List.mem_reverse]
  unfold chomp
  split
  · rename_i he
    rw [he] at hr
    exact absurd List.mem_cons_self hr
  · rename_i he
    rw [he] at hr
    exact absurd List.mem_cons_self hr
  · rfl

theorem lines_of_unbroken {word : List UInt8} (h : 10 ∉ word) (hne : word ≠ []) :
    lines word = [word] := by
  obtain ⟨front, b, rfl⟩ := word.eq_nil_or_concat.resolve_left hne
  have hfront : 10 ∉ front ∧ b ≠ 10 := by simpa [eq_comm] using h
  have hb : pieces [b] = [[b]] := by simp [pieces, hfront.2]
  have hpieces : pieces (front.concat b) = [front.concat b] := by
    rw [List.concat_eq_append, pieces_of_unbroken hfront.1 hb]
  rw [lines, hpieces, List.map_singleton, chomp_of_unbroken h]

theorem lines_of_line {word : List UInt8} (h : 10 ∉ word) :
    lines (word ++ [10]) = [chomp (word ++ [10])] :=
  congrArg (List.map chomp) (pieces_of_unbroken h (pieces_newline []))

theorem chomp_crlf (word : List UInt8) : chomp (word ++ [13, 10]) = word := by
  simp [chomp]

theorem chomp_lf {word : List UInt8} (h : word.getLast? ≠ some 13) :
    chomp (word ++ [10]) = word := by
  have hr : (word ++ [10]).reverse = 10 :: word.reverse := by simp
  unfold chomp
  split
  · rename_i he
    have hword := (List.cons.inj (hr.symm.trans he)).2
    rw [← List.head?_reverse, hword] at h
    exact absurd rfl h
  · rename_i he
    rw [← (List.cons.inj (hr.symm.trans he)).2, List.reverse_reverse]
  · rename_i hlf
    exact absurd hr (hlf _)

/-! Encoded characters. -/

theorem toList_eq_toList_data (bytes : ByteArray) : bytes.toList = bytes.data.toList := by
  have hloop : ∀ i acc, ByteArray.toList.loop bytes i acc = acc.reverse ++ bytes.data.toList.drop i := by
    intro i acc
    fun_induction ByteArray.toList.loop bytes i acc with
    | case1 i acc h ih =>
      have hi : i < bytes.data.toList.length := by simpa using h
      rw [ih, List.drop_eq_getElem_cons hi]
      simp [ByteArray.get!, h]
    | case2 i acc h =>
      rw [List.drop_eq_nil_of_le (by simpa using Nat.le_of_not_lt h), List.append_nil]
  rw [ByteArray.toList, hloop]
  rfl

theorem encode_ofList (s : List Char) :
    encode (String.ofList s) = s.flatMap String.utf8EncodeChar := by
  rw [encode, String.toUTF8_eq_toByteArray, String.toByteArray_ofList, toList_eq_toList_data,
    List.utf8Encode, List.toList_data_toByteArray]

theorem encode_append (s t : String) : encode (s ++ t) = encode s ++ encode t := by
  rw [← String.ofList_toList (s := s), ← String.ofList_toList (s := t), ← String.ofList_append]
  simp only [encode_ofList, List.flatMap_append]

theorem decode?_encode (s : String) : decode? (encode s) = some s := by
  have hbytes : (⟨(encode s).toArray⟩ : ByteArray) = s.toByteArray := by
    rw [encode, String.toUTF8_eq_toByteArray, toList_eq_toList_data, Array.toArray_toList]
  rw [decode?, hbytes, String.fromUTF8?, dif_pos s.isValidUTF8]
  rfl

theorem toNat_of_mem_utf8EncodeChar {c : Char} {b : UInt8} (h : b ∈ String.utf8EncodeChar c)
    (hb : b.toNat < 128) : c.toNat = b.toNat := by
  have hc : c.toNat = c.val.toNat := rfl
  unfold String.utf8EncodeChar at h
  dsimp only at h
  split_ifs at h
  · rw [List.mem_singleton] at h
    subst h
    rw [UInt8.toNat_ofNat'] at hb ⊢
    omega
  -- The bytes of a longer encoding all carry the highest bit.
  all_goals
    simp only [List.mem_cons, List.not_mem_nil, or_false] at h
    rcases h with rfl | rfl | rfl | rfl <;>
      · rw [UInt8.toNat_ofNat'] at hb
        omega

theorem mem_of_mem_encode {s : List Char} {c : Char} {b : UInt8} (hb : b.toNat < 128)
    (hc : c.toNat = b.toNat) (h : b ∈ encode (String.ofList s)) : c ∈ s := by
  rw [encode_ofList, List.mem_flatMap] at h
  obtain ⟨d, hd, hbd⟩ := h
  have hval : c.toNat = d.toNat := hc.trans (toNat_of_mem_utf8EncodeChar hbd hb).symm
  rwa [Char.toNat_inj.1 hval]

theorem newline_not_mem_encode {s : List Char} (h : '\n' ∉ s) : 10 ∉ encode (String.ofList s) :=
  fun hb => h (mem_of_mem_encode (by decide) (by decide) hb)

theorem encode_line (s rest : List Char) :
    encode (String.ofList (s ++ '\n' :: rest)) =
      encode (String.ofList s) ++ 10 :: encode (String.ofList rest) := by
  simp only [encode_ofList, List.flatMap_append, List.flatMap_cons]
  rfl

theorem encode_ne_nil {s : List Char} (h : s ≠ []) : encode (String.ofList s) ≠ [] := by
  obtain ⟨c, s, rfl⟩ := List.exists_cons_of_ne_nil h
  rw [encode_ofList, List.flatMap_cons]
  exact List.append_ne_nil_of_left_ne_nil String.utf8EncodeChar_ne_nil _

theorem lines_encode_append {a : String} (ha : a = "" ∨ ∃ s, a = s ++ "\n") (b : String) :
    lines (encode (a ++ b)) = lines (encode a) ++ lines (encode b) := by
  rcases ha with rfl | ⟨s, rfl⟩
  · have hnil : encode "" = [] := encode_ofList []
    rw [hnil, String.empty_append]
    rfl
  · have hfeed : encode "\n" = [10] := encode_ofList ['\n']
    rw [encode_append, encode_append, hfeed, List.append_assoc]
    exact lines_append (encode s) (encode b)

/-! Pieces between line feeds. -/

theorem ne_newline {s : List Char} (h : '\n' ∉ s) : ∀ c ∈ s, ¬ (c == '\n') := by
  intro c hc heq
  rw [beq_iff_eq.1 heq] at hc
  exact h hc

theorem splitAt_of_unbroken {s : List Char} (h : '\n' ∉ s) : splitAt (· == '\n') s = [s] := by
  have hs := splitAt_append (ne_newline h) (splitAt_nil (· == '\n'))
  rwa [List.append_nil] at hs

theorem splitAt_line {s : List Char} (h : '\n' ∉ s) (rest : List Char) :
    splitAt (· == '\n') (s ++ '\n' :: rest) = s :: splitAt (· == '\n') rest := by
  rw [splitAt_append (ne_newline h) (splitAt_cons_pos (by decide) rest), List.append_nil]

/-- What holds of the last line of a text, and of a line before a text that it holds of,
holds of all texts. -/
@[elab_as_elim]
theorem lines_induction {motive : List Char → Prop} (last : ∀ s, '\n' ∉ s → motive s)
    (line : ∀ s rest, '\n' ∉ s → motive rest → motive (s ++ '\n' :: rest)) (text : List Char) :
    motive text := by
  induction hn : text.length using Nat.strongRecOn generalizing text with
  | ind n ih =>
    by_cases h : '\n' ∈ text
    · obtain ⟨s, rest, rfl, hs⟩ := List.eq_append_cons_of_mem h
      refine line s rest hs (ih rest.length ?_ rest rfl)
      rw [← hn, List.length_append, List.length_cons]
      omega
    · exact last text h

theorem trim_concat_blank {c : Char} (h : isBlank c) (s : List Char) : trim (s ++ [c]) = trim s := by
  rw [trim_eq, trim_eq, List.dropWhile_append]
  split
  · rename_i he
    rw [List.isEmpty_iff.1 he, List.dropWhile_cons_of_pos h]
    rfl
  · exact List.rdropWhile_concat_pos _ _ _ h

theorem getLast?_encode_ne {s : List Char} (h : s.getLast? ≠ some '\r') :
    (encode (String.ofList s)).getLast? ≠ some 13 := by
  obtain rfl | ⟨front, c, rfl⟩ := s.eq_nil_or_concat
  · rw [encode_ofList]
    simp
  · rw [List.concat_eq_append, List.getLast?_concat] at h
    intro hb
    rw [encode_ofList, List.concat_eq_append, List.flatMap_append, List.flatMap_singleton,
      List.getLast?_append_of_ne_nil _ String.utf8EncodeChar_ne_nil] at hb
    have hval := toNat_of_mem_utf8EncodeChar (List.mem_of_getLast? hb) (by decide)
    have hc : c = '\r' := Char.toNat_inj.1 hval
    exact h (congrArg some hc)

theorem decode?_chomp (s : List Char) :
    ∃ text, decode? (chomp (encode (String.ofList s) ++ [10])) = some text ∧
      trim text.toList = trim s := by
  -- A carriage return goes with the line feed, and trimming would have dropped it.
  by_cases hr : s.getLast? = some '\r'
  · obtain ⟨front, rfl⟩ := List.getLast?_eq_some_iff.1 hr
    have hbytes : encode (String.ofList (front ++ ['\r'])) ++ [10] =
        encode (String.ofList front) ++ [13, 10] := by
      simp only [encode_ofList, List.flatMap_append, List.append_assoc]
      rfl
    refine ⟨String.ofList front, ?_, ?_⟩
    · rw [hbytes, chomp_crlf, decode?_encode]
    · rw [String.toList_ofList, trim_concat_blank (by decide)]
  · refine ⟨String.ofList s, ?_, by rw [String.toList_ofList]⟩
    rw [chomp_lf (getLast?_encode_ne hr), decode?_encode]

end Throttle.Text
