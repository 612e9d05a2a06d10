import Mathlib.Data.List.Chain
import Mathlib.Data.List.DropRight
import Throttle.Text.Blank

/-!
# Words of a text

A text is empty, starts with a blank, or starts with a word that ends before a blank or with
the text. The words are read off one after the other in this way, so no blank beside a
blank or at an end of the text changes them. Words joined by spaces are the words of what
they make, and a text is joined from its words exactly if it is single-spaced.
-/

namespace Throttle.Text

variable {s t gap word rest : List Char}

def Blank (s : List Char) : Prop := ∀ c ∈ s, isBlank c = true

structure IsWord (word : List Char) : Prop where
  ne_nil : word ≠ []
  solid : ∀ c ∈ word, isBlank c = false

def Ends (s : List Char) : Prop := ∀ c ∈ s.head?, isBlank c = true

def Apart (s t : List Char) : Prop :=
  ∀ c ∈ s.getLast?, ∀ d ∈ t.head?, isBlank c = true ∨ isBlank d = true

/-- The first word of a text, and what follows it. -/
def Leads (s word rest : List Char) : Prop :=
  ∃ gap, Blank gap ∧ IsWord word ∧ Ends rest ∧ s = gap ++ word ++ rest

def join (words : List (List Char)) : List Char := [' '].intercalate words

/-- Every blank is a space with a word on both sides. -/
structure SingleSpaced (s : List Char) : Prop where
  first : ∀ c ∈ s.head?, isBlank c = false
  last : ∀ c ∈ s.getLast?, isBlank c = false
  spaces : ∀ c ∈ s, isBlank c = true → c = ' '
  apart : s.IsChain fun c d => ¬ (isBlank c = true ∧ isBlank d = true)

instance : Decidable (Blank s) := decidable_of_iff (s.all isBlank = true) List.all_eq_true

instance : Decidable (Ends s) :=
  decidable_of_iff (s.head?.all isBlank = true) (by simp [Ends, Option.all_eq_true])

instance : Decidable (Apart s t) :=
  decidable_of_iff (s.getLast?.all (fun c => t.head?.all fun d => isBlank c || isBlank d) = true)
    (by simp [Apart, Option.all_eq_true])

instance : Decidable (IsWord s) :=
  decidable_of_iff (s ≠ [] ∧ s.all (!isBlank ·) = true)
    ⟨fun h => ⟨h.1, by simpa using h.2⟩, fun h => ⟨h.1, by simpa using h.2⟩⟩

theorem isBlank_space : isBlank ' ' = true := rfl

theorem ends_nil : Ends [] := fun c hc => by cases hc

theorem ends_of_blank {c : Char} (h : isBlank c = true) (s : List Char) : Ends (c :: s) := by
  intro d hd
  cases hd
  exact h

/-! One word after the other. -/

theorem splitAt_append {p : Char → Bool} {piece : List Char} {others : List (List Char)}
    (h : ∀ c ∈ word, ¬ p c) (hs : splitAt p s = piece :: others) :
    splitAt p (word ++ s) = (word ++ piece) :: others := by
  induction word with
  | nil => exact hs
  | cons c word ih =>
    obtain ⟨hc, hword⟩ := List.forall_mem_cons.1 h
    rw [List.cons_append, splitAt_cons_neg hc, ih hword]
    rfl

theorem words_nil : words [] = [] := rfl

theorem words_cons_blank {c : Char} (h : isBlank c = true) (s : List Char) :
    words (c :: s) = words s := by
  rw [words, splitAt_cons_pos h]
  rfl

theorem words_append_blank_left (h : Blank gap) (s : List Char) : words (gap ++ s) = words s := by
  induction gap with
  | nil => rfl
  | cons c gap ih =>
    obtain ⟨hc, hgap⟩ := List.forall_mem_cons.1 h
    rw [List.cons_append, words_cons_blank hc, ih hgap]

theorem words_of_blank (h : Blank gap) : words gap = [] := by
  have hall := words_append_blank_left h []
  rwa [List.append_nil] at hall

theorem words_word_append (hw : IsWord word) (hs : Ends s) :
    words (word ++ s) = word :: words s := by
  have hsolid : ∀ c ∈ word, ¬ isBlank c = true := fun c hc => by simp [hw.solid c hc]
  have hkept (others : List (List Char)) :
      (word :: others).filter (fun piece => !piece.isEmpty) =
        word :: others.filter (fun piece => !piece.isEmpty) := by
    simp [hw.ne_nil]
  cases s with
  | nil =>
    rw [words, splitAt_append hsolid (splitAt_nil _), List.append_nil, hkept]
    rfl
  | cons c s =>
    have hc : isBlank c = true := hs c rfl
    rw [words, splitAt_append hsolid (splitAt_cons_pos hc s), List.append_nil, hkept,
      words_cons_blank hc]
    rfl

theorem words_word_space (hw : IsWord word) (s : List Char) :
    words (word ++ ' ' :: s) = word :: words s := by
  rw [words_word_append hw (ends_of_blank isBlank_space s), words_cons_blank isBlank_space]

theorem words_word (hw : IsWord word) : words word = [word] := by
  have hall := words_word_append hw ends_nil
  rwa [List.append_nil] at hall

theorem exists_word_append {c : Char} (hc : isBlank c = false) (s : List Char) :
    ∃ w rest, IsWord (c :: w) ∧ Ends rest ∧ s = w ++ rest := by
  induction s generalizing c with
  | nil => exact ⟨[], [], ⟨by simp, by simpa using hc⟩, ends_nil, rfl⟩
  | cons d s ih =>
    cases hd : isBlank d with
    | true => exact ⟨[], d :: s, ⟨by simp, by simpa using hc⟩, ends_of_blank hd s, rfl⟩
    | false =>
      obtain ⟨w, rest, hw, hrest, rfl⟩ := ih hd
      exact ⟨d :: w, rest, ⟨by simp, List.forall_mem_cons.2 ⟨hc, hw.solid⟩⟩, hrest, rfl⟩

@[elab_as_elim]
theorem words_induction {motive : List Char → Prop} (nil : motive [])
    (blank : ∀ c s, isBlank c = true → motive s → motive (c :: s))
    (word : ∀ w s, IsWord w → Ends s → motive s → motive (w ++ s)) (s : List Char) : motive s := by
  -- A word takes more than one character off, so the induction is on the length.
  induction hn : s.length using Nat.strongRecOn generalizing s with
  | ind n ih =>
    cases s with
    | nil => exact nil
    | cons c s =>
      rw [List.length_cons] at hn
      cases hc : isBlank c with
      | true => exact blank c s hc (ih s.length (by omega) s rfl)
      | false =>
        obtain ⟨w, rest, hw, hrest, rfl⟩ := exists_word_append hc s
        rw [List.length_append] at hn
        exact word (c :: w) rest hw hrest (ih rest.length (by omega) rest rfl)

theorem isWord_of_mem_words (h : word ∈ words s) : IsWord word := by
  induction s using words_induction with
  | nil => cases h
  | blank c s hc ih =>
    rw [words_cons_blank hc] at h
    exact ih h
  | word w s hw hs ih =>
    rw [words_word_append hw hs] at h
    rcases List.mem_cons.1 h with rfl | h
    · exact hw
    · exact ih h

theorem mem_of_mem_words (h : word ∈ words s) : ∀ c ∈ word, c ∈ s := by
  induction s using words_induction with
  | nil => cases h
  | blank c s hc ih =>
    rw [words_cons_blank hc] at h
    exact fun d hd => List.mem_cons_of_mem c (ih h d hd)
  | word w s hw hs ih =>
    rw [words_word_append hw hs] at h
    rcases List.mem_cons.1 h with rfl | h
    · exact fun d hd => List.mem_append_left s hd
    · exact fun d hd => List.mem_append_right w (ih h d hd)

theorem leads_word (hw : IsWord word) (hrest : Ends rest) : Leads (word ++ rest) word rest :=
  ⟨[], by simp [Blank], hw, hrest, rfl⟩

theorem Leads.cons_blank {c : Char} (hc : isBlank c = true) (h : Leads s word rest) :
    Leads (c :: s) word rest := by
  obtain ⟨gap, hgap, hword, hrest, rfl⟩ := h
  exact ⟨c :: gap, List.forall_mem_cons.2 ⟨hc, hgap⟩, hword, hrest, rfl⟩

theorem words_of_leads (h : Leads s word rest) : words s = word :: words rest := by
  obtain ⟨gap, hgap, hword, hrest, rfl⟩ := h
  rw [List.append_assoc, words_append_blank_left hgap, words_word_append hword hrest]

theorem exists_leads {others : List (List Char)} (h : words s = word :: others) :
    ∃ rest, Leads s word rest ∧ words rest = others := by
  induction s using words_induction with
  | nil => cases h
  | blank c s hc ih =>
    rw [words_cons_blank hc] at h
    obtain ⟨rest, hleads, hothers⟩ := ih h
    exact ⟨rest, hleads.cons_blank hc, hothers⟩
  | word w s hw hs ih =>
    rw [words_word_append hw hs] at h
    obtain ⟨rfl, hothers⟩ := List.cons.inj h
    exact ⟨s, leads_word hw hs, hothers⟩

theorem words_eq_nil_iff : words s = [] ↔ Blank s := by
  refine ⟨fun h => ?_, words_of_blank⟩
  induction s using words_induction with
  | nil => exact fun c hc => by cases hc
  | blank c s hc ih =>
    rw [words_cons_blank hc] at h
    exact List.forall_mem_cons.2 ⟨hc, ih h⟩
  | word w s hw hs =>
    rw [words_word_append hw hs] at h
    cases h

/-! Texts side by side. -/

theorem Apart.of_append (h : Apart (s ++ t) rest) : Apart t rest := by
  intro c hc d hd
  refine h c ?_ d hd
  rw [Option.mem_def] at hc ⊢
  rw [List.getLast?_append, hc, Option.some_or]

theorem Apart.ends (h : Apart word rest) (hw : IsWord word) : Ends rest := by
  intro d hd
  obtain ⟨front, c, rfl⟩ := word.eq_nil_or_concat.resolve_left hw.ne_nil
  have hc : isBlank c = false := hw.solid c (by simp)
  have hor := h c (by simp) d hd
  rw [hc] at hor
  exact hor.resolve_left Bool.false_ne_true

theorem words_append (h : Apart s t) : words (s ++ t) = words s ++ words t := by
  induction s using words_induction with
  | nil => rfl
  | blank c s hc ih =>
    have hs : Apart s t := Apart.of_append (s := [c]) h
    rw [List.cons_append, words_cons_blank hc, words_cons_blank hc, ih hs]
  | word w s hw hs ih =>
    have hends : Ends (s ++ t) := by
      cases s with
      | nil => exact Apart.ends (by simpa using h) hw
      | cons c s => exact hs
    rw [List.append_assoc, words_word_append hw hends, words_word_append hw hs, ih h.of_append,
      List.cons_append]

theorem Blank.apart_right (h : Blank gap) (s : List Char) : Apart s gap :=
  fun _ _ d hd => .inr (h d (List.mem_of_head? hd))

theorem words_append_blank_right (h : Blank gap) (s : List Char) : words (s ++ gap) = words s := by
  rw [words_append (h.apart_right s), words_of_blank h, List.append_nil]

theorem words_insert (h : Apart s t) (hgap : Blank gap) : words (s ++ gap ++ t) = words (s ++ t) := by
  have hright : Apart (s ++ gap) t := by
    intro c hc d hd
    rw [Option.mem_def, List.getLast?_append] at hc
    cases hlast : gap.getLast? with
    | none =>
      rw [hlast, Option.none_or] at hc
      exact h c hc d hd
    | some b =>
      rw [hlast, Option.some_or] at hc
      cases hc
      exact .inl (hgap _ (List.mem_of_getLast? hlast))
  rw [words_append hright, words_append_blank_right hgap, words_append h]

/-! Trimmed texts. -/

theorem trim_eq (s : List Char) : trim s = (s.dropWhile isBlank).rdropWhile isBlank := rfl

theorem words_trim (s : List Char) : words (trim s) = words s := by
  have hfront : Blank (s.takeWhile isBlank) := fun c hc => List.mem_takeWhile_imp hc
  have hback : Blank ((s.dropWhile isBlank).rtakeWhile isBlank) := fun c hc => List.mem_rtakeWhile_imp hc
  calc words (trim s)
      = words (trim s ++ (s.dropWhile isBlank).rtakeWhile isBlank) :=
        (words_append_blank_right hback _).symm
    _ = words (s.dropWhile isBlank) := by rw [trim_eq, List.rdropWhile_append_rtakeWhile]
    _ = words (s.takeWhile isBlank ++ s.dropWhile isBlank) :=
        (words_append_blank_left hfront _).symm
    _ = words s := by rw [List.takeWhile_append_dropWhile]

theorem head?_trim {c : Char} (h : c ∈ (trim s).head?) : isBlank c = false := by
  have hprefix : trim s <+: s.dropWhile isBlank := List.rdropWhile_prefix _ _
  obtain ⟨tail, ht⟩ := hprefix
  have hc : (s.dropWhile isBlank).head? = some c := by
    rw [← ht, List.head?_append, Option.mem_def.1 h, Option.some_or]
  have hnot := List.head?_dropWhile_not isBlank s
  rw [hc] at hnot
  exact hnot

theorem trim_eq_nil_iff : trim s = [] ↔ words s = [] := by
  rw [← words_trim s]
  constructor
  · intro h
    rw [h, words_nil]
  · intro h
    cases htrim : trim s with
    | nil => rfl
    | cons c tail =>
      have hc : isBlank c = true := words_eq_nil_iff.1 h c (htrim ▸ List.mem_cons_self)
      have hfirst : c ∈ (trim s).head? := by rw [htrim, List.head?_cons, Option.mem_def]
      rw [head?_trim hfirst] at hc
      cases hc

/-! Words joined by spaces. -/

theorem join_cons {others : List (List Char)} (h : others ≠ []) (word : List Char) :
    join (word :: others) = word ++ ' ' :: join others := by
  rw [join, List.intercalate_cons_of_ne_nil h, List.append_assoc]
  rfl

theorem words_join {ws : List (List Char)} (h : ∀ w ∈ ws, IsWord w) : words (join ws) = ws := by
  induction ws with
  | nil => rfl
  | cons w ws ih =>
    obtain ⟨hw, hws⟩ := List.forall_mem_cons.1 h
    by_cases hne : ws = []
    · rw [hne, join, List.intercalate_singleton, words_word hw]
    · rw [join_cons hne, words_word_space hw, ih hws]

theorem join_eq_nil_iff {ws : List (List Char)} (h : ∀ w ∈ ws, IsWord w) : join ws = [] ↔ ws = [] := by
  constructor
  · intro hnil
    have hwords := words_join h
    rw [hnil, words_nil] at hwords
    exact hwords.symm
  · rintro rfl
    rfl

theorem singleSpaced_nil : SingleSpaced [] where
  first := by simp
  last := by simp
  spaces := by simp
  apart := .nil

theorem IsWord.singleSpaced (h : IsWord word) : SingleSpaced word where
  first c hc := h.solid c (List.mem_of_head? hc)
  last c hc := h.solid c (List.mem_of_getLast? hc)
  spaces c hc hblank := by
    rw [h.solid c hc] at hblank
    cases hblank
  apart := by
    refine (List.pairwise_of_forall_mem_list fun c hc d _ => ?_).isChain
    rw [h.solid c hc]
    exact fun hboth => Bool.false_ne_true hboth.1

theorem SingleSpaced.word_space (hw : IsWord word) (hne : s ≠ []) (hs : SingleSpaced s) :
    SingleSpaced (word ++ ' ' :: s) where
  first c hc := by
    rw [Option.mem_def, List.head?_append_of_ne_nil _ hw.ne_nil] at hc
    exact hw.singleSpaced.first c hc
  last c hc := by
    rw [Option.mem_def, List.getLast?_append_cons, List.getLast?_cons_of_ne_nil hne] at hc
    exact hs.last c hc
  spaces c hc hblank := by
    rcases List.mem_append.1 hc with hc | hc
    · exact hw.singleSpaced.spaces c hc hblank
    · rcases List.mem_cons.1 hc with rfl | hc
      · rfl
      · exact hs.spaces c hc hblank
  apart := by
    refine List.isChain_append.2 ⟨hw.singleSpaced.apart, ?_, ?_⟩
    · exact List.isChain_cons.2 ⟨fun d hd hboth => by simp [hs.first d hd] at hboth, hs.apart⟩
    · intro c hc d _ hboth
      simp [hw.singleSpaced.last c hc] at hboth

theorem singleSpaced_join {ws : List (List Char)} (h : ∀ w ∈ ws, IsWord w) :
    SingleSpaced (join ws) := by
  induction ws with
  | nil => exact singleSpaced_nil
  | cons w ws ih =>
    obtain ⟨hw, hws⟩ := List.forall_mem_cons.1 h
    by_cases hne : ws = []
    · rw [hne, join, List.intercalate_singleton]
      exact hw.singleSpaced
    · rw [join_cons hne]
      exact .word_space hw (mt (join_eq_nil_iff hws).1 hne) (ih hws)

theorem SingleSpaced.of_append {c : Char} (h : SingleSpaced (word ++ c :: s))
    (hc : isBlank c = true) : s ≠ [] ∧ SingleSpaced s := by
  obtain ⟨hnext, hs⟩ := List.isChain_cons.1 (List.isChain_append.1 h.apart).2.1
  have hne : s ≠ [] := by
    rintro rfl
    have hlast := h.last c (by simp)
    rw [hc] at hlast
    cases hlast
  refine ⟨hne, fun d hd => ?_, fun d hd => ?_, fun d hd => ?_, hs⟩
  · rw [← Bool.not_eq_true]
    exact fun hd' => hnext d hd ⟨hc, hd'⟩
  · apply h.last d
    rwa [Option.mem_def, List.getLast?_append_cons, List.getLast?_cons_of_ne_nil hne]
  · exact h.spaces d (List.mem_append_right _ (List.mem_cons_of_mem _ hd))

theorem join_of_singleSpaced {ws : List (List Char)} (hws : words s = ws) (h : SingleSpaced s) :
    join ws = s := by
  induction ws generalizing s with
  | nil =>
    cases s with
    | nil => rfl
    | cons c s =>
      have hc := words_eq_nil_iff.1 hws c List.mem_cons_self
      rw [h.first c rfl] at hc
      cases hc
  | cons w ws ih =>
    obtain ⟨rest, ⟨gap, hgap, hw, hrest, rfl⟩, hothers⟩ := exists_leads hws
    have hnil : gap = [] := by
      cases gap with
      | nil => rfl
      | cons c gap =>
        have hc := hgap c List.mem_cons_self
        rw [h.first c rfl] at hc
        cases hc
    rw [hnil, List.nil_append] at h ⊢
    cases rest with
    | nil => rw [← hothers, words_nil, join, List.intercalate_singleton, List.append_nil]
    | cons c rest =>
      have hc : isBlank c = true := hrest c rfl
      obtain ⟨hne, hs⟩ := h.of_append hc
      rw [words_cons_blank hc] at hothers
      have hjoin := ih hothers hs
      have hmore : ws ≠ [] := by
        rintro rfl
        exact hne hjoin.symm
      rw [join_cons hmore, hjoin, h.spaces c (by simp) hc]

theorem join_words_eq_iff : join (words s) = s ↔ SingleSpaced s := by
  refine ⟨fun h => ?_, join_of_singleSpaced rfl⟩
  rw [← h]
  exact singleSpaced_join fun w hw => isWord_of_mem_words hw

end Throttle.Text
