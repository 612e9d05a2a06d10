import Throttle.Proofs.Approval
import Throttle.Proofs.Tasks

/-!
# Input that is not text

A line that is not text ends the replay, and the tasks of the lines before it have run or not as the
runtime had it: any of them may have, and no other ones. On one thread none has unless the reader
kept the replay waiting, so that input that is there leaves the limiter as it was.
-/

namespace Throttle

namespace Text

variable {line bytes piece : List UInt8} {s : String}

end Text

namespace Replay

variable {input : List UInt8}

theorem entriesFrom_incomplete_iff {n : Nat} {lines : List (List UInt8)} :
    (entriesFrom n lines).2 = false ↔ ∃ line ∈ lines, Text.decode? line = none := by
  induction lines generalizing n with
  | nil => simp [entriesFrom]
  | cons line lines ih =>
    rw [entriesFrom]
    cases hline : Text.decode? line with
    | none => simp [hline]
    | some text => simp [hline, ih]

theorem run_of_incomplete (l : Limiter) (c : Clock)
    (h : (entriesFrom 1 (Text.lines input)).2 = false) :
    run l c input = {
      decisions := .error .notText
      state := l
      events := (entriesFrom 1 (Text.lines input)).1.flatMap Entry.events } := by
  simp only [run, h, Bool.false_eq_true, ↓reduceIte]

theorem run_notText_iff (l : Limiter) (c : Clock) (input : List UInt8) :
    (run l c input).decisions = .error .notText ↔
      ∃ line ∈ Text.lines input, Text.decode? line = none := by
  rw [← entriesFrom_incomplete_iff (n := 1)]
  cases hcomplete : (entriesFrom 1 (Text.lines input)).2 with
  | false => rw [run_of_incomplete l c hcomplete, eq_self, eq_self]
  | true =>
    simp only [run, hcomplete, ↓reduceIte]
    split <;> simp

namespace Progress

variable {l : Limiter} {c : Clock} {p : Progress} {turns : List Turn}

structure Stuck (p : Progress) : Prop where
  unread : ∃ line ∈ p.unread, Text.decode? line = none
  returned : p.returned? = none ∨ p.returned? = some (.error .notText)

theorem Stuck.read (h : p.Stuck) :
    p.read.Stuck ∧ (p.read = { p with returned? := some (.error .notText) } ∨
      ∃ text rest, p.read = p.spawn text rest) := by
  obtain ⟨bad, hmem, hbad⟩ := h.unread
  obtain ⟨line, rest, hunread⟩ := List.exists_cons_of_ne_nil (List.ne_nil_of_mem hmem)
  cases hline : Text.decode? line with
  | none =>
    rw [read_notText hunread hline]
    exact ⟨⟨h.unread, .inr rfl⟩, .inl rfl⟩
  | some text =>
    rw [read_text hunread hline]
    refine ⟨⟨⟨bad, ?_, hbad⟩, h.returned⟩, .inr ⟨text, rest, rfl⟩⟩
    rw [hunread] at hmem
    refine (List.mem_cons.1 hmem).resolve_left ?_
    rintro rfl
    rw [hline] at hbad
    cases hbad

theorem Stuck.take (h : p.Stuck) (turn : Turn) : (p.take turn).Stuck := by
  cases turn with
  | pause => exact ⟨h.unread, h.returned⟩
  | task i =>
    obtain ⟨-, hunread, hreturned⟩ := runTask_frame p i
    exact ⟨hunread ▸ h.unread, hreturned ▸ h.returned⟩
  | read =>
    rw [Progress.take]
    split
    · exact h
    · exact h.read.1

theorem Stuck.play (h : p.Stuck) (turns : List Turn) : (p.play turns).Stuck := by
  induction turns generalizing p with
  | nil => exact h
  | cons turn turns ih => exact ih (h.take turn)

end Progress

end Replay
end Throttle
