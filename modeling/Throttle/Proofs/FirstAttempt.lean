import Throttle.Proofs.Callers

/-!
# First attempts at endpoints

An attempt at an endpoint checks whether its key has a queue, and starts one at once if there
was none. Nobody can tell this from an offer to the log: not by the answer, the samples or
the state that is left, and not when the queue was started by another caller, or dropped by a
purge, between the check and the start.
-/

namespace Throttle
namespace Shared

variable {ι : Type}

def Move.caller? : Move ι → Option ι
  | turn caller _ => some caller
  | sweep _ => none

namespace System

variable [DecidableEq ι] {limit : Nat} {window : Span} {s : System ι} {i : ι}

theorem phase_turn_of_ne {j : ι} (h : i ≠ j) (reading : Instant) :
    (s.turn limit window j reading).state.phase i = s.phase i := by
  have ht := turn_turned limit window s j reading
  generalize s.turn limit window j reading = effect at ht
  cases ht with
  | moved => exact Function.update_of_ne h _ _
  | created => exact Function.update_of_ne h _ _
  | offered => exact Function.update_of_ne h _ _

variable [Fintype ι] {moves : List (Move ι)}

theorem phase_step_of_others {move : Move ι} (others : move.caller? ≠ some i) :
    (s.step limit window move).state.phase i = s.phase i := by
  cases move with
  | turn j reading =>
    apply phase_turn_of_ne
    rintro rfl
    exact others rfl
  | sweep reading => exact congrFun (sweep_spec window s reading).1 i

theorem phase_play_of_others (others : ∀ move ∈ moves, move.caller? ≠ some i) :
    (s.play limit window moves).state.phase i = s.phase i := by
  induction moves generalizing s with
  | nil => rfl
  | cons move rest ih =>
    obtain ⟨hmove, hrest⟩ := List.forall_mem_cons.1 others
    rw [play]
    exact (ih hrest).trans (phase_step_of_others hmove)

def overtaken (limit : Nat) (window : Span) (s : System ι) (i : ι) (reading : Instant)
    (moves : List (Move ι)) : System ι :=
  ((s.turn limit window i reading).state.play limit window moves).state

theorem phase_overtaken (checking : s.phase i = .checking) (reading : Instant)
    (others : ∀ move ∈ moves, move.caller? ≠ some i) :
    (s.overtaken limit window i reading moves).phase i =
      if s.current.isSome then .looking else .creating := by
  rw [overtaken, phase_play_of_others others]
  simp [turn, go, checking]

theorem ahead_of_overtaken (checking : s.phase i = .checking) (reading : Instant)
    (others : ∀ move ∈ moves, move.caller? ≠ some i) :
    let t := s.overtaken limit window i reading moves
    t.phase i = .creating ∨ t.phase i = .looking := by
  intro t
  have ht : t.phase i = if s.current.isSome then .looking else .creating :=
    phase_overtaken checking reading others
  rw [ht]
  cases s.current with
  | none => exact .inl rfl
  | some q => exact .inr rfl

end System
end Shared

namespace Ledger

/-- At every ledger, limit and window and under every clock an attempt is an offer to the log of
its kind alone. It is one to the log as the attempt finds it, whatever log its key was checked in,
and that is how a caller ends whom any moves of others have overtaken after its check. -/
theorem attempt_is_offer :
    (∀ (s : Ledger) (c : Clock) (identity : Identity) (limit : Nat) (window : Span),
      let o := s.record c identity limit window
      let r := (s.log identity.kind).offer c identity.logKey limit window
      o.result = r.result ∧ o.samples = r.samples ∧ o.state = s.setLog identity.kind r.state) ∧
    (∀ (checked log : AttemptLog) (c : Clock) (identity : Identity) (limit : Nat) (window : Span),
      recordChecked (checked.contains identity.logKey) log c identity limit window =
        log.offer c identity.logKey limit window) ∧
    ∀ {ι : Type} [Fintype ι] [DecidableEq ι] (s : Shared.System ι) (i : ι) (reading : Instant)
      (moves : List (Shared.Move ι)) {limit : Nat} (window : Span),
      s.phase i = .checking → (∀ move ∈ moves, move.caller? ≠ some i) → 1 ≤ limit →
      let t := s.overtaken limit window i reading moves
      ∀ {log : AttemptLog} {key : String} (c : Clock), t.queue? = log[key]? →
        let r := log.offer c key limit window
        let u := Shared.System.alone limit window i c 5 t
        u.phase = Function.update t.phase i (.finished r.result) ∧ u.queue? = r.state[key]? := by
  refine ⟨?_, ?_, ?_⟩
  · intro s c identity limit window
    simp only [record, recordIn_eq_offer, Outcome.result_report, Outcome.samples_report,
      Outcome.state_report]
    exact ⟨rfl, rfl, rfl⟩
  · intro checked log c identity limit window
    exact recordChecked_eq_offer _ log c identity limit window
  · intro ι _ _ s i reading moves limit window checking others hl t log key c hlog
    have hahead : t.phase i = .creating ∨ t.phase i = .looking :=
      Shared.System.ahead_of_overtaken checking reading others
    exact Shared.System.alone_eq_offer (.inr hahead) hlog (Nat.ne_of_gt hl) window c

/-- Another caller starts the queue after the check, and the attempt is recorded behind it. -/
theorem attempt_is_offer_of_race :
    let s : Shared.System Bool := .start none fun _ => true
    let moves := [Shared.Move.turn false (.ofNs 5), .turn false (.ofNs 5)]
    let t := s.overtaken 2 .second true (.ofNs 4) moves
    let u := Shared.System.alone 2 .second true (.still (.ofNs 5)) 5 t
    t.phase true = .creating ∧ t.queue? = some [.ofNs 5] ∧
      u.phase true = .finished (.ok (.recorded (.ofNs 6))) ∧
      u.queue? = some [.ofNs 5, .ofNs 6] := by
  intro s moves t u
  let log : AttemptLog := AttemptLog.empty.insert "10.0.0.1" [.ofNs 5]
  have hqueue : t.queue? = some [.ofNs 5] := by decide +kernel
  have hlog : t.queue? = log["10.0.0.1"]? := by rw [hqueue]; simp [log]
  obtain ⟨hphase, hlast⟩ := attempt_is_offer.2.2 s true (.ofNs 4) moves .second rfl (by decide)
    (show 1 ≤ 2 by decide) (.still (.ofNs 5)) hlog
  have hresult : (log.offer (.still (.ofNs 5)) "10.0.0.1" 2 .second).result =
      .ok (.recorded (.ofNs 6)) := by decide +kernel
  have hstate : (log.offer (.still (.ofNs 5)) "10.0.0.1" 2 .second).state["10.0.0.1"]? =
      some [.ofNs 5, .ofNs 6] := by decide +kernel
  rw [hresult] at hphase
  rw [hstate] at hlast
  refine ⟨rfl, hqueue, ?_, hlast⟩
  exact (congrFun hphase true).trans (Function.update_self _ _ _)

end Ledger
end Throttle
