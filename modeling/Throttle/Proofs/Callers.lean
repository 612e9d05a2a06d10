import Mathlib.Data.Fintype.Basic
import Throttle.Proofs.Ledger

/-!
# Callers that share a key

Many callers attempt under one key while others purge. Each goes step by step: it takes
a handle to the queue of the key, reads the clock, and only then has the queue to itself
to expire, to count and to append. A purge passes over a queue that somebody holds. The
readings of the clock are whatever a schedule says.
-/

namespace Throttle.Shared

/-- Where a caller stands. Queues are told apart by the order in which they were made. -/
inductive Phase
  | checking
  | creating
  | looking
  | missing
  | holding (queue : Nat)
  | sampled (queue : Nat) (now : Instant)
  | leaving (queue : Nat) (answer : Except Fault Admission)
  | finished (answer : Except Fault Admission)

namespace Phase

def handle? : Phase → Option Nat
  | holding queue | sampled queue _ | leaving queue _ => some queue
  | checking | creating | looking | missing | finished _ => none

def now? : Phase → Option Instant
  | sampled _ now => some now
  | _ => none

def answer? : Phase → Option (Except Fault Admission)
  | leaving _ answer | finished answer => some answer
  | _ => none

def stamp? (p : Phase) : Option Instant := p.answer?.bind Admission.stampIn?

end Phase

structure System (ι : Type) where
  queues : Nat → Queue
  made : Nat
  current : Option Nat
  phase : ι → Phase

inductive Event (ι : Type)
  | put (caller : ι) (stamp : Instant)
  | lost (stamp now : Instant)

structure Effect (ι : Type) where
  state : System ι
  events : List (Event ι) := []

inductive Move (ι : Type)
  | turn (caller : ι) (reading : Instant)
  | sweep (reading : Instant)

def Move.reading {ι : Type} : Move ι → Instant
  | turn _ reading | sweep reading => reading

variable {ι : Type}

namespace System

def queue? (s : System ι) : Option Queue := s.current.map s.queues

def queue (s : System ι) : Queue := s.queue?.getD []

def start (queue? : Option Queue) (atEndpoint : ι → Bool) : System ι where
  queues _ := queue?.getD []
  made := 1
  current := queue?.map fun _ => 0
  phase i := if atEndpoint i then .checking else .looking

theorem queue_of_none {s : System ι} (h : s.current = none) : s.queue = [] := by
  rw [queue, queue?, h]
  rfl

theorem queue_of_some {s : System ι} {q : Nat} (h : s.current = some q) : s.queue = s.queues q := by
  rw [queue, queue?, h]
  rfl

variable [DecidableEq ι]

def go (s : System ι) (i : ι) (p : Phase) : System ι :=
  { s with phase := Function.update s.phase i p }

def create (s : System ι) (i : ι) (reading : Instant) : Effect ι where
  state := {
    queues := Function.update s.queues s.made [reading]
    made := s.made + 1
    current := some s.made
    phase := Function.update s.phase i (.finished (.ok (.recorded reading))) }
  events := [.put i reading]

def offer (limit : Nat) (window : Span) (s : System ι) (i : ι) (queue : Nat)
    (now later : Instant) : Effect ι :=
  let o := (s.queues queue).offer limit window now later
  { state := { s with
      queues := Function.update s.queues queue o.state
      phase := Function.update s.phase i (.leaving queue o.result) }
    events := ((s.queues queue).expired now window).map (.lost · now) ++
      (Admission.stampIn? o.result).toList.map (.put i) }

def turn (limit : Nat) (window : Span) (s : System ι) (i : ι) (reading : Instant) : Effect ι :=
  match s.phase i with
  | .checking => { state := s.go i (if s.current.isSome then .looking else .creating) }
  | .creating => match s.current with
    | some _ => { state := s.go i .looking }
    | none => s.create i reading
  | .looking => match s.current with
    | some queue => { state := s.go i (.holding queue) }
    | none => { state := s.go i .missing }
  | .missing => match s.current with
    | some queue => { state := s.go i (.holding queue) }
    | none => s.create i reading
  | .holding queue => { state := s.go i (.sampled queue reading) }
  | .sampled queue now => s.offer limit window i queue now reading
  | .leaving _ answer => { state := s.go i (.finished answer) }
  | .finished _ => { state := s }

variable [Fintype ι]

/-- Expires the queue of the key and drops it when nothing is left, unless a caller
holds it. -/
def sweep (window : Span) (s : System ι) (reading : Instant) : Effect ι :=
  match s.current with
  | none => { state := s }
  | some queue =>
    if ∃ i, (s.phase i).handle? = some queue then { state := s }
    else
      let kept := (s.queues queue).expire reading window
      { state := { s with
          queues := Function.update s.queues queue kept
          current := if kept = [] then none else some queue }
        events := ((s.queues queue).expired reading window).map (.lost · reading) }

def step (limit : Nat) (window : Span) (s : System ι) : Move ι → Effect ι
  | .turn i reading => s.turn limit window i reading
  | .sweep reading => s.sweep window reading

def play (limit : Nat) (window : Span) : System ι → List (Move ι) → Effect ι
  | s, [] => { state := s }
  | s, move :: rest =>
    let first := s.step limit window move
    let last := first.state.play limit window rest
    { state := last.state, events := first.events ++ last.events }

end System

variable [DecidableEq ι]

/-! A caller with nobody else around does what an attempt on the log does. -/

namespace System

def alone (limit : Nat) (window : Span) (i : ι) (c : Clock) : Nat → System ι → System ι
  | 0, s => s
  | n + 1, s =>
    let reading := match s.phase i with
      | .sampled _ _ => c.reading 1
      | _ => c.now
    alone limit window i c n (s.turn limit window i reading).state

/-- A caller that is not past looking for the queue ends as an offer to the log as it is now. -/
theorem alone_eq_offer {s : System ι} {i : ι}
    (ahead : s.phase i = .checking ∨ s.phase i = .creating ∨ s.phase i = .looking)
    {log : AttemptLog} {key : String} (hs : s.queue? = log[key]?) {limit : Nat} (hl : limit ≠ 0)
    (window : Span) (c : Clock) :
    let o := log.offer c key limit window
    let t := alone limit window i c 5 s
    t.phase = Function.update s.phase i (.finished o.result) ∧ t.queue? = o.state[key]? := by
  obtain ⟨hr, -, hstate⟩ := log.offer_spec c key hl window
  simp only [hr, hstate, Std.ExtTreeMap.getElem?_insert_self]
  cases hc : s.current with
  | none =>
    have ha : log.attempts key = [] := by
      apply AttemptLog.attempts_of_none
      rw [← hs, queue?, hc]
      rfl
    rw [ha, Queue.offer_nil hl]
    rcases ahead with hp | hp | hp <;> simp [alone, turn, go, create, queue?, hp, hc]
  | some q =>
    have ha : log.attempts key = s.queues q := by
      apply AttemptLog.attempts_of_some
      rw [← hs, queue?, hc]
      rfl
    rw [ha]
    rcases ahead with hp | hp | hp <;> simp [alone, turn, go, offer, queue?, hp, hc]

theorem alone_eq_record (log : AttemptLog) (c : Clock) (identity : Identity) {limit : Nat}
    (hl : limit ≠ 0) (window : Span) (i : ι) :
    let o := Ledger.recordIn log c identity limit window
    let s := alone limit window i c 5 (start log[identity.logKey]? fun _ => identity.isEndpoint)
    s.phase i = .finished o.result ∧ s.queue = o.state.attempts identity.logKey := by
  intro o s
  have hfirst : (start (ι := ι) log[identity.logKey]? fun _ => identity.isEndpoint).queue? =
      log[identity.logKey]? := by
    cases hk : log[identity.logKey]? <;> simp [start, queue?]
  obtain ⟨hphase, hqueue⟩ := alone_eq_offer (i := i)
    (by cases identity.isEndpoint <;> simp [start]) hfirst hl window c
  simp only [s, o, Ledger.recordIn_eq_offer]
  rw [hphase, queue, hqueue, AttemptLog.attempts, Std.ExtTreeMap.getD_eq_getD_getElem?]
  exact ⟨Function.update_self _ _ _, rfl⟩

omit [DecidableEq ι] in
theorem queue?_sweep [Fintype ι] {s : System ι} {log : AttemptLog} {key : String}
    {held : String → Bool} (hs : s.queue? = log[key]?)
    (hheld : held key = true ↔ ∃ i q, (s.phase i).handle? = some q ∧ s.current = some q)
    (window : Span) (now : Instant) :
    (s.sweep window now).state.queue? = (log.sweep now window held)[key]? := by
  rw [AttemptLog.getElem?_sweep, ← hs, queue?, queue?, sweep]
  cases hc : s.current with
  | none => simp [hc]
  | some q =>
    by_cases hh : ∃ i, (s.phase i).handle? = some q
    · have hk : held key = true := hheld.2 (hh.imp fun i hi => ⟨q, hi, hc⟩)
      simp [hh, hk, hc]
    · have hk : held key = false := by
        rw [Bool.eq_false_iff]
        intro hk
        obtain ⟨i, r, hi, hr⟩ := hheld.1 hk
        rw [hc] at hr
        cases hr
        exact hh ⟨i, hi⟩
      simp only [if_neg hh, hk]
      cases hq : Queue.expire now window (s.queues q) <;> simp [hq]

end System

/-! The queue of the key after a step. -/

theorem queue_create (s : System ι) (i : ι) (reading : Instant) :
    (s.create i reading).state.queue = [reading] := by
  rw [System.queue_of_some rfl]
  exact Function.update_self _ _ _

theorem offer_spec {s : System ι} {q : Nat} (h : s.current = some q) (limit : Nat)
    (window : Span) (i : ι) (now later : Instant) :
    let effect := s.offer limit window i q now later
    let o := s.queue.offer limit window now later
    effect.state.queue = o.state ∧
      effect.state.phase = Function.update s.phase i (.leaving q o.result) ∧
      effect.events = (s.queue.expired now window).map (.lost · now) ++
        (Admission.stampIn? o.result).toList.map (.put i) := by
  intro effect o
  have hcurrent : effect.state.current = some q := h
  have ho : o = (s.queues q).offer limit window now later := by rw [← System.queue_of_some h]
  rw [System.queue_of_some hcurrent, System.queue_of_some h, ho]
  exact ⟨Function.update_self _ _ _, rfl, rfl⟩

omit [DecidableEq ι] in
theorem sweep_spec [Fintype ι] (window : Span) (s : System ι) (reading : Instant) :
    let effect := s.sweep window reading
    effect.state.phase = s.phase ∧
      ((effect.state = s ∧ effect.events = []) ∨
        (∀ i q, (s.phase i).handle? = some q → s.current ≠ some q) ∧
          effect.state.queue = s.queue.expire reading window ∧
          effect.events = (s.queue.expired reading window).map (.lost · reading)) := by
  rw [System.sweep]
  cases hc : s.current with
  | none => exact ⟨rfl, .inl ⟨rfl, rfl⟩⟩
  | some q =>
    simp only []
    by_cases hheld : ∃ i, (s.phase i).handle? = some q
    · rw [if_pos hheld]
      exact ⟨rfl, .inl ⟨rfl, rfl⟩⟩
    · rw [if_neg hheld, System.queue_of_some hc]
      refine ⟨rfl, .inr ⟨fun i r hr he => ?_, ?_, rfl⟩⟩
      · cases he
        exact hheld ⟨i, hr⟩
      · by_cases hk : (s.queues q).expire reading window = []
        · rw [System.queue_of_none (if_pos hk), hk]
        · rw [System.queue_of_some (if_neg hk)]
          exact Function.update_self _ _ _

/-! What a turn can do. -/

inductive Turned (limit : Nat) (window : Span) (s : System ι) (i : ι) (reading : Instant) :
    Effect ι → Prop
  | moved {p : Phase}
      (handle : ∀ q, p.handle? = some q → s.current = some q ∨ (s.phase i).handle? = some q)
      (answer : p.answer? = (s.phase i).answer?) (now : ∀ t, p.now? = some t → t = reading) :
      Turned limit window s i reading { state := s.go i p }
  | created (absent : s.current = none) (pending : (s.phase i).answer? = none) :
      Turned limit window s i reading (s.create i reading)
  | offered {queue : Nat} {now : Instant} (phase : s.phase i = .sampled queue now) :
      Turned limit window s i reading (s.offer limit window i queue now reading)

theorem turn_turned (limit : Nat) (window : Span) (s : System ι) (i : ι) (reading : Instant) :
    Turned limit window s i reading (s.turn limit window i reading) := by
  rw [System.turn]
  cases hp : s.phase i with
  | checking =>
    by_cases hc : s.current.isSome
    · simp only [hc, if_true]
      exact .moved (by simp [Phase.handle?]) (by rw [hp]; rfl) (by simp [Phase.now?])
    · simp only [hc]
      exact .moved (by simp [Phase.handle?]) (by rw [hp]; rfl) (by simp [Phase.now?])
  | creating =>
    cases hc : s.current with
    | none => exact .created hc (by rw [hp]; rfl)
    | some queue => exact .moved (by simp [Phase.handle?]) (by rw [hp]; rfl) (by simp [Phase.now?])
  | looking =>
    cases hc : s.current with
    | none => exact .moved (by simp [Phase.handle?]) (by rw [hp]; rfl) (by simp [Phase.now?])
    | some queue =>
      exact .moved (by simp [Phase.handle?, hc]) (by rw [hp]; rfl) (by simp [Phase.now?])
  | missing =>
    cases hc : s.current with
    | none => exact .created hc (by rw [hp]; rfl)
    | some queue =>
      exact .moved (by simp [Phase.handle?, hc]) (by rw [hp]; rfl) (by simp [Phase.now?])
  | holding queue =>
    exact .moved (by simp [Phase.handle?, hp]) (by rw [hp]; rfl) (by simp [Phase.now?, eq_comm])
  | sampled queue now => exact .offered hp
  | leaving queue answer =>
    exact .moved (by simp [Phase.handle?]) (by rw [hp]; rfl) (by simp [Phase.now?])
  | finished answer =>
    have hs : s.go i (s.phase i) = s := by rw [System.go, Function.update_eq_self]
    have hm : Turned limit window s i reading { state := s.go i (s.phase i) } :=
      .moved (by simp [Phase.handle?, hp]) rfl (by simp [Phase.now?, hp])
    rw [hs] at hm
    exact hm

end Throttle.Shared
