import Mathlib.Data.Fintype.Card
import Throttle.Proofs.Callers

/-!
# What callers that share a key cannot break

The queue of a key keeps its order and its limit under every schedule, a handle is
always one to the queue that the key has, and every entry that was put either expired or
is still there. Under a clock that stands still as many callers get through as there is
room for.
-/

namespace Throttle.Shared

variable {ι : Type} {limit : Nat} {window : Span}

def puts (events : List (Event ι)) : List (ι × Instant) :=
  events.filterMap fun
    | .put caller stamp => some (caller, stamp)
    | .lost _ _ => none

def losses (events : List (Event ι)) : List (Instant × Instant) :=
  events.filterMap fun
    | .put _ _ => none
    | .lost stamp now => some (stamp, now)

theorem puts_append (first last : List (Event ι)) :
    puts (first ++ last) = puts first ++ puts last :=
  List.filterMap_append

theorem losses_append (first last : List (Event ι)) :
    losses (first ++ last) = losses first ++ losses last :=
  List.filterMap_append

theorem puts_lost (q : Queue) (now : Instant) : puts (q.map (Event.lost (ι := ι) · now)) = [] := by
  simp [puts, List.filterMap_map]

theorem puts_put (i : ι) (q : Queue) : puts (q.map (.put i)) = q.map (i, ·) := by
  simp [puts, List.filterMap_map]

theorem losses_lost (q : Queue) (now : Instant) :
    losses (q.map (Event.lost (ι := ι) · now)) = q.map (·, now) := by
  simp [losses, List.filterMap_map]

theorem losses_put (i : ι) (q : Queue) : losses (q.map (.put i)) = [] := by
  simp [losses, List.filterMap_map]

variable [DecidableEq ι]

/-- What every schedule keeps, with `first` the entries that were there before and
`readings` what the clock has read since. -/
structure Sound (limit : Nat) (window : Span) (first : Queue) (readings : List Instant)
    (s : System ι) (events : List (Event ι)) : Prop where
  fits : s.queue.Fits limit
  held : ∀ i q, (s.phase i).handle? = some q → s.current = some q
  flow : first ++ (puts events).map (·.2) = (losses events).map (·.1) ++ s.queue
  own : ∀ i, ((puts events).filter (·.1 = i)).map (·.2) = (s.phase i).stamp?.toList
  late : ∀ e ∈ losses events, e.2 ∈ readings ∧
    ∃ cutoff, Queue.cutoff? e.2 window = some cutoff ∧ e.1 < cutoff
  sampled : ∀ i t, (s.phase i).now? = some t → t ∈ readings

theorem sound_start {queue? : Option Queue} (h : (queue?.getD []).Fits limit)
    (atEndpoint : ι → Bool) :
    Sound limit window (queue?.getD []) [] (System.start queue? atEndpoint) [] := by
  have hq : (System.start queue? atEndpoint).queue = queue?.getD [] := by
    cases queue? <;> rfl
  refine ⟨by rw [hq]; exact h, fun i q hp => ?_, by rw [hq]; simp [puts, losses], fun i => ?_,
    by simp [losses], fun i t hp => ?_⟩
  all_goals
    by_cases hi : atEndpoint i <;>
      simp [System.start, hi, Phase.handle?, Phase.now?, Phase.stamp?, Phase.answer?, puts] at *

namespace Sound

variable {first : Queue} {readings : List Instant} {s : System ι} {events : List (Event ι)}

theorem acted (h : Sound limit window first readings s events) {i : ι} {p : Phase}
    {reading : Instant} {next : System ι} {effects : List (Event ι)} (stamps : List Instant)
    (phase : ∀ j, next.phase j = if j = i then p else s.phase j)
    (fits : next.queue.Fits limit) (handle : ∀ q, p.handle? = some q → next.current = some q)
    (kept : ∀ q, s.current = some q → next.current = some q)
    (flow : s.queue ++ stamps = (losses effects).map (·.1) ++ next.queue)
    (put : puts effects = stamps.map (i, ·))
    (stamp : p.stamp?.toList = (s.phase i).stamp?.toList ++ stamps)
    (late : ∀ e ∈ losses effects, e.2 ∈ readings ∧
      ∃ cutoff, Queue.cutoff? e.2 window = some cutoff ∧ e.1 < cutoff)
    (now : ∀ t, p.now? = some t → t = reading) :
    Sound limit window first (readings ++ [reading]) next (events ++ effects) := by
  refine ⟨fits, fun j q hj => ?_, ?_, fun j => ?_, fun e he => ?_, fun j t hj => ?_⟩
  · rw [phase] at hj
    by_cases hji : j = i
    · rw [if_pos hji] at hj
      exact handle q hj
    · rw [if_neg hji] at hj
      exact kept q (h.held j q hj)
  · have hstamps : (stamps.map (i, ·)).map Prod.snd = stamps := by simp [Function.comp_def]
    rw [puts_append, losses_append, List.map_append, List.map_append, put, hstamps,
      ← List.append_assoc, h.flow, List.append_assoc, List.append_assoc, flow]
  · rw [phase, puts_append, List.filter_append, List.map_append, h.own j, put]
    by_cases hji : j = i
    · subst hji
      rw [if_pos rfl, stamp]
      simp [List.filter_map, Function.comp_def]
    · rw [if_neg hji]
      simp [List.filter_map, Function.comp_def, Ne.symm hji]
  · rw [losses_append] at he
    rcases List.mem_append.1 he with he | he
    · exact ⟨List.mem_append_left _ (h.late e he).1, (h.late e he).2⟩
    · exact ⟨List.mem_append_left _ (late e he).1, (late e he).2⟩
  · rw [phase] at hj
    by_cases hji : j = i
    · rw [if_pos hji] at hj
      rw [now t hj]
      simp
    · rw [if_neg hji] at hj
      exact List.mem_append_left _ (h.sampled j t hj)

theorem turn (h : Sound limit window first readings s events) (hl : limit ≠ 0) (i : ι)
    (reading : Instant) :
    Sound limit window first (readings ++ [reading]) (s.turn limit window i reading).state
      (events ++ (s.turn limit window i reading).events) := by
  have ht := turn_turned limit window s i reading
  generalize s.turn limit window i reading = effect at ht
  cases ht with
  | @moved p handle answer now =>
    refine h.acted [] (fun j => Function.update_apply _ _ _ _) h.fits (fun q hq => ?_)
      (fun q hq => hq) (List.append_nil _) rfl ?_ (by simp [losses]) now
    · exact (handle q hq).elim id (h.held i q)
    · rw [Phase.stamp?, answer, List.append_nil, Phase.stamp?]
  | created absent pending =>
    have hq := queue_create s i reading
    refine h.acted [reading] (fun j => Function.update_apply _ _ _ _) ?_ (fun q hq => ?_)
      (fun q hq => ?_) ?_ rfl ?_ (by simp [losses, System.create]) (fun t ht => ?_)
    · rw [hq]
      exact ⟨List.pairwise_singleton _ _, Nat.one_le_iff_ne_zero.2 hl⟩
    · cases hq
    · rw [absent] at hq
      cases hq
    · rw [System.queue_of_none absent, hq]
      rfl
    · rw [Phase.stamp?, Phase.stamp?, pending]
      rfl
    · cases ht
  | @offered q now phase =>
    have hc : s.current = some q := h.held i q (by rw [phase]; rfl)
    obtain ⟨hq, hp, he⟩ := offer_spec hc limit window i now reading
    have hs := (Queue.offer_offered s.queue limit window now reading).state_eq
    have hfits := h.fits.offer window now reading
    generalize s.queue.offer limit window now reading = o at hq hp he hs hfits
    have hlosses : losses (s.offer limit window i q now reading).events =
        (s.queue.expired now window).map (·, now) := by
      rw [he, losses_append, losses_lost, losses_put, List.append_nil]
    refine h.acted (Admission.stampIn? o.result).toList
      (fun j => (congrFun hp j).trans (Function.update_apply _ _ _ _)) ?_ (fun r hr => ?_)
      (fun r hr => hr) ?_ ?_ ?_ ?_ (fun t ht => ?_)
    · rw [hq]
      exact hfits
    · cases hr
      exact hc
    · rw [hlosses, hq, hs, List.map_map, ← List.append_assoc]
      simp [Function.comp_def, Queue.expired_append_expire]
    · rw [he, puts_append, puts_lost, puts_put, List.nil_append]
    · rw [phase]
      rfl
    · rw [hlosses]
      intro e hmem
      obtain ⟨t, ht, rfl⟩ := List.mem_map.1 hmem
      exact ⟨h.sampled i now (by rw [phase]; rfl), Queue.cutoff_of_mem_expired ht⟩
    · cases ht

theorem sweep [Fintype ι] (h : Sound limit window first readings s events) (reading : Instant) :
    Sound limit window first (readings ++ [reading]) (s.sweep window reading).state
      (events ++ (s.sweep window reading).events) := by
  have hmono : ∀ t ∈ readings, t ∈ readings ++ [reading] := fun t => List.mem_append_left _
  obtain ⟨hp, ⟨hs, he⟩ | ⟨hfree, hq, he⟩⟩ := sweep_spec window s reading
  · rw [hs, he, List.append_nil]
    exact { h with
      late := fun e hl => (h.late e hl).imp (hmono _) id
      sampled := fun i t hi => hmono t (h.sampled i t hi) }
  · have hputs : puts (events ++ (s.sweep window reading).events) = puts events := by
      rw [he, puts_append, puts_lost, List.append_nil]
    have hlosses : losses (events ++ (s.sweep window reading).events) =
        losses events ++ (s.queue.expired reading window).map (·, reading) := by
      rw [he, losses_append, losses_lost]
    refine ⟨?_, fun i q hi => ?_, ?_, fun i => ?_, ?_, fun i t hi => ?_⟩
    · rw [hq]
      exact h.fits.expire reading window
    · rw [hp] at hi
      exact absurd (h.held i q hi) (hfree i q hi)
    · rw [hputs, hlosses, hq, h.flow, List.map_append, List.map_map, List.append_assoc]
      simp [Function.comp_def, Queue.expired_append_expire]
    · rw [hputs, hp]
      exact h.own i
    · rw [hlosses]
      intro e hl
      rcases List.mem_append.1 hl with hl | hl
      · exact (h.late e hl).imp (hmono _) id
      · obtain ⟨t, ht, rfl⟩ := List.mem_map.1 hl
        exact ⟨by simp, Queue.cutoff_of_mem_expired ht⟩
    · rw [hp] at hi
      exact hmono t (h.sampled i t hi)

theorem step [Fintype ι] (h : Sound limit window first readings s events) (hl : limit ≠ 0)
    (move : Move ι) :
    Sound limit window first (readings ++ [move.reading]) (s.step limit window move).state
      (events ++ (s.step limit window move).events) := by
  cases move with
  | turn i reading => exact h.turn hl i reading
  | sweep reading => exact h.sweep reading

theorem play [Fintype ι] (h : Sound limit window first readings s events) (hl : limit ≠ 0)
    (schedule : List (Move ι)) :
    Sound limit window first (readings ++ schedule.map Move.reading)
      (s.play limit window schedule).state (events ++ (s.play limit window schedule).events) := by
  induction schedule generalizing s readings events with
  | nil => simpa [System.play] using h
  | cons move rest ih =>
    have hrest := ih (h.step hl move)
    rw [List.append_assoc, List.append_assoc] at hrest
    exact hrest

end Sound
end Throttle.Shared
