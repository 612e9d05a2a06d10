import Throttle.Proofs.Sharing

/-!
# Callers under a clock that stands still

While the clock stands still nothing expires, and the entries of a queue line up from
the clock on, one unit apart, as far as a search for a free instant goes. Whoever is
refused finds all of that room taken.
-/

namespace Throttle
namespace Queue

def Lined (t : Instant) (q : Queue) : Prop :=
  ∀ i (h : i < q.length), q[i].ns = t.ns + i

def slots (t : Instant) : Nat := min 1001 (Instant.latest.ns - t.ns + 1).toNat

variable {limit : Nat} {window : Span} {t : Instant} {q : Queue}

theorem slots_pos (t : Instant) : 1 ≤ slots t := by
  have hu := Instant.le_iff.1 (Instant.le_latest t)
  unfold slots
  omega

namespace Lined

theorem le_of_mem (h : Lined t q) : ∀ x ∈ q, t ≤ x := by
  intro x hx
  obtain ⟨i, hi, rfl⟩ := List.getElem_of_mem hx
  have hns := h i hi
  rw [Instant.le_iff]
  omega

theorem newest_ns (h : Lined t q) {newest : Instant} (hl : q.getLast? = some newest) :
    newest.ns + 1 = t.ns + q.length := by
  rw [List.getLast?_eq_getElem?] at hl
  obtain ⟨hlt, he⟩ := List.getElem?_eq_some_iff.1 hl
  have hns := h _ hlt
  rw [he] at hns
  omega

theorem concat (h : Lined t q) {stamp : Instant} (hs : stamp.ns = t.ns + q.length) :
    Lined t (q ++ [stamp]) := by
  intro i hi
  rw [List.length_append, List.length_singleton] at hi
  by_cases hlt : i < q.length
  · rw [List.getElem_append_left hlt]
    exact h i hlt
  · have he : i = q.length := by omega
    subst he
    simpa using hs

theorem expired_eq (h : Lined t q) (hw : 1000 ≤ window.ns) : q.expired t window = [] :=
  expired_of_le hw h.le_of_mem

theorem offer (h : Lined t q) (hw : 1000 ≤ window.ns) (hq : q.length ≤ min limit (slots t)) :
    let o := q.offer limit window t t
    Lined t o.state ∧ q.length ≤ o.state.length ∧ o.state.length ≤ min limit (slots t) ∧
      (Admission.stampIn? o.result = none → min limit (slots t) ≤ o.state.length) := by
  have ho := offer_offered q limit window t t
  rw [expire_eq_self_iff.2 (h.expired_eq hw)] at ho
  generalize q.offer limit window t t = o at ho
  have hslots : slots t = min 1001 (Instant.latest.ns - t.ns + 1).toNat := rfl
  have hlast : ∀ {newest}, q.getLast? = some newest → newest.ns + 1 = t.ns + q.length :=
    fun hl => h.newest_ns hl
  cases ho with
  | full hfull =>
    have hnone : min limit (slots t) ≤ q.length := by omega
    exact ⟨h, le_refl _, hq, fun _ => hnone⟩
  | crowded room last edge stuck =>
    have hns := hlast last
    have hnone : min limit (slots t) ≤ q.length := by omega
    exact ⟨h, le_refl _, hq, fun _ => hnone⟩
  | fault room last gap =>
    have hns := hlast last
    have hnone : min limit (slots t) ≤ q.length := by omega
    exact ⟨h, le_refl _, hq, fun _ => hnone⟩
  | @recorded stamp _ room appended ok state =>
    have hstamp : stamp.ns = t.ns + q.length ∧ q.length < slots t := by
      cases appended with
      | fresh behind =>
        cases ok
        have hnil : q.getLast? = none := by
          cases hl : q.getLast? with
          | none => rfl
          | some newest =>
            have hle := h.le_of_mem newest (List.mem_of_getLast? hl)
            exact absurd (behind newest hl) (not_lt.2 hle)
        have hempty := List.getLast?_eq_none_iff.1 hnil
        have hpos := slots_pos t
        subst hempty
        exact ⟨by simp, hpos⟩
      | moved last ahead gap next =>
        cases ok
        have hns := hlast last
        have hu := Instant.le_iff.1 (Instant.le_latest stamp)
        omega
      | reread last edge passed =>
        have hns := Instant.lt_iff.1 passed
        omega
      | crowded => cases ok
      | fault => cases ok
    refine ⟨h.concat hstamp.1, by simp, ?_, fun hnone => by simp at hnone⟩
    rw [List.length_append, List.length_singleton]
    omega

end Lined
end Queue

namespace Shared
open Queue (Lined slots)

variable {ι : Type} {limit : Nat} {window : Span} {t : Instant} {s : System ι}
  {events : List (Event ι)} {readings : List Instant}

/-- What every schedule keeps, besides, whose readings are all `t`. -/
structure Standing (limit : Nat) (t : Instant) (s : System ι) (events : List (Event ι)) :
    Prop where
  lined : Lined t s.queue
  short : s.queue.length ≤ min limit (slots t)
  whole : losses events = []
  refused : ∀ i answer, (s.phase i).answer? = some answer → Admission.stampIn? answer = none →
    min limit (slots t) ≤ s.queue.length

theorem standing_start (limit : Nat) (t : Instant) (atEndpoint : ι → Bool) :
    Standing limit t (System.start none atEndpoint) [] := by
  refine ⟨fun i hi => absurd hi (Nat.not_lt_zero i), Nat.zero_le _, rfl, fun i answer ha => ?_⟩
  by_cases hi : atEndpoint i <;> simp [System.start, hi, Phase.answer?] at ha

variable [DecidableEq ι]

namespace Standing

theorem acted (h : Standing limit t s events) {i : ι} {p : Phase} {next : System ι}
    {effects : List (Event ι)} (phase : ∀ j, next.phase j = if j = i then p else s.phase j)
    (lined : Lined t next.queue) (grown : s.queue.length ≤ next.queue.length)
    (short : next.queue.length ≤ min limit (slots t)) (whole : losses effects = [])
    (refused : ∀ answer, p.answer? = some answer → Admission.stampIn? answer = none →
      min limit (slots t) ≤ next.queue.length) :
    Standing limit t next (events ++ effects) := by
  refine ⟨lined, short, by rw [losses_append, h.whole, whole]; rfl, fun j answer hj hn => ?_⟩
  rw [phase] at hj
  by_cases hji : j = i
  · rw [if_pos hji] at hj
    exact refused answer hj hn
  · rw [if_neg hji] at hj
    exact (h.refused j answer hj hn).trans grown

theorem turn (h : Standing limit t s events) (hs : Sound limit window [] readings s events)
    (hr : ∀ r ∈ readings, r = t) (hl : limit ≠ 0) (hw : 1000 ≤ window.ns) (i : ι) :
    Standing limit t (s.turn limit window i t).state
      (events ++ (s.turn limit window i t).events) := by
  have ht := turn_turned limit window s i t
  generalize s.turn limit window i t = effect at ht
  cases ht with
  | @moved p handle answer now =>
    refine h.acted (fun j => Function.update_apply _ _ _ _) h.lined (le_refl _) h.short rfl ?_
    rw [answer]
    exact h.refused i
  | created absent pending =>
    have hq := queue_create s i t
    have hpos := Queue.slots_pos t
    have hnil : Lined t [] := fun j hj => absurd hj (Nat.not_lt_zero j)
    refine h.acted (fun j => Function.update_apply _ _ _ _) ?_ ?_ ?_ rfl ?_
    · rw [hq]
      exact hnil.concat (by simp)
    · rw [System.queue_of_none absent]
      exact Nat.zero_le _
    · rw [hq, List.length_singleton]
      omega
    · intro answer ha hn
      cases ha
      cases hn
  | @offered q now phase =>
    have hc : s.current = some q := hs.held i q (by rw [phase]; rfl)
    have hnow : now = t := hr now (hs.sampled i now (by rw [phase]; rfl))
    subst hnow
    obtain ⟨hq, hp, he⟩ := offer_spec hc limit window i now now
    obtain ⟨hlined, hgrown, hshort, hnone⟩ := h.lined.offer hw h.short
    refine h.acted (fun j => (congrFun hp j).trans (Function.update_apply _ _ _ _)) ?_ ?_ ?_ ?_ ?_
    · rw [hq]
      exact hlined
    · rw [hq]
      exact hgrown
    · rw [hq]
      exact hshort
    · rw [he, losses_append, losses_lost, losses_put, h.lined.expired_eq hw]
      rfl
    · intro answer ha hn
      cases ha
      rw [hq]
      exact hnone hn

omit [DecidableEq ι] in
theorem sweep [Fintype ι] (h : Standing limit t s events) (hw : 1000 ≤ window.ns) :
    Standing limit t (s.sweep window t).state (events ++ (s.sweep window t).events) := by
  have hx := h.lined.expired_eq hw
  obtain ⟨hp, ⟨hs, he⟩ | ⟨-, hq, he⟩⟩ := sweep_spec window s t
  · rw [hs, he, List.append_nil]
    exact h
  · rw [Queue.expire_eq_self_iff.2 hx] at hq
    rw [he, hx]
    refine ⟨by rw [hq]; exact h.lined, by rw [hq]; exact h.short, ?_, ?_⟩
    · rw [losses_append, h.whole]
      rfl
    · rw [hp, hq]
      exact h.refused

theorem play [Fintype ι] (h : Standing limit t s events)
    (hs : Sound limit window [] readings s events) (hr : ∀ r ∈ readings, r = t) (hl : limit ≠ 0)
    (hw : 1000 ≤ window.ns) {schedule : List (Move ι)}
    (still : ∀ move ∈ schedule, move.reading = t) :
    Standing limit t (s.play limit window schedule).state
      (events ++ (s.play limit window schedule).events) := by
  induction schedule generalizing s readings events with
  | nil => simpa [System.play] using h
  | cons move rest ih =>
    obtain ⟨hmove, hrest⟩ := List.forall_mem_cons.1 still
    have hstep : Standing limit t (s.step limit window move).state
        (events ++ (s.step limit window move).events) := by
      cases move with
      | turn i reading =>
        cases hmove
        exact h.turn hs hr hl hw i
      | sweep reading =>
        cases hmove
        exact h.sweep hw
    have hread : ∀ r ∈ readings ++ [move.reading], r = t := by
      simpa [or_imp, forall_and] using And.intro hr hmove
    have hlast := ih hstep (hs.step hl move) hread hrest
    rw [List.append_assoc] at hlast
    exact hlast

end Standing

theorem card_recorded [Fintype ι] (hs : Sound limit window [] readings s events)
    (whole : losses events = []) :
    (Finset.univ.filter fun i => (s.phase i).stamp?.isSome).card = s.queue.length := by
  have hcount : ∀ i, ((puts events).map (·.1)).count i = (s.phase i).stamp?.toList.length := by
    intro i
    rw [← hs.own i, List.length_map, List.count, List.countP_map, List.countP_eq_length_filter]
    rfl
  have hnodup : ((puts events).map (·.1)).Nodup := by
    rw [List.nodup_iff_count_le_one]
    intro i
    rw [hcount]
    cases (s.phase i).stamp? <;> simp
  have hset : (Finset.univ.filter fun i => (s.phase i).stamp?.isSome) =
      ((puts events).map (·.1)).toFinset := by
    ext i
    rw [Finset.mem_filter, List.mem_toFinset, ← List.count_pos_iff, hcount]
    cases (s.phase i).stamp? <;> simp
  have hflow := congrArg List.length hs.flow
  rw [hset, List.toFinset_card_of_nodup hnodup, List.length_map]
  simpa [whole] using hflow

/-- Under every schedule the queue of a key keeps its order and its limit, every handle
is to the queue that the key has, and every entry was put once and goes only when it
expires. When the clock stands still and everybody has an answer, as many callers got
through as the limit and the slots at that instant allow. -/
theorem shared_queue_sound [Fintype ι] (hl : 1 ≤ limit) (window : Span) {queue? : Option Queue}
    (fits : (queue?.getD []).Fits limit) (atEndpoint : ι → Bool) (schedule : List (Move ι)) :
    let effect := (System.start queue? atEndpoint).play limit window schedule
    Sound limit window (queue?.getD []) (schedule.map Move.reading) effect.state effect.events ∧
      ∀ t, queue? = none → 1000 ≤ window.ns → (∀ move ∈ schedule, move.reading = t) →
        (∀ i, (effect.state.phase i).answer?.isSome) →
        Lined t effect.state.queue ∧
          (Finset.univ.filter fun i => (effect.state.phase i).stamp?.isSome).card =
            min (Fintype.card ι) (min limit (slots t)) := by
  intro effect
  have hlimit : limit ≠ 0 := by omega
  have hsound : Sound limit window (queue?.getD []) ([] ++ schedule.map Move.reading)
      effect.state ([] ++ effect.events) := (sound_start fits atEndpoint).play hlimit schedule
  refine ⟨hsound, fun t hnone hw still answered => ?_⟩
  subst hnone
  have hstanding := (standing_start limit t atEndpoint).play (sound_start fits atEndpoint)
    (by simp) hlimit hw still
  rw [List.nil_append] at hsound hstanding
  have hcard : (Finset.univ.filter fun i => (effect.state.phase i).stamp?.isSome).card =
      effect.state.queue.length := card_recorded hsound hstanding.whole
  have hle := Finset.card_filter_le Finset.univ fun i => (effect.state.phase i).stamp?.isSome
  have hshort : effect.state.queue.length ≤ min limit (slots t) := hstanding.short
  refine ⟨hstanding.lined, ?_⟩
  by_cases hroom : min limit (slots t) ≤ effect.state.queue.length
  · rw [Finset.card_univ] at hle
    omega
  -- while there is room nobody was refused
  · have hall : ∀ i, (effect.state.phase i).stamp?.isSome := by
      intro i
      obtain ⟨answer, ha⟩ := Option.isSome_iff_exists.1 (answered i)
      rw [Phase.stamp?, ha, Option.bind_some]
      by_contra hn
      exact hroom (hstanding.refused i answer ha (by simpa using hn))
    rw [Finset.filter_true_of_mem fun i _ => hall i, Finset.card_univ] at hcard ⊢
    omega

/-- Two callers find no queue, and a purge comes by while one of them holds the queue
that the other has made. -/
theorem shared_queue_sound_of_race :
    let t := Instant.ofNs 0
    let schedule : List (Move Bool) := [.turn false t, .turn true t, .turn false t, .sweep t,
      .turn true t, .turn true t, .sweep t, .turn true t, .turn true t, .turn true t]
    let s := ((System.start none fun _ => true).play 1 .second schedule).state
    s.queue.Fits 1 ∧ (Finset.univ.filter fun i => (s.phase i).stamp?.isSome).card = 1 := by
  intro t schedule s
  have hfits : ((none : Option Queue).getD []).Fits 1 := Queue.fits_nil 1
  have hsound := shared_queue_sound (le_refl 1) .second hfits (fun _ => true) schedule
  refine ⟨hsound.1.fits, ?_⟩
  rw [(hsound.2 t rfl (by decide) (by decide +kernel) (by decide +kernel)).2]
  decide +kernel

end Shared
end Throttle
