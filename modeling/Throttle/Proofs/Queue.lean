import Mathlib.Data.List.TakeWhile
import Throttle.Attempt.Queue
import Throttle.Proofs.Instant

/-!
# What one attempt does to a queue

The search for a free instant is given in closed form, and from it the ways in which
an append and an offer can end. Expiry splits a queue into entries before the cutoff
and the entries that stay.
-/

namespace Throttle

def Admission.stampIn? (r : Except Fault Admission) : Option Instant :=
  r.toOption.bind stamp?

@[simp] theorem Admission.stampIn?_recorded (stamp : Instant) :
    stampIn? (.ok (.recorded stamp)) = some stamp := rfl

@[simp] theorem Admission.stampIn?_refused (reason : Reason) :
    stampIn? (.ok (.refused reason)) = none := rfl

@[simp] theorem Admission.stampIn?_error (fault : Fault) :
    stampIn? (.error fault) = none := rfl

theorem Admission.stampIn?_eq_some_iff {r : Except Fault Admission} {stamp : Instant} :
    stampIn? r = some stamp ↔ r = .ok (.recorded stamp) := by
  cases r with
  | error fault => simp
  | ok a => cases a <;> simp

namespace Queue

def Slot.after (newest : Instant) : Slot :=
  match newest.next? with
  | some stamp => .free stamp
  | none => .pastLatest

theorem nudge_of_lt {newest candidate : Instant} (h : newest < candidate) (n : Nat) :
    nudge newest n candidate = .free candidate := by
  have hn : ¬ candidate ≤ newest := not_le.2 h
  cases n <;> simp [nudge, hn]

theorem nudge_of_far {newest candidate : Instant} {n : Nat}
    (h : candidate.ns + n ≤ newest.ns) : nudge newest n candidate = .taken newest := by
  induction n generalizing candidate with
  | zero =>
    have hle : candidate ≤ newest := by rw [Instant.le_iff]; omega
    simp [nudge, hle]
  | succ n ih =>
    have hle : candidate ≤ newest := by rw [Instant.le_iff]; omega
    cases hc : candidate.next? with
    | none =>
      have hl := Instant.next?_eq_none_iff.1 hc
      have hu := Instant.le_iff.1 (Instant.le_latest newest)
      subst candidate
      omega
    | some moved =>
      have hm := Instant.next?_eq_some_iff.1 hc
      simp only [nudge, hle, if_true, hc]
      exact ih (by omega)

theorem nudge_of_near {newest candidate : Instant} {n : Nat} (hle : candidate ≤ newest)
    (h : newest.ns < candidate.ns + n) : nudge newest n candidate = .after newest := by
  induction n generalizing candidate with
  | zero => rw [Instant.le_iff] at hle; omega
  | succ n ih =>
    rcases eq_or_lt_of_le hle with he | hlt
    · subst candidate
      cases hc : newest.next? with
      | none => simp [nudge, hc, Slot.after]
      | some moved =>
        have hm := Instant.next?_eq_some_iff.1 hc
        have hlt : newest < moved := by rw [Instant.lt_iff]; omega
        simp [nudge, hc, Slot.after, nudge_of_lt hlt]
    · rw [Instant.lt_iff] at hlt
      cases hc : candidate.next? with
      | none =>
        have hl := Instant.next?_eq_none_iff.1 hc
        have hu := Instant.le_iff.1 (Instant.le_latest newest)
        subst candidate
        omega
      | some moved =>
        have hm := Instant.next?_eq_some_iff.1 hc
        simp only [nudge, hle, if_true, hc]
        exact ih (by rw [Instant.le_iff]; omega) (by omega)

/-- Only a newest entry exactly at the far end of the tolerance leaves no slot; one
that is further ahead of the clock is stepped over like one that is nearer. -/
theorem slot_of_getLast? {q : Queue} {newest : Instant} (h : q.getLast? = some newest)
    (now : Instant) : q.slot now =
      if newest < now then .free now
      else if newest.ns = now.ns + 1000 then .taken newest
      else .after newest := by
  have hg : newest.since now > .tolerance ↔ 1000 < newest.ns - now.ns := Iff.rfl
  have hn : ((Span.nudgeLimit : Nat) : Int) = 1000 := rfl
  simp only [slot, h, hg]
  by_cases hlt : newest < now
  · have hns := Instant.lt_iff.1 hlt
    rw [if_neg (by omega), if_pos hlt, nudge_of_lt hlt]
  · have hle := not_lt.1 hlt
    have hns := Instant.le_iff.1 hle
    rw [if_neg hlt]
    by_cases hfar : 1000 < newest.ns - now.ns
    · rw [if_pos hfar, if_neg (by omega)]
      rfl
    · rw [if_neg hfar]
      by_cases hedge : newest.ns = now.ns + 1000
      · rw [if_pos hedge, nudge_of_far (by omega)]
      · rw [if_neg hedge, nudge_of_near hle (by omega)]

inductive Appended (q : Queue) (now later : Instant) : Outcome Queue (Option Instant) → Prop
  | fresh (behind : ∀ newest, q.getLast? = some newest → newest < now) :
      Appended q now later { result := .ok (some now), state := q ++ [now] }
  | moved {newest stamp : Instant} (last : q.getLast? = some newest) (ahead : now ≤ newest)
      (gap : newest.ns ≠ now.ns + 1000) (next : stamp.ns = newest.ns + 1) :
      Appended q now later { result := .ok (some stamp), state := q ++ [stamp] }
  | reread {newest : Instant} (last : q.getLast? = some newest)
      (edge : newest.ns = now.ns + 1000) (passed : newest < later) :
      Appended q now later { result := .ok (some later), state := q ++ [later], samples := 1 }
  | crowded {newest : Instant} (last : q.getLast? = some newest)
      (edge : newest.ns = now.ns + 1000) (stuck : later ≤ newest) :
      Appended q now later { result := .ok none, state := q, samples := 1 }
  | fault (last : q.getLast? = some .latest) (gap : Instant.latest.ns ≠ now.ns + 1000) :
      Appended q now later { result := .error .pastLatest, state := q }

theorem append_appended (q : Queue) (now later : Instant) :
    Appended q now later (q.append now later) := by
  cases hl : q.getLast? with
  | none =>
    have hs : q.slot now = .free now := by simp [slot, hl]
    simp only [append, hs]
    exact .fresh (by simp [hl])
  | some newest =>
    have hs := slot_of_getLast? hl now
    by_cases hlt : newest < now
    · rw [if_pos hlt] at hs
      simp only [append, hs]
      exact .fresh (by simp [hl, hlt])
    · rw [if_neg hlt] at hs
      by_cases hedge : newest.ns = now.ns + 1000
      · rw [if_pos hedge] at hs
        simp only [append, hs]
        split
        · exact .reread hl hedge ‹_›
        · exact .crowded hl hedge (not_lt.1 ‹_›)
      · rw [if_neg hedge] at hs
        cases hn : newest.next? with
        | none =>
          have he := Instant.next?_eq_none_iff.1 hn
          subst newest
          simp only [append, hs, Slot.after, hn]
          exact .fault hl hedge
        | some stamp =>
          simp only [append, hs, Slot.after, hn]
          exact .moved hl (not_lt.1 hlt) hedge (Instant.next?_eq_some_iff.1 hn)

theorem Appended.state_eq {q : Queue} {now later : Instant} {o : Outcome Queue (Option Instant)}
    (h : Appended q now later o) : o.state = q ++ o.result.toOption.join.toList := by
  cases h <;> simp [Except.toOption]

theorem Ascending.le_newest {q : Queue} (h : q.Ascending) {newest : Instant}
    (hl : q.getLast? = some newest) : ∀ t ∈ q, t ≤ newest := by
  obtain ⟨older, rfl⟩ := List.getLast?_eq_some_iff.1 hl
  intro t ht
  rcases List.mem_append.1 ht with ht | ht
  · exact le_of_lt ((List.pairwise_append.1 h).2.2 t ht newest (by simp))
  · rw [List.mem_singleton.1 ht]

theorem Ascending.concat {q : Queue} (h : q.Ascending) {stamp : Instant}
    (hs : ∀ t ∈ q, t < stamp) : Ascending (q ++ [stamp]) :=
  List.pairwise_append.2 ⟨h, List.pairwise_singleton _ _, by simpa using hs⟩

theorem taken_concat {q : Queue} {stamp : Instant} {low : Int}
    (h : ∀ t ∈ q, ∀ n, low ≤ n → n ≤ t.ns → ∃ u ∈ q, u.ns = n)
    (hs : ∀ n, low ≤ n → n < stamp.ns → ∃ u ∈ q, u.ns = n) :
    ∀ t ∈ q ++ [stamp], ∀ n, low ≤ n → n ≤ t.ns → ∃ u ∈ q ++ [stamp], u.ns = n := by
  intro t ht n hn hnt
  by_cases he : n = stamp.ns
  · exact ⟨stamp, by simp, he.symm⟩
  · have hu : ∃ u ∈ q, u.ns = n := by
      rcases List.mem_append.1 ht with ht | ht
      · exact h t ht n hn hnt
      · rw [List.mem_singleton.1 ht] at hnt
        exact hs n hn (by omega)
    obtain ⟨u, hu, hun⟩ := hu
    exact ⟨u, List.mem_append_left _ hu, hun⟩

theorem Appended.stamp_spec {q : Queue} {now later : Instant} {o : Outcome Queue (Option Instant)}
    (ho : Appended q now later o) (h : q.Ascending) {stamp : Instant}
    (hr : o.result = .ok (some stamp)) : now ≤ stamp ∧ ∀ t ∈ q, t < stamp := by
  cases ho with
  | fresh behind =>
    cases hr
    refine ⟨le_refl _, fun t ht => ?_⟩
    have hl := List.getLast?_eq_some_getLast (List.ne_nil_of_mem ht)
    exact lt_of_le_of_lt (h.le_newest hl t ht) (behind _ hl)
  | @moved newest stamp last ahead gap next =>
    cases hr
    have hlt : newest < stamp := by rw [Instant.lt_iff]; omega
    exact ⟨ahead.trans hlt.le, fun t ht => lt_of_le_of_lt (h.le_newest last t ht) hlt⟩
  | reread last edge passed =>
    cases hr
    have hle : now ≤ later := by
      rw [Instant.lt_iff] at passed
      rw [Instant.le_iff]
      omega
    exact ⟨hle, fun t ht => lt_of_le_of_lt (h.le_newest last t ht) passed⟩
  | crowded => cases hr
  | fault => cases hr

theorem Appended.ascending {q : Queue} {now later : Instant} {o : Outcome Queue (Option Instant)}
    (ho : Appended q now later o) (h : q.Ascending) : o.state.Ascending := by
  have hs := ho.state_eq
  cases hr : o.result with
  | error e =>
    rw [hs, hr]
    simpa [Except.toOption] using h
  | ok stamp? =>
    cases stamp? with
    | none =>
      rw [hs, hr]
      simpa [Except.toOption] using h
    | some stamp =>
      rw [hs, hr]
      exact h.concat (ho.stamp_spec h hr).2

/-- The ways in which an offer can end, by what it leaves of the entries that have
not expired. -/
inductive Offered (kept : Queue) (limit : Nat) (now later : Instant) :
    Outcome Queue Admission → Prop
  | full (h : limit ≤ kept.length) :
      Offered kept limit now later { result := .ok (.refused .full), state := kept }
  | recorded {stamp : Instant} {o : Outcome Queue (Option Instant)} (room : kept.length < limit)
      (appended : Appended kept now later o) (ok : o.result = .ok (some stamp))
      (state : o.state = kept ++ [stamp]) :
      Offered kept limit now later
        { result := .ok (.recorded stamp), state := kept ++ [stamp], samples := o.samples }
  | crowded {newest : Instant} (room : kept.length < limit) (last : kept.getLast? = some newest)
      (edge : newest.ns = now.ns + 1000) (stuck : later ≤ newest) :
      Offered kept limit now later
        { result := .ok (.refused .crowded), state := kept, samples := 1 }
  | fault (room : kept.length < limit) (last : kept.getLast? = some .latest)
      (gap : Instant.latest.ns ≠ now.ns + 1000) :
      Offered kept limit now later { result := .error .pastLatest, state := kept }

theorem offer_offered (q : Queue) (limit : Nat) (window : Span) (now later : Instant) :
    Offered (q.expire now window) limit now later (q.offer limit window now later) := by
  by_cases h : limit ≤ (q.expire now window).length
  · simp only [offer, h, if_true]
    exact .full h
  · simp only [offer, h, if_false]
    have ha := append_appended (q.expire now window) now later
    generalize q.expire now window = kept at h ha
    generalize kept.append now later = o at ha
    have hroom := Nat.lt_of_not_le h
    cases ha with
    | fresh behind => exact .recorded hroom (.fresh behind) rfl rfl
    | moved last ahead gap next => exact .recorded hroom (.moved last ahead gap next) rfl rfl
    | reread last edge passed => exact .recorded hroom (.reread last edge passed) rfl rfl
    | crowded last edge stuck => exact .crowded hroom last edge stuck
    | fault last gap => exact .fault hroom last gap

theorem Offered.state_eq {kept : Queue} {limit : Nat} {now later : Instant}
    {o : Outcome Queue Admission} (h : Offered kept limit now later o) :
    o.state = kept ++ (Admission.stampIn? o.result).toList := by
  cases h <;> simp

theorem Offered.ascending {kept : Queue} {limit : Nat} {now later : Instant}
    {o : Outcome Queue Admission} (h : Offered kept limit now later o) (ha : kept.Ascending) :
    o.state.Ascending := by
  cases h with
  | recorded room appended ok state => exact ha.concat (appended.stamp_spec ha ok).2
  | _ => exact ha

theorem mem_offer {q : Queue} {limit : Nat} {window : Span} {now t : Instant}
    (h : t ∈ (q.offer limit window now now).state) :
    t ∈ q ∨ t = now ∨ ∃ u ∈ q, t.ns = u.ns + 1 := by
  have hk : ∀ u ∈ q.expire now window, u ∈ q := fun u hu => (expire_suffix now window q).subset hu
  have ho := offer_offered q limit window now now
  generalize q.offer limit window now now = o at h ho
  generalize q.expire now window = kept at hk ho
  cases ho with
  | recorded room appended ok state =>
    rcases List.mem_append.1 h with h | h
    · exact .inl (hk t h)
    · rw [List.mem_singleton.1 h]
      cases appended with
      | fresh => cases ok; exact .inr (.inl rfl)
      | moved last ahead gap next =>
        cases ok
        exact .inr (.inr ⟨_, hk _ (List.mem_of_getLast? last), next⟩)
      | reread => cases ok; exact .inr (.inl rfl)
      | crowded => cases ok
      | fault => cases ok
  | _ => exact .inl (hk t h)

theorem Offered.result_ne_zeroLimit {kept : Queue} {limit : Nat} {now later : Instant}
    {o : Outcome Queue Admission} (h : Offered kept limit now later o) :
    o.result ≠ .ok (.refused .zeroLimit) := by
  cases h <;> simp

/-! Expiry. -/

def expired (now : Instant) (window : Span) (q : Queue) : Queue :=
  match cutoff? now window with
  | some cutoff => q.takeWhile (· < cutoff)
  | none => []

theorem expired_append_expire (now : Instant) (window : Span) (q : Queue) :
    q.expired now window ++ q.expire now window = q := by
  rw [expired, expire]
  cases cutoff? now window with
  | none => rfl
  | some cutoff => exact List.takeWhile_append_dropWhile

theorem cutoff_of_mem_expired {now t : Instant} {window : Span} {q : Queue}
    (h : t ∈ q.expired now window) : ∃ cutoff, cutoff? now window = some cutoff ∧ t < cutoff := by
  rw [expired] at h
  cases hc : cutoff? now window with
  | none =>
    rw [hc] at h
    cases h
  | some cutoff =>
    rw [hc] at h
    exact ⟨cutoff, rfl, by simpa using List.mem_takeWhile_imp h⟩

theorem expire_split (now : Instant) (window : Span) (q : Queue) :
    ∃ gone, q = gone ++ q.expire now window ∧
      ∀ t ∈ gone, ∃ cutoff, cutoff? now window = some cutoff ∧ t < cutoff :=
  ⟨q.expired now window, (q.expired_append_expire now window).symm,
    fun _ h => cutoff_of_mem_expired h⟩

theorem expire_eq_self_iff {now : Instant} {window : Span} {q : Queue} :
    q.expire now window = q ↔ q.expired now window = [] := by
  have h := q.expired_append_expire now window
  constructor
  · intro he
    rw [he] at h
    simpa using h
  · intro he
    rw [he] at h
    exact h

theorem expired_of_inside {now : Instant} {window : Span} {q : Queue}
    (h : ∀ t ∈ q, now.ns - window.ns + 1000 ≤ t.ns) : q.expired now window = [] := by
  refine List.eq_nil_iff_forall_not_mem.2 fun t ht => ?_
  obtain ⟨cutoff, hc, hlt⟩ := cutoff_of_mem_expired ht
  have hns := cutoff?_ns hc
  have hmem : t ∈ q := by
    rw [← q.expired_append_expire now window]
    exact List.mem_append_left _ ht
  have hinside := h t hmem
  rw [Instant.lt_iff] at hlt
  omega

theorem expired_of_le {now : Instant} {window : Span} {q : Queue} (hw : 1000 ≤ window.ns)
    (h : ∀ t ∈ q, now ≤ t) : q.expired now window = [] := by
  apply expired_of_inside
  intro t ht
  have hle := Instant.le_iff.1 (h t ht)
  omega

theorem Ascending.expire_eq_filter {q : Queue} (h : q.Ascending) {now cutoff : Instant}
    {window : Span} (hc : cutoff? now window = some cutoff) :
    q.expire now window = q.filter (cutoff ≤ ·) := by
  unfold Queue.expire
  rw [hc]
  induction q with
  | nil => rfl
  | cons head rest ih =>
    rw [Ascending, List.pairwise_cons] at h
    by_cases hlt : head < cutoff
    · have hle : ¬ cutoff ≤ head := not_le.2 hlt
      simpa [hlt, hle] using ih h.2
    · have hle := not_lt.1 hlt
      have hrest : rest.filter (cutoff ≤ ·) = rest := by
        rw [List.filter_eq_self]
        intro t ht
        simpa using hle.trans (h.1 t ht).le
      simp [hlt, hle, hrest]

theorem expire_of_cutoff?_none {now : Instant} {window : Span} (h : cutoff? now window = none)
    (q : Queue) : q.expire now window = q := by
  simp [expire, h]

theorem cutoff?_eq_some_iff {now cutoff : Instant} {window : Span} :
    cutoff? now window = some cutoff ↔
      cutoff.ns = now.ns - window.ns + 1000 ∧ Instant.earliest.ns ≤ now.ns - window.ns := by
  have hu := Instant.le_iff.1 (Instant.le_latest cutoff)
  have ht : Span.tolerance.ns = 1000 := rfl
  unfold cutoff?
  cases hs : now.before? window with
  | none =>
    have hn := Instant.ofNs?_eq_none_iff.1 hs
    simp only [Option.bind_none, reduceCtorEq, false_iff]
    omega
  | some start =>
    have hns := Instant.before?_eq_some_iff.1 hs
    have hl := Instant.le_iff.1 (Instant.earliest_le start)
    rw [Option.bind_some, Instant.after?_eq_some_iff]
    omega

theorem cutoff?_of_range {now : Instant} {window : Span}
    (hstart : Instant.earliest.ns ≤ now.ns - window.ns)
    (hcutoff : now.ns - window.ns + 1000 ≤ Instant.latest.ns) :
    cutoff? now window = some ⟨now.ns - window.ns + 1000,
      Int.le_trans hstart (Int.le_add_of_nonneg_right (by decide)), hcutoff⟩ :=
  cutoff?_eq_some_iff.2 ⟨rfl, hstart⟩

theorem cutoff?_eq_none_iff {now : Instant} {window : Span} (hw : 1000 ≤ window.ns) :
    cutoff? now window = none ↔ now.ns - window.ns < Instant.earliest.ns := by
  have hu := Instant.le_iff.1 (Instant.le_latest now)
  constructor
  · intro hn
    by_contra hlow
    rw [cutoff?_of_range (by omega) (by omega)] at hn
    cases hn
  · intro hlow
    rw [Option.eq_none_iff_forall_ne_some]
    intro cutoff hc
    have hstart := (cutoff?_eq_some_iff.1 hc).2
    omega

theorem Ascending.lt_of_mem_expire {q : Queue} (h : q.Ascending) {now t : Instant} {window : Span}
    (hw : 1000 ≤ window.ns) (ht : t ∈ q.expire now window) : now.ns - window.ns < t.ns := by
  cases hc : cutoff? now window with
  | none =>
    have hlow := (cutoff?_eq_none_iff hw).1 hc
    have hl := Instant.le_iff.1 (Instant.earliest_le t)
    omega
  | some cutoff =>
    have hns := cutoff?_ns hc
    rw [h.expire_eq_filter hc, List.mem_filter] at ht
    have hle := Instant.le_iff.1 (of_decide_eq_true ht.2)
    omega

theorem Ascending.expire_expire {q : Queue} (h : q.Ascending) {earlier now : Instant}
    {window : Span} (hw : 1000 ≤ window.ns) (hle : earlier ≤ now) :
    (q.expire earlier window).expire now window = q.expire now window := by
  rw [Instant.le_iff] at hle
  cases he : cutoff? earlier window with
  | none => rw [expire_of_cutoff?_none he]
  | some first =>
    have hf := cutoff?_ns he
    cases hc : cutoff? now window with
    | none =>
      have hlow := (cutoff?_eq_none_iff hw).1 hc
      have hfirst : cutoff? earlier window = none := (cutoff?_eq_none_iff hw).2 (by omega)
      rw [hfirst] at he
      cases he
    | some cutoff =>
      have hns := cutoff?_ns hc
      rw [(h.expire earlier window).expire_eq_filter hc, h.expire_eq_filter he,
        h.expire_eq_filter hc, List.filter_filter]
      refine List.filter_congr fun t _ => ?_
      rw [Bool.eq_iff_iff]
      simp only [Bool.and_eq_true, decide_eq_true_eq, Instant.le_iff]
      omega

theorem expire_cons_eq_self_iff {oldest : Instant} {rest : Queue} {now : Instant} {window : Span} :
    expire now window (oldest :: rest) = oldest :: rest ↔
      (Instant.earliest.ns ≤ now.ns - window.ns →
        now.ns - window.ns + 1000 ≤ Instant.latest.ns → now.ns - window.ns + 1000 ≤ oldest.ns) := by
  cases hc : cutoff? now window with
  | none =>
    rw [expire_of_cutoff?_none hc]
    apply iff_of_true rfl
    intro hstart hcutoff
    rw [cutoff?_of_range hstart hcutoff] at hc
    cases hc
  | some cutoff =>
    obtain ⟨hns, hstart⟩ := cutoff?_eq_some_iff.1 hc
    have hu := Instant.le_iff.1 (Instant.le_latest cutoff)
    simp only [expire, hc]
    by_cases hlt : oldest < cutoff
    · have hle := List.length_dropWhile_le (fun t => decide (t < cutoff)) rest
      rw [List.dropWhile_cons_of_pos (by simpa using hlt)]
      rw [Instant.lt_iff] at hlt
      apply iff_of_false
      · intro he
        rw [he, List.length_cons] at hle
        omega
      · omega
    · rw [List.dropWhile_cons_of_neg (by simpa using hlt)]
      rw [Instant.lt_iff] at hlt
      apply iff_of_true rfl
      omega

theorem expire_shortens_iff {oldest : Instant} {rest : Queue} {now : Instant} {window : Span}
    (hw : 1000 ≤ window.ns) :
    (expire now window (oldest :: rest)).length < (oldest :: rest).length ↔
      Instant.earliest.ns ≤ now.ns - window.ns ∧ oldest.ns < now.ns - window.ns + 1000 := by
  have hu := Instant.le_iff.1 (Instant.le_latest now)
  have hs := expire_suffix now window (oldest :: rest)
  have he : (expire now window (oldest :: rest)).length = (oldest :: rest).length ↔
      expire now window (oldest :: rest) = oldest :: rest :=
    ⟨hs.eq_of_length, congrArg List.length⟩
  rw [hs.length_le.lt_iff_ne, Ne, he, expire_cons_eq_self_iff]
  omega

theorem offer_result_of_lt {q : Queue} {limit : Nat} {window : Span} {now : Instant}
    (later : Instant) (h : ∀ t ∈ q.expire now window, t < now) :
    (q.offer limit window now later).result =
      if (q.expire now window).length < limit then .ok (.recorded now)
      else .ok (.refused .full) := by
  have ho := offer_offered q limit window now later
  generalize q.offer limit window now later = o at ho
  generalize q.expire now window = kept at h ho
  have hbehind : ∀ {newest}, kept.getLast? = some newest → newest < now :=
    fun hl => h _ (List.mem_of_getLast? hl)
  cases ho with
  | full hfull => rw [if_neg (Nat.not_lt_of_le hfull)]
  | recorded room appended ok state =>
    rw [if_pos room]
    cases appended with
    | fresh behind => cases ok; rfl
    | moved last ahead gap next => exact absurd ahead (not_le.2 (hbehind last))
    | reread last edge passed =>
      have hlt := Instant.lt_iff.1 (hbehind last)
      omega
    | crowded => cases ok
    | fault => cases ok
  | crowded room last edge stuck =>
    have hlt := Instant.lt_iff.1 (hbehind last)
    omega
  | fault room last gap => exact absurd (hbehind last) (not_lt.2 (Instant.le_latest now))

/-! What every queue of a run is like. -/

structure Fits (limit : Nat) (q : Queue) : Prop where
  ascending : q.Ascending
  short : q.length ≤ limit

theorem fits_nil (limit : Nat) : Fits limit [] := ⟨.nil, Nat.zero_le _⟩

theorem Fits.expire {limit : Nat} {q : Queue} (h : q.Fits limit) (now : Instant)
    (window : Span) : (q.expire now window).Fits limit :=
  ⟨h.ascending.expire now window, (expire_suffix now window q).length_le.trans h.short⟩

theorem Fits.offer {limit : Nat} {q : Queue} (h : q.Fits limit) (window : Span)
    (now later : Instant) : (q.offer limit window now later).state.Fits limit := by
  have hk := h.expire now window
  have ho := offer_offered q limit window now later
  refine ⟨ho.ascending hk.ascending, ?_⟩
  generalize q.offer limit window now later = o at ho
  generalize q.expire now window = kept at hk ho
  cases ho with
  | recorded room appended ok state =>
    rw [List.length_append, List.length_singleton]
    omega
  | _ => exact hk.short

def Near (past : List Instant) (q : Queue) : Prop :=
  ∀ t : Instant, (∀ r ∈ past, r ≤ t) → ∀ x ∈ q, x.ns ≤ t.ns + 1000

theorem near_nil (past : List Instant) : Near past [] := by simp [Near]

theorem Near.mono {past readings : List Instant} {q : Queue} (h : Near past q) :
    Near (past ++ readings) q :=
  fun t ht => h t fun r hr => ht r (List.mem_append_left _ hr)

theorem Near.expire {past : List Instant} {q : Queue} (h : Near past q) (now : Instant)
    (window : Span) : Near past (q.expire now window) :=
  fun t ht x hx => h t ht x ((expire_suffix now window q).subset hx)

theorem Near.offer {past readings : List Instant} {q : Queue} {limit : Nat} {window : Span}
    {now later : Instant} (h : Near past q) (hp : ∀ r ∈ past, r ≤ now) (hnow : now ∈ readings)
    (hlater : (q.offer limit window now later).samples = 1 → later ∈ readings) :
    Near (past ++ readings) (q.offer limit window now later).state := by
  have hk := h.expire now window
  have ho := offer_offered q limit window now later
  generalize q.offer limit window now later = o at ho hlater
  generalize q.expire now window = kept at hk ho
  have hstamp : ∀ {stamp : Instant}, (∀ t, (∀ r ∈ past ++ readings, r ≤ t) →
      stamp.ns ≤ t.ns + 1000) → Near (past ++ readings) (kept ++ [stamp]) := by
    intro stamp hs t ht x hx
    rcases List.mem_append.1 hx with hx | hx
    · exact hk.mono t ht x hx
    · rw [List.mem_singleton.1 hx]
      exact hs t ht
  cases ho with
  | full => exact hk.mono
  | recorded room appended ok state =>
    refine hstamp fun t ht => ?_
    have hnt := Instant.le_iff.1 (ht now (List.mem_append_right _ hnow))
    cases appended with
    | fresh => cases ok; omega
    | moved last ahead gap next =>
      cases ok
      have hn := hk now hp _ (List.mem_of_getLast? last)
      omega
    | reread last edge passed =>
      cases ok
      have hl := Instant.le_iff.1 (ht later (List.mem_append_right _ (hlater rfl)))
      omega
    | crowded => cases ok
    | fault => cases ok
  | crowded => exact hk.mono
  | fault => exact hk.mono

end Queue
end Throttle
