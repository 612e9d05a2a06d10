import Mathlib.Data.Set.Card
import Throttle.Proofs.Limiter

/-!
# Tracked queues

A queue is tracked as long as it holds an attempt. An attempt that finds everything expired
records itself, and a purge drops the queues that it leaves with nothing, so no call leaves
an empty queue behind, and none lets one grow past the limit. The identities that a limiter
tracks are then those with a positive count, and with a limit of zero there are none.
-/

namespace Throttle

theorem Queue.Offered.state_ne_nil {kept : Queue} {limit : Nat} {now later : Instant}
    {o : Outcome Queue Admission} (h : Offered kept limit now later o) (hl : limit ≠ 0) :
    o.state ≠ [] := by
  cases h with
  | full hfull =>
    apply List.ne_nil_of_length_pos
    exact lt_of_lt_of_le (Nat.pos_of_ne_zero hl) hfull
  | recorded => simp
  | crowded room last => exact List.ne_nil_of_mem (List.mem_of_getLast? last)
  | fault room last => exact List.ne_nil_of_mem (List.mem_of_getLast? last)

namespace AttemptLog

variable {log : AttemptLog} {limit : Nat}

/-- Every queue holds an attempt, and no more than the limit, in ascending order. -/
def Tidy (limit : Nat) (log : AttemptLog) : Prop :=
  ∀ (key : String) q, log[key]? = some q → q ≠ [] ∧ q.Fits limit

theorem tidy_empty (limit : Nat) : Tidy limit empty := by
  intro key q hq
  simp [empty] at hq

theorem Tidy.attempts (h : log.Tidy limit) (key : String) : (log.attempts key).Fits limit := by
  cases hk : log[key]? with
  | none =>
    rw [attempts_of_none hk]
    exact Queue.fits_nil limit
  | some q =>
    rw [attempts_of_some hk]
    exact (h key q hk).2

theorem Tidy.mem_iff (h : log.Tidy limit) {key : String} :
    key ∈ log ↔ 0 < (log.attempts key).length := by
  rw [Std.ExtTreeMap.mem_iff_isSome_getElem?]
  cases hk : log[key]? with
  | none => simp [attempts_of_none hk]
  | some q =>
    rw [attempts_of_some hk]
    exact iff_of_true rfl (List.length_pos_of_ne_nil (h key q hk).1)

theorem Tidy.untracked (h : log.Tidy 0) (key : String) : log[key]? = none := by
  rw [Option.eq_none_iff_forall_ne_some]
  intro q hq
  obtain ⟨hne, hfits⟩ := h key q hq
  exact hne (List.length_eq_zero_iff.1 (Nat.le_zero.1 hfits.short))

theorem Tidy.offer (h : log.Tidy limit) (c : Clock) (key : String) (window : Span) :
    (log.offer c key limit window).state.Tidy limit := by
  by_cases hl : limit = 0
  · simp only [AttemptLog.offer, hl, if_true]
    exact hl ▸ h
  · obtain ⟨-, -, hs⟩ := log.offer_spec c key hl window
    have ho := Queue.offer_offered (log.attempts key) limit window c.now (c.reading 1)
    intro other q hq
    rw [hs, Std.ExtTreeMap.getElem?_insert] at hq
    by_cases he : key = other
    · subst other
      rw [if_pos (by simp)] at hq
      cases hq
      exact ⟨ho.state_ne_nil hl, (h.attempts key).offer window c.now (c.reading 1)⟩
    · rw [if_neg (by simpa using he)] at hq
      exact h other q hq

theorem Tidy.sweep (h : log.Tidy limit) (now : Instant) (window : Span) (held : String → Bool) :
    (log.sweep now window held).Tidy limit := by
  intro key q hq
  rw [getElem?_sweep] at hq
  obtain ⟨before, hb, hq⟩ := Option.bind_eq_some_iff.1 hq
  obtain ⟨hne, hfits⟩ := h key before hb
  by_cases hheld : held key = true
  · rw [if_pos hheld] at hq
    cases hq
    exact ⟨hne, hfits⟩
  · rw [if_neg hheld] at hq
    have hkept := hfits.expire now window
    cases he : before.expire now window with
    | nil =>
      rw [he] at hq
      cases hq
    | cons oldest rest =>
      rw [he] at hq hkept
      cases hq
      exact ⟨List.cons_ne_nil oldest rest, hkept⟩

theorem mem_of_mem_offer {c : Clock} {key other : String} {window : Span}
    (h : other ∈ (log.offer c key limit window).state) : key = other ∨ other ∈ log := by
  by_cases hl : limit = 0
  · simp only [AttemptLog.offer, hl, if_true] at h
    exact .inr h
  · rw [(log.offer_spec c key hl window).2.2] at h
    simpa using h

theorem mem_of_mem_sweep {now : Instant} {window : Span} {held : String → Bool} {key : String}
    (h : key ∈ log.sweep now window held) : key ∈ log := by
  rw [Std.ExtTreeMap.mem_iff_isSome_getElem?, getElem?_sweep] at h
  rw [Std.ExtTreeMap.mem_iff_isSome_getElem?]
  exact Option.isSome_of_isSome_bind h

end AttemptLog

namespace Ledger

variable {s : Ledger} {limit : Nat}

structure Tidy (limit : Nat) (s : Ledger) : Prop where
  logs : ∀ kind, (s.log kind).Tidy limit
  named : ∀ kind, ∀ key ∈ s.log kind, ∃ identity : Identity, identity.place = (kind, key)

theorem tidy_empty (limit : Nat) : Tidy limit empty := by
  have hlog : ∀ kind, empty.log kind = .empty := by
    intro kind
    cases kind <;> rfl
  refine ⟨fun kind => ?_, fun kind key hk => ?_⟩
  · rw [hlog]
    exact AttemptLog.tidy_empty limit
  · rw [hlog] at hk
    simp [AttemptLog.empty] at hk

theorem Tidy.of_logs {t : Ledger} (h : s.Tidy limit) (logs : ∀ kind, t.log kind = s.log kind) :
    t.Tidy limit := by
  refine ⟨fun kind => ?_, fun kind => ?_⟩
  · rw [logs]
    exact h.logs kind
  · rw [logs]
    exact h.named kind

theorem Tidy.record (h : s.Tidy limit) (c : Clock) (identity : Identity) (window : Span) :
    (s.record c identity limit window).state.Tidy limit := by
  rw [Ledger.record, recordIn_eq_offer, Outcome.state_report, Outcome.state_lift]
  have hlog := (h.logs identity.kind).offer c identity.logKey window
  refine ⟨fun kind => ?_, fun kind key hk => ?_⟩
  · by_cases he : identity.kind = kind
    · subst he
      rw [log_setLog_self]
      exact hlog
    · rw [log_setLog_of_ne s he]
      exact h.logs kind
  · by_cases he : identity.kind = kind
    · subst he
      rw [log_setLog_self] at hk
      rcases AttemptLog.mem_of_mem_offer hk with rfl | hk
      · exact ⟨identity, rfl⟩
      · exact h.named _ key hk
    · rw [log_setLog_of_ne s he] at hk
      exact h.named kind key hk

theorem log_purge (s : Ledger) (c : Clock) (window : Span) (kind : IdentityKind) :
    (s.purge c window).state.log kind =
      (s.log kind).sweep (c.reading kind.turn) window fun _ => false := by
  cases kind <;> rfl

theorem Tidy.purge (h : s.Tidy limit) (c : Clock) (window : Span) :
    (s.purge c window).state.Tidy limit := by
  refine ⟨fun kind => ?_, fun kind key hk => ?_⟩
  · rw [log_purge]
    exact (h.logs kind).sweep _ _ _
  · rw [log_purge] at hk
    exact h.named kind key (AttemptLog.mem_of_mem_sweep hk)

/-! The places that are tracked. -/

def placesOf (s : Ledger) (kind : IdentityKind) : List (IdentityKind × String) :=
  (s.log kind).keys.map (kind, ·)

def places (s : Ledger) : List (IdentityKind × String) :=
  s.placesOf .ip ++ s.placesOf .user ++ s.placesOf .endpoint

theorem mem_placesOf {kind : IdentityKind} {place : IdentityKind × String} :
    place ∈ s.placesOf kind ↔ kind = place.1 ∧ place.2 ∈ s.log place.1 := by
  obtain ⟨other, key⟩ := place
  rw [placesOf, List.mem_map]
  constructor
  · rintro ⟨_, hk, he⟩
    cases he
    exact ⟨rfl, Std.ExtTreeMap.mem_keys.1 hk⟩
  · rintro ⟨rfl, hk⟩
    exact ⟨key, Std.ExtTreeMap.mem_keys.2 hk, rfl⟩

theorem mem_places {place : IdentityKind × String} :
    place ∈ s.places ↔ place.2 ∈ s.log place.1 := by
  obtain ⟨kind, key⟩ := place
  cases kind <;> simp [places, mem_placesOf]

theorem length_places (s : Ledger) : s.places.length = s.tracked := by
  simp [places, placesOf, tracked, log, Nat.add_assoc]

theorem nodup_places (s : Ledger) : s.places.Nodup := by
  have hkind : ∀ kind, (s.placesOf kind).Nodup := by
    intro kind
    apply List.Nodup.map
    · intro key other he
      exact (Prod.mk.inj he).2
    · exact Std.ExtTreeMap.nodup_keys
  have hdisjoint : ∀ {kind other}, kind ≠ other →
      (s.placesOf kind).Disjoint (s.placesOf other) := by
    intro kind other hne place hk ho
    rw [mem_placesOf] at hk ho
    exact hne (hk.1.trans ho.1.symm)
  apply List.Nodup.append
  · exact (hkind .ip).append (hkind .user) (hdisjoint (by simp))
  · exact hkind .endpoint
  · rw [List.disjoint_append_left]
    exact ⟨hdisjoint (by simp), hdisjoint (by simp)⟩

theorem Tidy.tracked_eq (h : s.Tidy limit) : (s.tracked : ℕ∞) =
    {place | ∃ identity : Identity, identity.place = place ∧ 0 < s.count identity}.encard := by
  have hplaces : {place | ∃ identity : Identity, identity.place = place ∧ 0 < s.count identity} =
      ↑s.places.toFinset := by
    ext place
    rw [Set.mem_ofPred_eq, Finset.mem_coe, List.mem_toFinset, mem_places, (h.logs _).mem_iff]
    constructor
    · rintro ⟨identity, rfl, hc⟩
      exact hc
    · intro hc
      -- Only an attempt starts a queue, so the key is that of some identity.
      obtain ⟨identity, hp⟩ := h.named place.1 place.2 ((h.logs _).mem_iff.2 hc)
      refine ⟨identity, hp, ?_⟩
      rw [count, attempts_eq_queue, hp]
      exact hc
  rw [hplaces, Set.encard_coe_eq_coe_finsetCard, List.toFinset_card_of_nodup s.nodup_places,
    length_places]

end Ledger

namespace Limiter

variable {p : Policy} {l : Limiter}

structure Tidy (p : Policy) (l : Limiter) : Prop where
  policy : l.policy = p
  ledger : l.ledger.Tidy p.requestLimit

theorem tidy_create {first : Limiter} {events : List Event} (h : create p = .ok (first, events)) :
    Tidy p first := by
  obtain ⟨hp, hs⟩ := create_spec h
  refine ⟨hp, ?_⟩
  rw [hs]
  exact Ledger.tidy_empty _

theorem Tidy.limit_eq (h : Tidy p l) : l.limit = p.requestLimit := by rw [limit, h.policy]

theorem Tidy.window_eq (h : Tidy p l) : l.window = p.window := by rw [window, h.policy]

theorem Tidy.fits (h : Tidy p l) (identity : Identity) :
    (l.ledger.attempts identity).Fits l.limit := by
  rw [h.limit_eq]
  exact (h.ledger.logs identity.kind).attempts identity.logKey

theorem Tidy.perform (h : Tidy p l) (c : Clock) (call : Call) :
    Tidy p (l.perform c call).state := by
  refine ⟨(l.policy_perform c call).trans h.policy, ?_⟩
  have hl := h.limit_eq
  rcases l.perform_cases c call with ⟨identity, -, hs, -⟩ | ⟨-, hs, -⟩ | ⟨-, hs⟩ | hs
  · rw [hs, attempt_state, ledger_withLedger, hl]
    exact h.ledger.record c identity l.window
  · rw [hs]
    exact h.ledger.purge c l.window
  · rw [hs]
    apply (Ledger.tidy_empty p.requestLimit).of_logs
    intro kind
    cases kind <;> rfl
  · exact h.ledger.of_logs hs

theorem tidy_of_run {first : Limiter} {events : List Event} (h : create p = .ok (first, events))
    (run : List (Call × Clock)) : Tidy p (Run.final perform first run) :=
  Run.final_keeps (fun _ c call hs => hs.perform c call) (tidy_create h) run

/-- After any run, whatever its clocks read: a tracked queue holds from one attempt up to the
limit, and as many identities are tracked as there are places with a positive count. -/
theorem tracked_within_limit {first : Limiter} {events : List Event}
    (h : create p = .ok (first, events)) (run : List (Call × Clock)) :
    let s := (Run.final perform first run).ledger
    (∀ kind (key : String) q, (s.log kind)[key]? = some q →
      1 ≤ q.length ∧ q.length ≤ p.requestLimit) ∧
      (s.tracked : ℕ∞) =
        {place | ∃ identity : Identity, identity.place = place ∧ 0 < s.count identity}.encard ∧
      (p.requestLimit = 0 → s.tracked = 0) := by
  intro s
  have hs : s.Tidy p.requestLimit := (tidy_of_run h run).ledger
  have hbounds : ∀ kind (key : String) q, (s.log kind)[key]? = some q →
      1 ≤ q.length ∧ q.length ≤ p.requestLimit := by
    intro kind key q hq
    obtain ⟨hne, hfits⟩ := hs.logs kind key q hq
    exact ⟨List.length_pos_of_ne_nil hne, hfits.short⟩
  refine ⟨hbounds, hs.tracked_eq, fun hzero => ?_⟩
  rw [← s.length_places, List.length_eq_zero_iff, List.eq_nil_iff_forall_not_mem]
  rintro ⟨kind, key⟩ hmem
  rw [Ledger.mem_places, Std.ExtTreeMap.mem_iff_isSome_getElem?] at hmem
  obtain ⟨q, hq⟩ := Option.isSome_iff_exists.1 hmem
  have hq := hbounds kind key q hq
  omega

/-- One attempt is refused, a purge drops every queue, and then the clock is set back. -/
theorem tracked_within_limit_of_purge :
    let p : Policy := { requestLimit := 1, windowSeconds := 2, byIp := true }
    let run := [(Call.attempt (.ip "a"), Clock.still (.ofNs 0)),
      (.attempt (.ip "a"), .still (.ofNs 1)),
      (.attempt (.endpoint "a" "GET|/"), .still (.ofNs 1)),
      (.purge, .still (.ofNs 5000000000)),
      (.attempt (.endpoint "a" "GET|/"), .still (.ofNs 3)),
      (.attempt (.user "a"), .still (.ofNs 2))]
    let s := (Run.final perform ⟨p, by decide, .empty⟩ run).ledger
    s.tracked = 2 ∧
      (2 : ℕ∞) =
        {place | ∃ identity : Identity, identity.place = place ∧ 0 < s.count identity}.encard := by
  intro p run s
  obtain ⟨-, htracked, -⟩ := tracked_within_limit (p := p) rfl run
  have htwo : s.tracked = 2 := by decide +kernel
  refine ⟨htwo, ?_⟩
  rw [← htracked]
  exact_mod_cast htwo.symm

end Limiter
end Throttle
