import Throttle.Proofs.ClosedForm
import Throttle.Proofs.Conservation
import Throttle.Proofs.Tracking

/-!
# What a purge removes

Queues ascend in every ledger that can be reached, so the entries that a purge takes from the
front of a queue are all those before the cutoff. A key goes when none of its entries is left.
What has stayed does not expire at the same reading again, so a second purge finds nothing.
-/

namespace Throttle
namespace Queue

theorem remaining_remaining (now : Instant) (window : Span) (q : Queue) :
    (q.remaining now window).remaining now window = q.remaining now window := by
  simp only [remaining]
  split
  · rw [List.filter_filter]
    simp
  · rfl

end Queue

namespace AttemptLog

variable {log : AttemptLog}

def Ordered (log : AttemptLog) : Prop := ∀ (key : String), ∀ q ∈ log[key]?, q.Ascending

theorem Ordered.perform (h : log.Ordered) (c : Clock) (call : Call) :
    (log.perform c call).state.Ordered :=
  fun key => (log.perform_treated c call key).ascending (h key)

theorem Ordered.getElem?_sweep (h : log.Ordered) (now : Instant) (window : Span) (key : String) :
    (log.sweep now window fun _ => false)[key]? =
      (log[key]?.map (Queue.remaining now window)).filter (· ≠ []) := by
  rw [AttemptLog.getElem?_sweep]
  cases hk : log[key]? with
  | none => rfl
  | some q =>
    rw [Option.bind_some, Option.map_some, (h key q hk).expire_eq_remaining]
    cases q.remaining now window <;> simp [Option.filter]

theorem Ordered.sweep_sweep (h : log.Ordered) (now : Instant) (window : Span) :
    AttemptLog.sweep (log.sweep now window fun _ => false) now window (fun _ => false) =
      log.sweep now window fun _ => false := by
  have hswept : Ordered (log.sweep now window fun _ => false) :=
    h.perform (.still now) (.purge window)
  refine Std.ExtTreeMap.ext_getElem? fun key => ?_
  rw [hswept.getElem?_sweep, h.getElem?_sweep]
  cases log[key]? with
  | none => rfl
  | some q =>
    by_cases hq : q.remaining now window = []
    · simp [hq, Option.filter]
    · simp [hq, Option.filter, Queue.remaining_remaining]

theorem size_sweep_le (log : AttemptLog) (now : Instant) (window : Span)
    (held : String → Bool) : (log.sweep now window held).size ≤ log.size :=
  Std.ExtTreeMap.size_filterMap_le_size

end AttemptLog

namespace Ledger

variable {s t : Ledger}

/-- A ledger that calls lead to from the empty one, each with any limit, window and clock. One
that is made on a single log may leave a queue empty. The registries may hold anything. -/
inductive Reachable : Ledger → Prop
  | empty : Reachable .empty
  | record {s : Ledger} (past : Reachable s) (c : Clock) (identity : Identity) (limit : Nat)
      (window : Span) : Reachable (s.record c identity limit window).state
  | purge {s : Ledger} (past : Reachable s) (c : Clock) (window : Span) :
      Reachable (s.purge c window).state
  | clear {s : Ledger} (past : Reachable s) : Reachable s.clear
  | call {s : Ledger} (past : Reachable s) (kind : IdentityKind) (c : Clock)
      (call : AttemptLog.Call) : Reachable (s.setLog kind ((s.log kind).perform c call).state)
  | register {s : Ledger} (past : Reachable s) (hostile approved : Registry) :
      Reachable { s with hostile, approved }

def Ordered (s : Ledger) : Prop := ∀ kind, (s.log kind).Ordered

theorem ordered_empty : Ordered empty := by
  intro kind key q hq
  cases kind <;> simp [empty, log, AttemptLog.empty] at hq

theorem Ordered.setLog (h : s.Ordered) (kind : IdentityKind) {log : AttemptLog}
    (hlog : log.Ordered) : (s.setLog kind log).Ordered := by
  intro other
  by_cases he : kind = other
  · subst other
    rw [log_setLog_self]
    exact hlog
  · rw [log_setLog_of_ne s he]
    exact h other

theorem Reachable.ordered (h : s.Reachable) : s.Ordered := by
  induction h with
  | empty => exact ordered_empty
  | record past c identity limit window ih =>
    rw [Ledger.record, recordIn_eq_offer, Outcome.state_report, Outcome.state_lift]
    exact ih.setLog _ ((ih _).perform c (.offer identity.logKey limit window))
  | purge past c window ih =>
    intro kind
    rw [log_purge]
    exact (ih kind).perform (.still (c.reading kind.turn)) (.purge window)
  | clear past ih =>
    intro kind
    cases kind <;> exact ordered_empty .ip
  | call past kind c call ih => exact ih.setLog kind ((ih kind).perform c call)
  | register past hostile approved ih =>
    intro kind
    cases kind
    · exact ih .ip
    · exact ih .user
    · exact ih .endpoint

theorem Ordered.queue?_purge (h : s.Ordered) (c : Clock) (window : Span)
    (place : IdentityKind × String) :
    (s.purge c window).state.queue? place =
      ((s.queue? place).map (Queue.remaining (c.reading place.1.turn) window)).filter (· ≠ []) := by
  rw [queue?, log_purge]
  exact (h place.1).getElem?_sweep _ window place.2

theorem Ordered.purge_purge (h : s.Ordered) (now : Instant) (window : Span) :
    ((s.purge (.still now) window).state.purge (.still now) window).state =
      (s.purge (.still now) window).state := by
  refine ext_of_log (fun kind => ?_) rfl rfl
  simp only [log_purge, Clock.reading_still]
  exact (h kind).sweep_sweep now window

theorem tracked_purge (s : Ledger) (c : Clock) (window : Span) :
    ∃ n, (s.purge c window).result = .ok n ∧ n + (s.purge c window).state.tracked = s.tracked := by
  let swept kind := (s.log kind).sweep (c.reading kind.turn) window fun _ => false
  have hle : ∀ kind, (swept kind).size ≤ (s.log kind).size :=
    fun kind => AttemptLog.size_sweep_le _ _ _ _
  have hips := hle .ip
  have husers := hle .user
  have hendpoints := hle .endpoint
  refine ⟨(s.log .ip).size - (swept .ip).size + ((s.log .user).size - (swept .user).size) +
    ((s.log .endpoint).size - (swept .endpoint).size), rfl, ?_⟩
  have htracked : (s.purge c window).state.tracked =
      (swept .ip).size + (swept .user).size + (swept .endpoint).size := rfl
  have hbefore : s.tracked = (s.log .ip).size + (s.log .user).size + (s.log .endpoint).size := rfl
  omega

def dropped (s t : Ledger) : Set (IdentityKind × String) :=
  {place | place.2 ∈ s.log place.1 ∧ place.2 ∉ t.log place.1}

theorem encard_dropped (sub : ∀ kind, ∀ key ∈ t.log kind, key ∈ s.log kind) {n : Nat}
    (hn : n + t.tracked = s.tracked) : (dropped s t).encard = n := by
  have hset : dropped s t = ↑(s.places.toFinset \ t.places.toFinset) := by
    ext place
    simp [dropped, mem_places]
  have hsub : t.places.toFinset ⊆ s.places.toFinset := by
    intro place hp
    rw [List.mem_toFinset, mem_places] at hp ⊢
    exact sub place.1 place.2 hp
  rw [hset, Set.encard_coe_eq_coe_finsetCard, Finset.card_sdiff_of_subset hsub,
    List.toFinset_card_of_nodup s.nodup_places, List.toFinset_card_of_nodup t.nodup_places,
    length_places, length_places, ← hn, Nat.add_sub_cancel]

theorem encard_purge (s : Ledger) (c : Clock) (window : Span) :
    ∃ n : Nat, (s.purge c window).result = .ok n ∧
      (dropped s (s.purge c window).state).encard = n := by
  obtain ⟨n, hn, hsum⟩ := s.tracked_purge c window
  refine ⟨n, hn, encard_dropped (fun kind key hk => ?_) hsum⟩
  rw [log_purge] at hk
  exact AttemptLog.mem_of_mem_sweep hk

/-! What is kept. -/

section

variable {now : Instant} {window : Span} {kind : IdentityKind} {key : String} {kept : Queue}

theorem Ordered.kept_iff (h : s.Ordered) :
    ((s.purge (.still now) window).state.log kind)[key]? = some kept ↔
      (∃ q, (s.log kind)[key]? = some q ∧ q.remaining now window = kept) ∧ kept ≠ [] := by
  have hq : ((s.purge (.still now) window).state.log kind)[key]? = _ :=
    h.queue?_purge (.still now) window (kind, key)
  rw [hq, Option.filter_eq_some_iff, Option.map_eq_some_iff, decide_eq_true_eq]
  rfl

theorem Ordered.kept_iff_of_cutoff (h : s.Ordered)
    (hrange : Instant.InRange (now.ns - window.ns) ∧ Instant.InRange (now.ns - window.ns + 1000)) :
    ((s.purge (.still now) window).state.log kind)[key]? = some kept ↔
      ∃ q, (s.log kind)[key]? = some q ∧ (∃ t ∈ q, now.ns - window.ns + 1000 ≤ t.ns) ∧
        kept = q.filter (now.ns - window.ns + 1000 ≤ ·.ns) := by
  have hfilter : ∀ q, Queue.remaining now window q =
      q.filter (now.ns - window.ns + 1000 ≤ ·.ns) := fun q => if_pos hrange
  simp only [h.kept_iff, hfilter]
  constructor
  · rintro ⟨⟨q, hk, rfl⟩, hne⟩
    obtain ⟨t, ht⟩ := List.exists_mem_of_ne_nil _ hne
    obtain ⟨ht, hlate⟩ := List.mem_filter.1 ht
    exact ⟨q, hk, ⟨t, ht, of_decide_eq_true hlate⟩, rfl⟩
  · rintro ⟨q, hk, ⟨t, ht, hlate⟩, rfl⟩
    refine ⟨⟨q, hk, rfl⟩, ?_⟩
    exact List.ne_nil_of_mem (List.mem_filter.2 ⟨ht, decide_eq_true hlate⟩)

theorem Ordered.kept_iff_of_no_cutoff (h : s.Ordered)
    (hrange : ¬ (Instant.InRange (now.ns - window.ns) ∧
      Instant.InRange (now.ns - window.ns + 1000))) :
    ((s.purge (.still now) window).state.log kind)[key]? = some kept ↔
      (s.log kind)[key]? = some kept ∧ kept ≠ [] := by
  have hall : ∀ q, Queue.remaining now window q = q := fun q => if_neg hrange
  simp only [h.kept_iff, hall, exists_eq_right]

end

theorem Ordered.purge_again (h : s.Ordered) (now : Instant) (window : Span) :
    let o := s.purge (.still now) window
    let again := o.state.purge (.still now) window
    again.result = .ok 0 ∧ again.state = o.state := by
  intro o again
  have hsame : again.state = o.state := h.purge_purge now window
  obtain ⟨n, hn, hsum⟩ := o.state.tracked_purge (.still now) window
  change n + again.state.tracked = o.state.tracked at hsum
  have hzero : n = 0 := by
    rw [hsame] at hsum
    omega
  rw [← hzero]
  exact ⟨hn, hsame⟩

/-- Of any ledger that can be reached, with any window: if the window has a cutoff, a purge keeps
the keys with an entry not before it, each with just those entries, and if not, it drops the keys
whose queues are empty. It counts the keys that went, and a second one finds nothing to do. -/
theorem purge_removes_expired (h : s.Reachable) (now : Instant) (window : Span) :
    let start := now.ns - window.ns
    let o := s.purge (.still now) window
    let again := o.state.purge (.still now) window
    (Instant.InRange start ∧ Instant.InRange (start + 1000) →
      ∀ kind (key : String) kept, (o.state.log kind)[key]? = some kept ↔
        ∃ q, (s.log kind)[key]? = some q ∧ (∃ t ∈ q, start + 1000 ≤ t.ns) ∧
          kept = q.filter (start + 1000 ≤ ·.ns)) ∧
    (¬ (Instant.InRange start ∧ Instant.InRange (start + 1000)) →
      ∀ kind (key : String) kept, (o.state.log kind)[key]? = some kept ↔
        (s.log kind)[key]? = some kept ∧ kept ≠ []) ∧
    (∃ n : Nat, o.result = .ok n ∧ (dropped s o.state).encard = n) ∧
    o.state.hostile = s.hostile ∧ o.state.approved = s.approved ∧
    again.result = .ok 0 ∧ again.state = o.state := by
  intro start o again
  have ho := h.ordered
  obtain ⟨hzero, hsame⟩ := ho.purge_again now window
  exact ⟨fun hrange _ _ _ => ho.kept_iff_of_cutoff hrange,
    fun hrange _ _ _ => ho.kept_iff_of_no_cutoff hrange,
    s.encard_purge (.still now) window, rfl, rfl, hzero, hsame⟩

/-- One of two entries expires, and the key whose only entry was taken goes. The longest window has
no cutoff, so that key is the only one that goes. -/
theorem purge_removes_expired_of_taken :
    let first := (empty.record (.still (.ofNs 0)) (.ip "a") 2 .second).state
    let second := (first.record (.still (.ofNs 500000000)) (.ip "a") 2 .second).state
    let third := (second.record (.still (.ofNs 0)) (.user "b") 2 .second).state
    let taken := (third.log .user).perform (.still (.ofNs 0)) (.takeOldest "b")
    let s := third.setLog .user taken.state
    let o := s.purge (.still (.ofNs 1200000000)) .second
    let r := s.purge (.still (.ofNs 1200000000)) .longest
    (o.state.log .ip)["a"]? = some [.ofNs 500000000] ∧ (dropped s o.state).encard = 1 ∧
      (r.state.log .ip)["a"]? = some [.ofNs 0, .ofNs 500000000] ∧
      (r.state.log .user)["b"]? ≠ some [] := by
  intro first second third taken s o r
  have hs : s.Reachable := by
    apply Reachable.call
    apply Reachable.record
    apply Reachable.record
    apply Reachable.record
    exact .empty
  have ha : (s.log .ip)["a"]? = some [.ofNs 0, .ofNs 500000000] := by decide +kernel
  obtain ⟨hcut, -, ⟨n, hn, hcard⟩, -⟩ := purge_removes_expired hs (.ofNs 1200000000) .second
  obtain ⟨-, hall, -⟩ := purge_removes_expired hs (.ofNs 1200000000) .longest
  have hone : o.result = .ok 1 := by decide +kernel
  have he : n = 1 := Except.ok.inj (hn.symm.trans hone)
  subst he
  refine ⟨(hcut (by decide) _ _ _).2 ⟨_, ha, ?_, by decide⟩, hcard, ?_, fun hb => ?_⟩
  · exact ⟨.ofNs 500000000, by simp, by decide⟩
  · exact (hall (by decide) _ _ _).2 ⟨ha, by simp⟩
  · exact ((hall (by decide) _ _ _).1 hb).2 rfl

end Ledger
end Throttle
