import Mathlib.Data.List.NodupEquivFin
import Mathlib.Order.Monotone.Basic
import Throttle.Proofs.Ledger

/-!
# Spacing of recorded attempts

Of the attempts that an identity has recorded, each one and the one `limit` places
later lie more than the window less the tolerance apart. The clock may go back as
long as it does not go back behind a purge: what an attempt expires is still bounded
by the newest entry that it leaves, or by the entries that fill the window.
-/

namespace Throttle
namespace Queue

def Spaced (limit : Nat) (window : Span) (times : List Instant) : Prop :=
  ∀ i (h : i + limit < times.length), times[i].ns + window.ns - 1000 < times[i + limit].ns

variable {limit : Nat} {window : Span} {floor : List Instant} {gone q : Queue}

theorem Spaced.of_sublist {times part : List Instant} (hs : Spaced limit window times)
    (ha : Ascending times) (h : List.Sublist part times) : Spaced limit window part := by
  obtain ⟨f, hf⟩ := List.sublist_iff_exists_orderEmbedding_getElem?_eq.1 h
  intro i hi
  have hfi := hf i
  have hfn := hf (i + limit)
  rw [List.getElem?_eq_getElem (by omega)] at hfi
  rw [List.getElem?_eq_getElem hi] at hfn
  obtain ⟨hlt, hti⟩ := List.getElem?_eq_some_iff.1 hfi.symm
  obtain ⟨hln, htn⟩ := List.getElem?_eq_some_iff.1 hfn.symm
  have hgap : f i + limit ≤ f (i + limit) := by
    have hm : StrictMono fun n => f (i + n) := fun a b hab => f.strictMono (by omega)
    have hadd := hm.add_le_nat limit 0
    simp only [Nat.add_zero] at hadd
    omega
  have hs' := hs (f i) (by omega)
  have hle : times[f i + limit] ≤ times[f (i + limit)] := by
    rcases Nat.eq_or_lt_of_le hgap with he | hl
    · simp only [he, le_refl]
    · exact le_of_lt (List.pairwise_iff_getElem.1 ha _ _ _ _ hl)
  rw [Instant.le_iff, htn] at hle
  rw [hti] at hs'
  omega

theorem Spaced.length_filter_le {times : List Instant} (hs : Spaced limit window times)
    (ha : Ascending times) (start : Int) :
    (times.filter fun t => start ≤ t.ns ∧ t.ns ≤ start + (window.ns - 1000)).length ≤ limit := by
  have hmem : ∀ t ∈ times.filter fun t => start ≤ t.ns ∧ t.ns ≤ start + (window.ns - 1000),
      start ≤ t.ns ∧ t.ns ≤ start + (window.ns - 1000) := by
    intro t ht
    simpa using List.of_mem_filter ht
  have hsub := hs.of_sublist ha (List.filter_sublist
    (p := fun t : Instant => start ≤ t.ns ∧ t.ns ≤ start + (window.ns - 1000)))
  generalize (times.filter _) = part at hmem hsub ⊢
  by_contra hn
  have hlt := hsub 0 (by omega)
  have hfirst := hmem _ (List.getElem_mem (show 0 < part.length by omega))
  have hlast := hmem _ (List.getElem_mem (show 0 + limit < part.length by omega))
  omega

theorem Spaced.concat {lost kept : Queue} (hs : Spaced limit window (lost ++ kept))
    (hroom : kept.length < limit) {stamp : Instant}
    (hlate : ∀ e ∈ lost, e.ns + window.ns - 1000 < stamp.ns) :
    Spaced limit window (lost ++ kept ++ [stamp]) := by
  intro i hi
  have hlen : (lost ++ kept).length = lost.length + kept.length := List.length_append
  rw [List.length_append, List.length_singleton] at hi
  have hi' : i < (lost ++ kept).length := by omega
  rw [List.getElem_append_left hi']
  rcases Nat.eq_or_lt_of_le (Nat.le_of_lt_succ hi) with he | hlt
  · have hlost : i < lost.length := by omega
    simpa [he, List.getElem_append_left, hlost] using hlate _ (List.getElem_mem hlost)
  · rw [List.getElem_append_left hlt]
    exact hs i hlt

/-- The entries that are gone from a queue lie before it, and no instant that could
still be recorded is within a window of them, unless the queue is full. -/
structure Covered (limit : Nat) (window : Span) (floor : List Instant) (gone q : Queue) :
    Prop where
  ascending : Ascending (gone ++ q)
  spaced : Spaced limit window (gone ++ q)
  late : q.length < limit → ∀ e ∈ gone, ∀ t : Instant, (∀ r ∈ floor, r ≤ t) →
    (∀ x ∈ q, x < t) → e.ns + window.ns - 1000 < t.ns

theorem covered_nil : Covered limit window floor [] [] :=
  ⟨.nil, fun i h => by simp at h, by simp⟩

namespace Covered

theorem expire_late (h : Covered limit window floor gone q) {now : Instant}
    (hf : ∀ r ∈ floor, r ≤ now) : ∃ expired, q = expired ++ q.expire now window ∧
      ((q.expire now window).length < limit → ∀ e ∈ gone ++ expired, ∀ t : Instant, now ≤ t →
        (∀ x ∈ q.expire now window, x < t) → e.ns + window.ns - 1000 < t.ns) := by
  obtain ⟨expired, hq, hx⟩ := expire_split now window q
  have hbefore : ∀ e ∈ expired, e.ns + window.ns - 1000 < now.ns := by
    intro e he
    obtain ⟨cutoff, hc, hlt⟩ := hx e he
    have hns := cutoff?_ns hc
    rw [Instant.lt_iff] at hlt
    omega
  refine ⟨expired, hq, fun hroom e he t hnow ht => ?_⟩
  generalize q.expire now window = kept at hq hroom ht
  subst hq
  rw [Instant.le_iff] at hnow
  rcases List.mem_append.1 he with hg | hg
  -- what was gone before lies before the first that expires now, if any does
  · cases expired with
    | nil => exact h.late hroom e hg t (fun r hr => (hf r hr).trans (Instant.le_iff.2 hnow)) ht
    | cons first rest =>
      have hef := (List.pairwise_append.1 h.ascending).2.2 e hg first (by simp)
      have hfirst := hbefore first (by simp)
      rw [Instant.lt_iff] at hef
      omega
  · have he := hbefore e hg
    omega

theorem offer (h : Covered limit window floor gone q) (hw : 1000 ≤ window.ns)
    {now : Instant} (hf : ∀ r ∈ floor, r ≤ now) (later : Instant) :
    let o := q.offer limit window now later
    ∃ left, left ++ o.state = gone ++ q ++ (Admission.stampIn? o.result).toList ∧
      Covered limit window floor left o.state := by
  obtain ⟨expired, hq, hlate⟩ := h.expire_late hf
  have ho := offer_offered q limit window now later
  have hasc := h.ascending
  have hspaced := h.spaced
  generalize q.offer limit window now later = o at ho
  generalize q.expire now window = kept at hq hlate ho
  subst hq
  rw [← List.append_assoc] at hasc hspaced
  have hkept : Ascending kept := (List.pairwise_append.1 hasc).2.1
  refine ⟨gone ++ expired, by rw [ho.state_eq]; simp only [List.append_assoc], ?_⟩
  -- a recorded instant is past all that is gone, so from now on it covers them
  cases ho with
  | full hfull =>
    refine ⟨hasc, hspaced, fun hroom => ?_⟩
    exact absurd hfull (Nat.not_le_of_lt hroom)
  | @recorded stamp _ room appended ok state =>
    obtain ⟨hnow, hstamp⟩ := appended.stamp_spec hkept ok
    have hgone := fun e he => hlate room e he stamp hnow hstamp
    refine ⟨?_, ?_, ?_⟩
    · rw [← List.append_assoc]
      refine Ascending.concat hasc fun t ht => ?_
      rcases List.mem_append.1 ht with ht | ht
      · have := hgone t ht
        rw [Instant.lt_iff]
        omega
      · exact hstamp t ht
    · rw [← List.append_assoc]
      exact hspaced.concat room hgone
    · intro _ e he t _ ht
      have hlt := ht stamp (by simp)
      have := hgone e he
      rw [Instant.lt_iff] at hlt
      omega
  | crowded room last edge stuck =>
    refine ⟨hasc, hspaced, fun _ e he t _ ht => ?_⟩
    have hlt := ht _ (List.mem_of_getLast? last)
    exact hlate room e he t (by rw [Instant.lt_iff] at hlt; rw [Instant.le_iff]; omega) ht
  | fault room last gap =>
    refine ⟨hasc, hspaced, fun _ e he t _ ht => ?_⟩
    exact absurd (ht _ (List.mem_of_getLast? last)) (not_lt.2 (Instant.le_latest t))

theorem expire (h : Covered limit window floor gone q) {now : Instant} {readings : List Instant}
    (hf : ∀ r ∈ floor, r ≤ now) (hr : now ∈ readings) :
    ∃ left, left ++ q.expire now window = gone ++ q ∧
      Covered limit window (floor ++ readings) left (q.expire now window) := by
  obtain ⟨expired, hq, hlate⟩ := h.expire_late hf
  have hasc := h.ascending
  have hspaced := h.spaced
  generalize q.expire now window = kept at hq hlate
  subst hq
  rw [← List.append_assoc] at hasc hspaced
  refine ⟨gone ++ expired, by simp, hasc, hspaced, fun hroom e he t ht => ?_⟩
  exact hlate hroom e he t (ht now (List.mem_append_right _ hr))

end Covered
end Queue

namespace Ledger
open Queue (Spaced Covered)

variable {limit : Nat} {window : Span}

/-- After a purge no call reads the clock earlier than the purge did. -/
def NoReturn (history : List (Run.Step Call Answer)) : Prop :=
  history.Pairwise fun before after =>
    before.call = .purge → ∀ r ∈ before.readings, ∀ t ∈ after.readings, r ≤ t

instance (history : List (Run.Step Call Answer)) : Decidable (NoReturn history) :=
  inferInstanceAs (Decidable (List.Pairwise _ _))

theorem covered_perform (hl : limit ≠ 0) (hw : 1000 ≤ window.ns) {floor : List Instant}
    {gone : Queue} {s : Ledger} {place : IdentityKind × String} {c : Clock} {call : Call}
    (h : Covered limit window floor gone (s.queue place))
    (hf : ∀ t ∈ (perform limit window s c call).readings c, ∀ r ∈ floor, r ≤ t) :
    let o := perform limit window s c call
    ∃ left, left ++ o.state.queue place = gone ++ s.queue place ++
        (recordedAt? (·.place = place) ⟨call, o.readings c, o.result⟩).toList ∧
      Covered limit window (if call = .purge then floor ++ o.readings c else floor) left
        (o.state.queue place) := by
  intro o
  rcases perform_queue hl window s c call place with
    ⟨hcall, hnow, hq, hr⟩ | ⟨hcall, ⟨now, hnow, hq⟩, hr⟩ | ⟨hcall, hq, hr⟩
  · rw [if_neg hcall, hq, hr]
    exact h.offer hw (hf c.now hnow) (c.reading 1)
  · rw [if_pos hcall, hq, hr]
    obtain ⟨left, hleft, hc⟩ := h.expire (hf now hnow) hnow
    exact ⟨left, by simpa using hleft, hc⟩
  · rw [if_neg hcall, hq, hr]
    exact ⟨gone, by simp, h⟩

theorem spaced_from (hl : limit ≠ 0) (hw : 1000 ≤ window.ns) {place : IdentityKind × String}
    {run : List (Call × Clock)} {s : Ledger} {floor : List Instant} {gone : Queue}
    (h : Covered limit window floor gone (s.queue place))
    (hp : NoReturn (Run.history (perform limit window) s run))
    (hf : ∀ step ∈ Run.history (perform limit window) s run, ∀ t ∈ step.readings,
      ∀ r ∈ floor, r ≤ t) :
    let times := gone ++ s.queue place ++
      recorded (·.place = place) (Run.history (perform limit window) s run)
    Queue.Ascending times ∧ Spaced limit window times := by
  induction run generalizing s floor gone with
  | nil => simpa [Run.history, recorded] using And.intro h.ascending h.spaced
  | cons head rest ih =>
    obtain ⟨call, c⟩ := head
    obtain ⟨hhead, hrest⟩ := List.pairwise_cons.1 hp
    obtain ⟨hfhead, hfrest⟩ := List.forall_mem_cons.1 hf
    obtain ⟨left, hleft, hc⟩ := covered_perform hl hw h hfhead
    have hi := ih hc hrest (by
      intro step hstep t ht r hr
      split at hr
      · rcases List.mem_append.1 hr with hr | hr
        · exact hfrest step hstep t ht r hr
        · exact hhead step hstep ‹_› r hr t ht
      · exact hfrest step hstep t ht r hr)
    rw [hleft, List.append_assoc] at hi
    simp only [Run.history, recorded, List.filterMap_cons]
    cases hs : recordedAt? (·.place = place) ⟨call, (perform limit window s c call).readings c,
      (perform limit window s c call).result⟩ <;> simpa [hs, recorded] using hi

/-- Over any run from the empty ledger the attempts that one identity recorded ascend
strictly, and less than `limit` of them follow any one within the window less the
tolerance. -/
theorem recorded_spaced (hl : 1 ≤ limit) (hw : 1000000000 ≤ window.ns)
    (run : List (Call × Clock)) (hp : NoReturn (Run.history (perform limit window) empty run))
    (identity : Identity) :
    let times := recorded (· = identity) (Run.history (perform limit window) empty run)
    times.Pairwise (· < ·) ∧ Spaced limit window times ∧
      ∀ start : Int, (times.filter fun t =>
        start ≤ t.ns ∧ t.ns ≤ start + (window.ns - 1000)).length ≤ limit := by
  intro times
  have hc : Covered limit window [] [] (empty.queue identity.place) := by
    rw [queue_empty]
    exact Queue.covered_nil
  obtain ⟨ha, hs⟩ := spaced_from (by omega) (by omega) hc hp (by simp)
  rw [queue_empty, List.append_nil, List.nil_append] at ha hs
  have hsub : List.Sublist times (recorded (·.place = identity.place) _) :=
    recorded_sublist (fun _ h => by rw [h]) _
  have hat := ha.sublist hsub
  have hst := hs.of_sublist ha hsub
  exact ⟨hat, hst, hst.length_filter_le hat⟩

/-- The clock goes back after the first attempt and after the fourth, not after the purge. -/
theorem recorded_spaced_of_return :
    let visitor := Identity.ip "10.0.0.1"
    let run := [(Call.attempt visitor, Clock.still (.ofNs 10000000000)),
      (.attempt visitor, .still (.ofNs 5000000000)), (.attempt visitor, .still (.ofNs 5000000000)),
      (.attempt visitor, .still (.ofNs 12000000000)), (.attempt visitor, .still (.ofNs 3000000000)),
      (.purge, .still (.ofNs 20000000000)), (.attempt visitor, .still (.ofNs 20000000000))]
    let times := recorded (· = visitor) (Run.history (perform 2 .second) empty run)
    times = [.ofNs 10000000000, .ofNs 10000000001, .ofNs 12000000000, .ofNs 12000000001,
        .ofNs 20000000000] ∧
      Spaced 2 .second times := by
  intro visitor run times
  have hreturn : NoReturn (Run.history (perform 2 .second) empty run) := by decide +kernel
  have hspaced := recorded_spaced (by decide) (by decide) run hreturn visitor
  refine ⟨?_, hspaced.2.1⟩
  decide +kernel

end Ledger
end Throttle
