import Throttle.Config.Settings
import Throttle.Proofs.Limiter

/-!
# Limits that can be used

The bound on a window is the greatest number of seconds that a span holds, so a policy is valid
exactly if its window is the span that it asks for. Limits make a policy exactly if both numbers
are in range; the policy has the same fields then, and a limiter accepts it.
-/

namespace Throttle
namespace Policy

variable {p : Policy}

theorem valid_of_exact (h : p.window.ns = p.windowSeconds * 1000000000) : p.Valid := by
  have hspan := p.window.upper
  rw [h] at hspan
  have hseconds : p.windowSeconds ≤ 9223372036854775 := by omega
  exact hseconds

theorem check_of_not_valid (h : ¬ p.Valid) : p.check = .error (.windowTooLong p.windowSeconds) :=
  if_pos (Nat.lt_of_not_le h)

theorem check_iff_exact : p.check = .ok () ↔ p.window.ns = p.windowSeconds * 1000000000 := by
  rw [check_eq_ok_iff]
  exact ⟨Limiter.window_ns, valid_of_exact⟩

end Policy

namespace Config.Limits

variable {l : Limits} {p : Policy} {error : LimitError}

def RequestsFit (l : Limits) : Prop := 0 ≤ l.requestLimit ∧ l.requestLimit ≤ 4294967295

def WindowFits (l : Limits) : Prop := 0 ≤ l.windowSeconds ∧ l.windowSeconds ≤ 9223372036854775

structure Carried (l : Limits) (p : Policy) : Prop where
  requestLimit : (p.requestLimit : Int) = l.requestLimit
  windowSeconds : (p.windowSeconds : Int) = l.windowSeconds
  keepsHostile : p.keepsHostile = l.keepsHostile
  byIp : p.byIp = l.byIp
  byUser : p.byUser = l.byUser
  byEndpoint : p.byEndpoint = l.byEndpoint
  approvedOnly : p.approvedOnly = l.approvedOnly

/-- What making a policy of limits can come to. -/
inductive Judged (l : Limits) : Except LimitError Policy → Prop
  | requests (out : ¬ l.RequestsFit) : Judged l (.error (.requestLimitOutOfRange l.requestLimit))
  | negative (fit : l.RequestsFit) (out : l.windowSeconds < 0) :
    Judged l (.error (.windowNegative l.windowSeconds))
  | long (fit : l.RequestsFit) (out : 9223372036854775 < l.windowSeconds) :
    Judged l (.error (.windowTooLong l.windowSeconds.toNat))
  | made {p : Policy} (requests : l.RequestsFit) (window : l.WindowFits) (carried : l.Carried p) :
    Judged l (.ok p)

theorem judged_check (requests : l.RequestsFit) (nonneg : 0 ≤ l.windowSeconds)
    (carried : l.Carried p) : l.Judged (p.check.map fun _ => p) := by
  have hseconds := carried.windowSeconds
  by_cases valid : p.Valid
  · have hfits : p.windowSeconds ≤ 9223372036854775 := valid
    rw [Policy.check_eq_ok_iff.2 valid]
    exact .made requests ⟨nonneg, by omega⟩ carried
  · have hlong : ¬ p.windowSeconds ≤ 9223372036854775 := valid
    have htoo : p.windowSeconds = l.windowSeconds.toNat := by omega
    rw [Policy.check_of_not_valid valid, htoo]
    exact .long requests (by omega)

theorem judged_policy (l : Limits) : l.Judged l.policy := by
  unfold Limits.policy
  split_ifs with hrequests hwindow
  · refine .requests fun hfit => ?_
    rcases hrequests with hneg | hgreat
    · exact absurd hfit.1 (Int.not_le.2 hneg)
    · exact absurd hfit.2 (Int.not_le.2 hgreat)
  · rw [not_or, Int.not_lt, Int.not_lt] at hrequests
    exact .negative hrequests hwindow
  · rw [not_or, Int.not_lt, Int.not_lt] at hrequests
    have hnonneg := Int.not_lt.1 hwindow
    exact judged_check hrequests hnonneg ⟨Int.toNat_of_nonneg hrequests.1,
      Int.toNat_of_nonneg hnonneg, rfl, rfl, rfl, rfl, rfl⟩

theorem policy_ok_iff : (∃ p, l.policy = .ok p) ↔ l.RequestsFit ∧ l.WindowFits := by
  have hjudged := l.judged_policy
  generalize l.policy = made at hjudged
  cases hjudged with
  | requests out => simp [out]
  | negative fit out =>
    refine iff_of_false (by simp) fun h => ?_
    exact absurd h.2.1 (Int.not_le.2 out)
  | long fit out =>
    refine iff_of_false (by simp) fun h => ?_
    exact absurd h.2.2 (Int.not_le.2 out)
  | made requests window carried => exact iff_of_true ⟨_, rfl⟩ ⟨requests, window⟩

theorem carried_of_policy (h : l.policy = .ok p) : l.WindowFits ∧ l.Carried p := by
  have hjudged := l.judged_policy
  rw [h] at hjudged
  cases hjudged with
  | made requests window carried => exact ⟨window, carried⟩

theorem Carried.valid (h : l.Carried p) (fits : l.WindowFits) : p.Valid := by
  have hseconds := h.windowSeconds
  have hfits := fits.2
  have hle : p.windowSeconds ≤ 9223372036854775 := by omega
  exact hle

theorem field_of_error (h : l.policy = .error error) :
    (¬ l.RequestsFit → error.field = "request_limit") ∧
      (l.RequestsFit → error.field = "window_seconds") := by
  have hjudged := l.judged_policy
  rw [h] at hjudged
  cases hjudged with
  | requests out => exact ⟨fun _ => rfl, fun fit => absurd fit out⟩
  | negative fit out => exact ⟨fun h => absurd fit h, fun _ => rfl⟩
  | long fit out => exact ⟨fun h => absurd fit h, fun _ => rfl⟩

/-- Limits make a policy exactly if both numbers are in range. The policy has their fields and its
window is exact, and a limiter accepts it. Otherwise the error names the number of requests if that
is out of range, and the window if not. And whatever its fields, a policy passes its check exactly
if its window is exact. -/
theorem policy_iff_representable :
    (∀ l : Limits, ((∃ p, l.policy = .ok p) ↔ l.RequestsFit ∧ l.WindowFits) ∧
      (∀ p, l.policy = .ok p → l.Carried p ∧
        (∃ first events, Limiter.create p = .ok (first, events) ∧ first.policy = p) ∧
        p.window.ns = l.windowSeconds * 1000000000) ∧
      ∀ error, l.policy = .error error →
        (¬ l.RequestsFit → error.field = "request_limit") ∧
          (l.RequestsFit → error.field = "window_seconds")) ∧
    ∀ p : Policy, p.check = .ok () ↔ p.window.ns = p.windowSeconds * 1000000000 := by
  refine ⟨fun l => ⟨policy_ok_iff, fun p h => ?_, fun error h => field_of_error h⟩,
    fun p => Policy.check_iff_exact⟩
  obtain ⟨hfits, hcarried⟩ := carried_of_policy h
  have hvalid := hcarried.valid hfits
  refine ⟨hcarried, ⟨_, _, Limiter.create_of_valid hvalid, rfl⟩, ?_⟩
  rw [Limiter.window_ns hvalid, hcarried.windowSeconds]

/-- The greatest limits, and a window one second longer. -/
theorem policy_iff_representable_of_edge :
    let greatest : Limits := { requestLimit := 4294967295, windowSeconds := 9223372036854775 }
    let longer : Limits := { greatest with windowSeconds := 9223372036854776 }
    (∃ p, greatest.policy = .ok p ∧ p.requestLimit = 4294967295 ∧
      p.window.ns = 9223372036854775000000000) ∧
    ∃ error, longer.policy = .error error ∧ error.field = "window_seconds" := by
  intro greatest longer
  have hfit : greatest.RequestsFit := by simp [RequestsFit, greatest]
  have hwindow : greatest.WindowFits := by simp [WindowFits, greatest]
  obtain ⟨hmade, hspec, -⟩ := policy_iff_representable.1 greatest
  obtain ⟨hlonger, -, herror⟩ := policy_iff_representable.1 longer
  obtain ⟨p, hp⟩ := hmade.2 ⟨hfit, hwindow⟩
  obtain ⟨hcarried, -, hexact⟩ := hspec p hp
  refine ⟨⟨p, hp, Int.ofNat.inj hcarried.requestLimit, hexact⟩, ?_⟩
  cases hend : longer.policy with
  | ok q =>
    have hfits := (hlonger.1 ⟨q, hend⟩).2
    simp [WindowFits, longer] at hfits
  | error error => exact ⟨error, rfl, (herror error hend).2 hfit⟩

end Config.Limits
end Throttle
