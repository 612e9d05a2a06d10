import Throttle.Proofs.Authorization
import Throttle.Proofs.Base64
import Throttle.Proofs.Lines

/-!
# Basic credentials at the gate

The basic value of credentials is two words with a space between them, so a line carries it as it
is. Two of them are equal exactly if user name, colon and password make the same text. So the gate
lets in who shows this text while it is approved, and no one else.
-/

namespace Throttle

theorem Text.encode_injective : Function.Injective Text.encode := by
  intro s t h
  have hs := decode?_encode s
  rw [h, decode?_encode] at hs
  exact (Option.some.inj hs).symm

namespace Credentials

open Text (IsWord SingleSpaced)

variable {c d : Credentials}

def joined (c : Credentials) : String := c.username ++ ":" ++ c.password

def payload (c : Credentials) : List Char := Text.Base64.encode (Text.encode c.joined)

theorem toList_basic (c : Credentials) : c.basic.toList = "Basic".toList ++ ' ' :: c.payload := by
  have hscheme : "Basic ".toList = "Basic".toList ++ [' '] := rfl
  rw [basic, String.toList_append, hscheme, List.append_assoc]
  exact congrArg ("Basic".toList ++ ' ' :: ·) String.toList_ofList

theorem basic_inj : c.basic = d.basic ↔ c.joined = d.joined := by
  constructor
  · intro h
    rw [← String.toList_inj, toList_basic, toList_basic] at h
    obtain ⟨-, hpayload⟩ := List.cons.inj (List.append_cancel_left h)
    exact Text.encode_injective (Text.Base64.encode_injective hpayload)
  · intro h
    rw [← String.toList_inj, toList_basic, toList_basic, payload, payload, h]

theorem isWord_payload (c : Credentials) : IsWord c.payload := by
  apply Text.Base64.isWord_encode
  rw [joined, Text.encode_append, Text.encode_append]
  simp [Text.encode_ne_nil (s := [':']) (by simp)]

theorem singleSpaced_basic (c : Credentials) : SingleSpaced c.basic.toList := by
  rw [toList_basic]
  exact .word_space (by decide) c.isWord_payload.ne_nil c.isWord_payload.singleSpaced

theorem basic_ne_empty (c : Credentials) : c.basic ≠ "" := by
  intro h
  have hlist := c.toList_basic
  rw [h] at hlist
  cases hlist

example : (⟨"Bob", "1234"⟩ : Credentials).basic = "Basic Qm9iOjEyMzQ=" := by decide +kernel

end Credentials

namespace Limiter

variable {l : Limiter} {stored shown : Credentials}

theorem gate_approveBasic (only : l.policy.approvedOnly = true) (bare : l.ledger.approved = .empty) :
    (l.approveBasic stored).state.gate shown.basic =
      if shown.joined = stored.joined then .accepted else .invalid := by
  split_ifs with h
  · refine gate_eq_accepted_iff.2 fun _ => ⟨shown.basic_ne_empty, Registry.mem_add.2 (.inl ?_)⟩
    exact Credentials.basic_inj.2 h.symm
  · refine gate_eq_invalid_iff.2 ⟨only, shown.basic_ne_empty, fun hmem => ?_⟩
    rcases Registry.mem_add.1 hmem with heq | hmem
    · exact h (Credentials.basic_inj.1 heq).symm
    · rw [bare] at hmem
      exact Std.ExtTreeSet.not_mem_empty hmem

theorem gate_disapproveBasic (only : l.policy.approvedOnly = true)
    (bare : l.ledger.approved = .empty) :
    ((l.approveBasic stored).state.disapproveBasic stored).state.gate shown.basic = .invalid := by
  refine gate_eq_invalid_iff.2 ⟨only, shown.basic_ne_empty, fun hmem => ?_⟩
  obtain ⟨hne, hmem⟩ := Registry.mem_remove.1 hmem
  rcases Registry.mem_add.1 hmem with heq | hmem
  · exact hne heq
  · rw [bare] at hmem
    exact Std.ExtTreeSet.not_mem_empty hmem

/-- A line carries the basic value of credentials to the gate as it is. They are let in if they make
the same text as the approved ones, and none are once these are forgotten. -/
theorem basic_survives (l : Limiter) (only : l.policy.approvedOnly = true)
    (bare : l.ledger.approved = .empty) (stored shown : Credentials) {client verb resource : String}
    (hclient : Text.IsWord client.toList) (hverb : Text.IsWord verb.toList)
    (hresource : Text.IsWord resource.toList) (hquery : resource.toList.head? ≠ some '?') :
    let approved := (l.approveBasic stored).state
    let forgotten := (approved.disapproveBasic stored).state
    ∃ r, Request.parse (client ++ " " ++ verb ++ " " ++ resource ++ " " ++ shown.basic) = .ok r ∧
      r.authorization = shown.basic ∧
      approved.gate r.authorization =
        (if shown.joined = stored.joined then .accepted else .invalid) ∧
      forgotten.gate r.authorization = .invalid := by
  intro approved forgotten
  obtain ⟨r, hr, hread⟩ :=
    Request.parse_presented hclient hverb hresource hquery shown.singleSpaced_basic
  refine ⟨r, hr, hread, ?_, ?_⟩
  · rw [hread]
    exact gate_approveBasic only bare
  · rw [hread]
    exact gate_disapproveBasic only bare

/-- A colon does not tell where the user name ends. -/
theorem basic_survives_of_colon :
    let stored : Credentials := ⟨"Bob", "1:2"⟩
    let shown : Credentials := ⟨"Bob:1", "2"⟩
    ∃ first events r, create { approvedOnly := true } = .ok (first, events) ∧
      Request.parse ("10.0.0.1" ++ " " ++ "GET" ++ " " ++ "/x" ++ " " ++ shown.basic) = .ok r ∧
      (first.approveBasic stored).state.gate r.authorization = .accepted ∧
      ((first.approveBasic stored).state.disapproveBasic stored).state.gate r.authorization =
        .invalid := by
  intro stored shown
  let first : Limiter := ⟨{ approvedOnly := true }, by decide, .empty⟩
  have hclient : Text.IsWord "10.0.0.1".toList := by decide
  have hverb : Text.IsWord "GET".toList := by decide
  have hresource : Text.IsWord "/x".toList := by decide
  obtain ⟨r, hr, -, haccepted, hinvalid⟩ :=
    basic_survives first rfl rfl stored shown hclient hverb hresource (by decide)
  exact ⟨first, _, r, create_of_valid first.valid, hr, haccepted, hinvalid⟩

end Limiter
end Throttle
