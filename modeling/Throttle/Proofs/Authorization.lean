import Throttle.Proofs.Approval
import Throttle.Proofs.Grammar

/-!
# The authorization of a line

What follows the resource of a line is read word by word, and the words are joined by single
spaces. So it is read as it stands, but for the blanks around it, exactly if it is single-spaced,
and an approved token that is not passes the gate only if what it is read as is approved too.
-/

namespace Throttle
namespace Text

def respace (s : String) : String := String.ofList (join (words s.toList))

theorem respace_eq_self_iff {s : String} : respace s = s ↔ SingleSpaced s.toList := by
  rw [← join_words_eq_iff, ← String.toList_inj, respace, String.toList_ofList]

theorem respace_eq_empty_iff {s : String} : respace s = "" ↔ words s.toList = [] := by
  rw [← join_eq_nil_iff fun word => isWord_of_mem_words, ← String.toList_inj, respace,
    String.toList_ofList]
  rfl

end Text

namespace Request

open Text (IsWord SingleSpaced respace)

variable {line : String} {client verb resource rest : List Char} {r : Request} {token : String}

theorem authorization_of_holds (h : parse line = .ok r) (holds : Holds line client verb resource rest) :
    r.authorization.toList = Text.join (Text.words rest) := by
  obtain ⟨_, _, _, others, hw, -, rfl⟩ := parse_eq_ok_iff.1 h
  rw [words_of_holds holds] at hw
  simp only [List.cons.injEq] at hw
  obtain ⟨-, -, -, rfl⟩ := hw
  exact String.toList_ofList

theorem authorization_eq_trim_iff (h : parse line = .ok r)
    (holds : Holds line client verb resource rest) :
    r.authorization.toList = Text.trim rest ↔ SingleSpaced (Text.trim rest) := by
  rw [authorization_of_holds h holds, ← Text.words_trim, Text.join_words_eq_iff]

theorem authorization_of_token (h : parse line = .ok r) (holds : Holds line client verb resource rest)
    (stands : token.toList = Text.trim rest) : r.authorization = respace token := by
  apply String.toList_injective
  rw [authorization_of_holds h holds, ← Text.words_trim, ← stands, respace, String.toList_ofList]

theorem gate_of_token (h : parse line = .ok r) (holds : Holds line client verb resource rest)
    (stands : token.toList = Text.trim rest) (hne : token ≠ "") {l : Limiter}
    (approved : token ∈ l.ledger.approved) :
    l.gate r.authorization = .accepted ↔ (l.policy.approvedOnly = true →
      SingleSpaced token.toList ∨ respace token ∈ l.ledger.approved) := by
  have hread : respace token ≠ "" := by
    rw [ne_eq, Text.respace_eq_empty_iff, stands, Text.words_trim, ← Text.trim_eq_nil_iff, ← stands]
    exact mt String.toList_eq_nil_iff.1 hne
  rw [authorization_of_token h holds stands, Limiter.gate_eq_accepted_iff]
  constructor
  · intro hgate only
    exact .inr (hgate only).2
  · intro hgate only
    refine ⟨hread, ?_⟩
    rcases hgate only with hs | hmem
    · rwa [Text.respace_eq_self_iff.2 hs]
    · exact hmem

theorem holds_presented {client verb resource : String} (hclient : IsWord client.toList)
    (hverb : IsWord verb.toList) (hresource : IsWord resource.toList) (token : String) :
    Holds (client ++ " " ++ verb ++ " " ++ resource ++ " " ++ token) client.toList verb.toList
      resource.toList (' ' :: token.toList) := by
  have hspace : " ".toList = [' '] := rfl
  have hends (s : List Char) : Text.Ends (' ' :: s) := Text.ends_of_blank Text.isBlank_space s
  unfold Holds
  simp only [String.toList_append, hspace, List.append_assoc, List.cons_append, List.nil_append]
  exact ⟨_, _, Text.leads_word hclient (hends _),
    (Text.leads_word hverb (hends _)).cons_blank Text.isBlank_space,
    (Text.leads_word hresource (hends _)).cons_blank Text.isBlank_space⟩

theorem parse_presented {client verb resource token : String} (hclient : IsWord client.toList)
    (hverb : IsWord verb.toList) (hresource : IsWord resource.toList)
    (hquery : resource.toList.head? ≠ some '?') (hs : SingleSpaced token.toList) :
    ∃ r, parse (client ++ " " ++ verb ++ " " ++ resource ++ " " ++ token) = .ok r ∧
      r.authorization = token := by
  have holds := holds_presented hclient hverb hresource token
  obtain ⟨r, hr⟩ := accepts_iff.2 ⟨_, _, _, _, holds, hquery⟩
  refine ⟨r, hr, ?_⟩
  rw [← String.toList_inj, authorization_of_holds hr holds, Text.words_cons_blank Text.isBlank_space,
    Text.join_words_eq_iff.2 hs]

/-- What follows the resource is read as it stands, but for the blanks around it, exactly if it is
single-spaced. An approved token that stands there is accepted if it is single-spaced, or if its
words joined by single spaces are approved as well. -/
theorem authorization_intact_iff (h : parse line = .ok r)
    (holds : Holds line client verb resource rest) :
    r.authorization.toList = Text.join (Text.words rest) ∧
      (r.authorization.toList = Text.trim rest ↔ SingleSpaced (Text.trim rest)) ∧
      ∀ (l : Limiter) (token : String), token.toList = Text.trim rest → token ≠ "" →
        token ∈ l.ledger.approved →
        (l.gate r.authorization = .accepted ↔ (l.policy.approvedOnly = true →
          SingleSpaced token.toList ∨ respace token ∈ l.ledger.approved)) :=
  ⟨authorization_of_holds h holds, authorization_eq_trim_iff h holds,
    fun _ _ stands hne approved => gate_of_token h holds stands hne approved⟩

/-- A single-spaced token with blanks around it. -/
theorem authorization_intact_of_basic :
    ∃ first events r, Limiter.create { approvedOnly := true } = .ok (first, events) ∧
      parse "10.0.0.1 get /a?b=1 \t Basic eA==\n" = .ok r ∧ r.authorization = "Basic eA==" ∧
      (first.approve "Basic eA==").state.gate r.authorization = .accepted := by
  let r : Request := ⟨"10.0.0.1", "GET", "/a", "Basic eA=="⟩
  have hr : parse "10.0.0.1 get /a?b=1 \t Basic eA==\n" = .ok r := by decide +kernel
  have holds : Holds "10.0.0.1 get /a?b=1 \t Basic eA==\n" "10.0.0.1".toList "get".toList
      "/a?b=1".toList " \t Basic eA==\n".toList :=
    ⟨" get /a?b=1 \t Basic eA==\n".toList, " /a?b=1 \t Basic eA==\n".toList,
      ⟨[], by decide +kernel⟩, ⟨[' '], by decide +kernel⟩, ⟨[' '], by decide +kernel⟩⟩
  obtain ⟨-, -, hgate⟩ := authorization_intact_iff hr holds
  have hscheme : IsWord "Basic".toList := by decide
  have hpayload : IsWord "eA==".toList := by decide
  have hs : SingleSpaced "Basic eA==".toList := .word_space hscheme (by decide) hpayload.singleSpaced
  have stands : "Basic eA==".toList = Text.trim " \t Basic eA==\n".toList := by decide +kernel
  refine ⟨_, _, r, Limiter.create_of_valid (by decide), hr, rfl, ?_⟩
  exact (hgate _ _ stands (by decide) (Registry.mem_add.2 (.inl rfl))).2 fun _ => .inl hs

/-- Two spaces in a token are read as one, so the gate does not know the token. -/
theorem authorization_respaced :
    ∃ first events r, Limiter.create { approvedOnly := true } = .ok (first, events) ∧
      parse "8.8.8.8 GET /x Basic  abc" = .ok r ∧
      Holds "8.8.8.8 GET /x Basic  abc" "8.8.8.8".toList "GET".toList "/x".toList
        " Basic  abc".toList ∧
      r.authorization = "Basic abc" ∧ r.authorization.toList ≠ Text.trim " Basic  abc".toList ∧
      (first.approve "Basic  abc").state.gate r.authorization = .invalid := by
  have holds : Holds "8.8.8.8 GET /x Basic  abc" "8.8.8.8".toList "GET".toList "/x".toList
      " Basic  abc".toList :=
    ⟨" GET /x Basic  abc".toList, " /x Basic  abc".toList,
      ⟨[], by decide +kernel⟩, ⟨[' '], by decide +kernel⟩, ⟨[' '], by decide +kernel⟩⟩
  refine ⟨_, _, ⟨"8.8.8.8", "GET", "/x", "Basic abc"⟩, Limiter.create_of_valid (by decide),
    by decide +kernel, holds, rfl, by decide +kernel, ?_⟩
  refine Limiter.gate_eq_invalid_iff.2 ⟨rfl, by decide, fun hmem => ?_⟩
  rcases Registry.mem_add.1 hmem with heq | hmem
  · exact absurd heq (by decide)
  · exact Std.ExtTreeSet.not_mem_empty hmem

end Request
end Throttle
