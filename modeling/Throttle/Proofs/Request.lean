import Throttle.Proofs.Grammar
import Throttle.Proofs.Identity

/-!
# The places of requests

A request line holds no blanks inside its words, but a separator is not a blank. So the
owner that a line names may contain separators, and two lines may lead to one place
without being of one identity. That takes separators in both lines, and owners that
hold different numbers of them.
-/

namespace Throttle
open Identity (separator)

theorem toUpper_eq_separator {c : Char} (h : c.toUpper = separator) : c = separator := by
  cases hc : c.isLower with
  | false => rwa [Text.toUpper_of_not_isLower hc] at h
  | true =>
    have hletter := (Text.toNat_toUpper hc).1
    rw [h] at hletter
    exact absurd hletter (by decide)

namespace Identity

theorem count_logKey_endpoint (owner path : String) :
    (endpoint owner path).logKey.toList.count separator =
      owner.toList.count separator + (path.toList.count separator + 1) := by
  rw [toList_logKey_endpoint, List.count_append, List.count_cons_self]

theorem plain_of_count_logKey {i : Identity} (h : i.logKey.toList.count separator ≤ 1) :
    i.Plain := by
  rw [plain_iff]
  cases i with
  | endpoint owner path =>
    rw [count_logKey_endpoint] at h
    change owner.toList.count separator = 0
    omega
  | _ => rfl

end Identity

theorem Policy.identity?_cases {p : Policy} {client authorization path : String} {i : Identity}
    (h : p.identity? client authorization path = some i) :
    i = .ip client ∨ i = .user authorization ∨ i = .endpoint client path ∨
      i = .endpoint authorization path := by
  simp only [Policy.identity?] at h
  by_cases hu : (p.byUser && authorization != "") = true
  · simp only [hu, if_true] at h
    split at h
    · rw [Option.ite_none_left_eq_some, Option.some.injEq] at h
      exact .inr (.inr (.inr h.2.symm))
    · cases h
      exact .inr (.inl rfl)
  · simp only [hu] at h
    by_cases hip : p.byIp = true
    · simp only [hip, if_true] at h
      split at h
      · rw [Option.ite_none_left_eq_some, Option.some.injEq] at h
        exact .inr (.inr (.inl h.2.symm))
      · cases h
        exact .inl rfl
    · simp [hip] at h

namespace Request

def identity? (p : Policy) (r : Request) : Option Identity :=
  p.identity? r.client r.authorization (endpointName r.verb r.resource)

structure Unseparated (r : Request) : Prop where
  client : separator ∉ r.client.toList
  verb : separator ∉ r.verb.toList
  resource : separator ∉ r.resource.toList
  authorization : separator ∉ r.authorization.toList

theorem not_mem_join {words : List (List Char)} (h : ∀ word ∈ words, separator ∉ word) :
    separator ∉ Text.join words := by
  induction words with
  | nil => exact List.not_mem_nil
  | cons word rest ih =>
    obtain ⟨hword, hrest⟩ := List.forall_mem_cons.1 h
    by_cases hne : rest = []
    · rw [hne, Text.join, List.intercalate_singleton]
      exact hword
    · rw [Text.join_cons hne, List.mem_append, List.mem_cons, not_or, not_or]
      exact ⟨hword, by decide, ih hrest⟩

theorem unseparated_of_parse {line : String} {r : Request} (h : parse line = .ok r)
    (hline : separator ∉ line.toList) : r.Unseparated := by
  obtain ⟨client, verb, resource, others, hw, -, rfl⟩ := parse_eq_ok_iff.1 h
  have hword : ∀ word ∈ client :: verb :: resource :: others, separator ∉ word := by
    rw [← hw]
    exact fun word hmem hs => hline (Text.mem_of_mem_words hmem separator hs)
  simp only [List.forall_mem_cons] at hword
  obtain ⟨hclient, hverb, hresource, hothers⟩ := hword
  constructor
  · rwa [ofWords, String.toList_ofList]
  · rw [ofWords, String.toList_ofList, List.mem_map]
    rintro ⟨c, hc, hu⟩
    rw [toUpper_eq_separator hu] at hc
    exact hverb hc
  · rw [ofWords, String.toList_ofList]
    exact fun hs => hresource ((List.takeWhile_sublist _).subset hs)
  · rw [ofWords, String.toList_ofList]
    exact not_mem_join hothers

theorem path_unseparated {r : Request} (h : r.Unseparated) :
    separator ∉ (endpointName r.verb r.resource).toList := by
  have hbar : separator ∉ "|".toList := by decide
  simp only [endpointName, String.toList_append, List.mem_append, not_or]
  exact ⟨⟨h.verb, hbar⟩, h.resource⟩

theorem count_logKey_le {p : Policy} {r : Request} (h : r.Unseparated) {i : Identity}
    (hi : r.identity? p = some i) : i.logKey.toList.count separator ≤ 1 := by
  have hclient := List.count_eq_zero.2 h.client
  have hauth := List.count_eq_zero.2 h.authorization
  have hpath := List.count_eq_zero.2 (path_unseparated h)
  rcases Policy.identity?_cases hi with rfl | rfl | rfl | rfl
  · rw [Identity.logKey, hclient]
    exact Nat.zero_le 1
  · rw [Identity.logKey, hauth]
    exact Nat.zero_le 1
  · rw [Identity.count_logKey_endpoint]
    omega
  · rw [Identity.count_logKey_endpoint]
    omega

/-- Requests of one place are of one identity exactly if their owners hold equally many
separators, and always if one of the lines holds none. -/
theorem identity_eq_iff {p : Policy} {first second : String} {r s : Request} {i j : Identity}
    (hr : parse first = .ok r) (hs : parse second = .ok s) (hi : r.identity? p = some i)
    (hj : s.identity? p = some j) (hkind : i.kind = j.kind) (hkey : i.logKey = j.logKey) :
    (i = j ↔ i.ownerSeparators = j.ownerSeparators) ∧
      (separator ∉ first.toList ∨ separator ∉ second.toList → i = j) := by
  have hplace : i.place = j.place := Prod.ext hkind hkey
  refine ⟨⟨fun h => congrArg Identity.ownerSeparators h, fun h => Identity.eq_of_place h hplace⟩, ?_⟩
  intro hfree
  have hcount : i.logKey.toList.count separator ≤ 1 := by
    rcases hfree with hf | hf
    · exact count_logKey_le (unseparated_of_parse hr hf) hi
    · rw [hkey]
      exact count_logKey_le (unseparated_of_parse hs hf) hj
  apply Identity.place_injective _ _ hplace
  · exact Identity.plain_of_count_logKey hcount
  · rw [hkey] at hcount
    exact Identity.plain_of_count_logKey hcount

/-- One token from two addresses, once with a query. -/
theorem identity_eq_of_token :
    let r : Request := ⟨"10.0.0.1", "GET", "/a", "tok"⟩
    let s : Request := ⟨"10.0.0.2", "GET", "/a", "tok"⟩
    parse "10.0.0.1 get /a?page=2 tok" = .ok r ∧ parse "10.0.0.2 GET /a tok" = .ok s ∧
      r ≠ s ∧ r.identity? {} = s.identity? {} := by
  intro r s
  have hr : parse "10.0.0.1 get /a?page=2 tok" = .ok r := by decide +kernel
  have hs : parse "10.0.0.2 GET /a tok" = .ok s := by decide +kernel
  have hi : r.identity? {} = some (.endpoint "tok" "GET|/a") := by decide +kernel
  have hj : s.identity? {} = some (.endpoint "tok" "GET|/a") := by decide +kernel
  refine ⟨hr, hs, by decide +kernel, ?_⟩
  rw [hi, hj, (identity_eq_iff hr hs hi hj rfl rfl).2 (by decide +kernel)]

/-- Two lines that differ in their clients meet at one place. -/
theorem place_shared_by_separators :
    ∃ r s i j, parse "a B\x1fC /x" = .ok r ∧ parse "a\x1fB C /x" = .ok s ∧
      r.identity? { byIp := true } = some i ∧ s.identity? { byIp := true } = some j ∧
      i.kind = j.kind ∧ i.logKey = j.logKey ∧ i ≠ j := by
  refine ⟨⟨"a", "B\x1fC", "/x", ""⟩, ⟨"a\x1fB", "C", "/x", ""⟩, .endpoint "a" "B\x1fC|/x",
    .endpoint "a\x1fB" "C|/x", ?_⟩
  decide +kernel

end Request
end Throttle
