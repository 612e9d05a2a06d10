import Mathlib.Logic.Relation
import Throttle.Proofs.Words
import Throttle.Replay.Request

/-!
# The grammar of request lines

A line is accepted exactly if it holds three words of which the third is more than a query.
What is read from it is canonical, and a canonical request is read from its own text. Only the
words of a line matter, so blanks may be added around them.
-/

namespace Throttle
namespace Text

theorem isLower_iff {c : Char} : c.isLower = true ↔ 97 ≤ c.toNat ∧ c.toNat ≤ 122 := by
  have hrange : c.isLower = (decide (97 ≤ c.toNat) && decide (c.toNat ≤ 122)) := rfl
  rw [hrange, Bool.and_eq_true, decide_eq_true_iff, decide_eq_true_iff]

theorem toUpper_of_not_isLower {c : Char} (h : c.isLower = false) : c.toUpper = c := by
  unfold Char.toUpper
  split
  · rename_i letter
    rw [← Bool.not_eq_true, isLower_iff] at h
    exact absurd letter h
  · rfl

theorem toNat_toUpper {c : Char} (h : c.isLower = true) :
    65 ≤ c.toUpper.toNat ∧ c.toUpper.toNat ≤ 90 := by
  have hrange : 97 ≤ c.val.toNat ∧ c.val.toNat ≤ 122 := isLower_iff.1 h
  have hshift : ('A'.val - 'a'.val).toNat = 4294967264 := by decide
  unfold Char.toUpper
  split
  · simp only [Char.toNat, UInt32.toNat_add]
    omega
  · rename_i letter
    exact absurd hrange letter

theorem isBlank_toUpper {c : Char} (h : isBlank c = false) : isBlank c.toUpper = false := by
  cases hc : c.isLower with
  | false => rw [toUpper_of_not_isLower hc, h]
  | true =>
    obtain ⟨hlow, hhigh⟩ := toNat_toUpper hc
    simp only [isBlank, Bool.or_eq_false_iff, Bool.and_eq_false_iff, decide_eq_false_iff_not,
      beq_eq_false_iff_ne]
    omega

theorem isLower_toUpper (c : Char) : c.toUpper.isLower = false := by
  cases hc : c.isLower with
  | false => rw [toUpper_of_not_isLower hc, hc]
  | true =>
    have hhigh := (toNat_toUpper hc).2
    rw [← Bool.not_eq_true, isLower_iff]
    omega

end Text

namespace Request

open Text (IsWord SingleSpaced Leads Blank Apart)

def Holds (line : String) (client verb resource rest : List Char) : Prop :=
  ∃ afterClient afterVerb, Leads line.toList client afterClient ∧
    Leads afterClient verb afterVerb ∧ Leads afterVerb resource rest

def ofWords (client verb resource : List Char) (others : List (List Char)) : Request where
  client := String.ofList client
  verb := String.ofList (verb.map Char.toUpper)
  resource := String.ofList (route resource)
  authorization := String.ofList (Text.join others)

/-- Each part is as it stands in a text that is read as it is. -/
structure Canonical (r : Request) : Prop where
  client : IsWord r.client.toList
  verb : IsWord r.verb.toList
  upper : ∀ c ∈ r.verb.toList, c.isLower = false
  resource : IsWord r.resource.toList
  noQuery : '?' ∉ r.resource.toList
  authorization : SingleSpaced r.authorization.toList

def render (r : Request) : String :=
  r.client ++ " " ++ r.verb ++ " " ++ r.resource ++
    if r.authorization = "" then "" else " " ++ r.authorization

/-- The second line has blanks that the first has not, around it or beside blanks of it. -/
def Padded (line other : String) : Prop :=
  ∃ front gap back, Apart front back ∧ Blank gap ∧
    line.toList = front ++ back ∧ other.toList = front ++ gap ++ back

variable {line other : String} {client verb resource rest : List Char} {others : List (List Char)}
  {r : Request}

theorem words_of_holds (h : Holds line client verb resource rest) :
    Text.words line.toList = client :: verb :: resource :: Text.words rest := by
  obtain ⟨afterClient, afterVerb, hclient, hverb, hresource⟩ := h
  rw [Text.words_of_leads hclient, Text.words_of_leads hverb, Text.words_of_leads hresource]

theorem exists_holds (h : Text.words line.toList = client :: verb :: resource :: others) :
    ∃ rest, Holds line client verb resource rest ∧ Text.words rest = others := by
  obtain ⟨afterClient, hclient, hc⟩ := Text.exists_leads h
  obtain ⟨afterVerb, hverb, hv⟩ := Text.exists_leads hc
  obtain ⟨rest, hresource, hothers⟩ := Text.exists_leads hv
  exact ⟨rest, ⟨afterClient, afterVerb, hclient, hverb, hresource⟩, hothers⟩

theorem intercalate_ofList (words : List (List Char)) :
    " ".intercalate (words.map String.ofList) = String.ofList (Text.join words) := by
  apply String.toList_injective
  have hid : String.toList ∘ String.ofList = id := funext fun _ => String.toList_ofList
  rw [String.toList_intercalate, List.map_map, hid, List.map_id]
  exact String.toList_ofList.symm

theorem route_eq_nil_iff (hne : resource ≠ []) : route resource = [] ↔ resource.head? = some '?' := by
  obtain ⟨c, tail, rfl⟩ := List.exists_cons_of_ne_nil hne
  simp [route]

theorem parse_of_words (h : Text.words line.toList = client :: verb :: resource :: others) :
    parse line = if resource.head? = some '?' then .error (.emptyResource line)
      else .ok (ofWords client verb resource others) := by
  have hword : IsWord resource := Text.isWord_of_mem_words (s := line.toList) (by simp [h])
  rw [parse, h]
  dsimp only
  rw [intercalate_ofList]
  by_cases hquery : resource.head? = some '?'
  · rw [if_pos hquery, (route_eq_nil_iff hword.ne_nil).2 hquery]
  · rw [if_neg hquery]
    cases hroute : route resource with
    | nil => exact absurd ((route_eq_nil_iff hword.ne_nil).1 hroute) hquery
    | cons c tail => rw [ofWords, hroute]

theorem parse_eq_ok_iff : parse line = .ok r ↔
    ∃ client verb resource others, Text.words line.toList = client :: verb :: resource :: others ∧
      resource.head? ≠ some '?' ∧ r = ofWords client verb resource others := by
  constructor
  · intro h
    rcases hw : Text.words line.toList with _ | ⟨client, _ | ⟨verb, _ | ⟨resource, others⟩⟩⟩
    · rw [parse, hw] at h
      cases h
    · rw [parse, hw] at h
      cases h
    · rw [parse, hw] at h
      cases h
    · rw [parse_of_words hw] at h
      split_ifs at h with hquery
      exact ⟨client, verb, resource, others, rfl, hquery, (Except.ok.inj h).symm⟩
  · rintro ⟨client, verb, resource, others, hw, hquery, rfl⟩
    rw [parse_of_words hw, if_neg hquery]

theorem accepts_iff : (∃ r, parse line = .ok r) ↔
    ∃ client verb resource rest, Holds line client verb resource rest ∧
      resource.head? ≠ some '?' := by
  simp only [parse_eq_ok_iff]
  constructor
  · rintro ⟨r, client, verb, resource, others, hw, hquery, -⟩
    obtain ⟨rest, hrest, -⟩ := exists_holds hw
    exact ⟨client, verb, resource, rest, hrest, hquery⟩
  · rintro ⟨client, verb, resource, rest, hholds, hquery⟩
    exact ⟨_, client, verb, resource, _, words_of_holds hholds, hquery, rfl⟩

/-! The canonical form. -/

theorem canonical_ofWords (hclient : IsWord client) (hverb : IsWord verb)
    (hresource : IsWord resource) (hothers : ∀ word ∈ others, IsWord word)
    (hquery : resource.head? ≠ some '?') : (ofWords client verb resource others).Canonical where
  client := by simpa only [ofWords, String.toList_ofList] using hclient
  verb := by
    simp only [ofWords, String.toList_ofList]
    refine ⟨by simpa using hverb.ne_nil, fun c hc => ?_⟩
    obtain ⟨d, hd, rfl⟩ := List.mem_map.1 hc
    exact Text.isBlank_toUpper (hverb.solid d hd)
  upper := by
    simp only [ofWords, String.toList_ofList]
    intro c hc
    obtain ⟨d, hd, rfl⟩ := List.mem_map.1 hc
    exact Text.isLower_toUpper d
  resource := by
    simp only [ofWords, String.toList_ofList]
    refine ⟨mt (route_eq_nil_iff hresource.ne_nil).1 hquery, fun c hc => ?_⟩
    exact hresource.solid c ((List.takeWhile_sublist _).subset hc)
  noQuery := by
    simp only [ofWords, String.toList_ofList]
    intro hmem
    have hne := List.mem_takeWhile_imp hmem
    simp at hne
  authorization := by
    simp only [ofWords, String.toList_ofList]
    exact Text.singleSpaced_join hothers

theorem canonical_of_parse (h : parse line = .ok r) : r.Canonical := by
  obtain ⟨client, verb, resource, others, hw, hquery, rfl⟩ := parse_eq_ok_iff.1 h
  have hword (word : List Char) (hmem : word ∈ client :: verb :: resource :: others) : IsWord word :=
    Text.isWord_of_mem_words (hw ▸ hmem)
  apply canonical_ofWords _ _ _ _ hquery
  · exact hword client (by simp)
  · exact hword verb (by simp)
  · exact hword resource (by simp)
  · exact fun word hmem => hword word (by simp [hmem])

theorem toList_render (r : Request) : r.render.toList =
    r.client.toList ++ ' ' :: (r.verb.toList ++ ' ' :: (r.resource.toList ++
      if r.authorization = "" then [] else ' ' :: r.authorization.toList)) := by
  have hspace : " ".toList = [' '] := rfl
  simp only [render, String.toList_append, hspace, List.append_assoc, List.cons_append]
  split <;> simp

theorem words_render (h : r.Canonical) : Text.words r.render.toList =
    r.client.toList :: r.verb.toList :: r.resource.toList :: Text.words r.authorization.toList := by
  rw [toList_render, Text.words_word_space h.client, Text.words_word_space h.verb]
  split_ifs with hnone
  · rw [hnone, List.append_nil, Text.words_word h.resource]
    rfl
  · rw [Text.words_word_space h.resource]

theorem parse_render (h : r.Canonical) : parse r.render = .ok r := by
  have hverb : r.verb.toList.map Char.toUpper = r.verb.toList := by
    rw [List.map_congr_left fun c hc => Text.toUpper_of_not_isLower (h.upper c hc), List.map_id']
  have hroute : route r.resource.toList = r.resource.toList := by
    rw [route, List.takeWhile_eq_self_iff]
    intro c hc
    simpa using ne_of_mem_of_not_mem hc h.noQuery
  have hjoin := Text.join_words_eq_iff.2 h.authorization
  refine parse_eq_ok_iff.2 ⟨_, _, _, _, words_render h, ?_, ?_⟩
  · exact fun hquery => h.noQuery (List.mem_of_head? hquery)
  · simp only [ofWords, hverb, hroute, hjoin, String.ofList_toList]

/-! Blanks. -/

theorem Padded.words (h : Padded line other) :
    Text.words other.toList = Text.words line.toList := by
  obtain ⟨front, gap, back, hapart, hgap, hline, hother⟩ := h
  rw [hline, hother, Text.words_insert hapart hgap]

theorem words_of_padded (h : Relation.ReflTransGen Padded line other) :
    Text.words other.toList = Text.words line.toList := by
  induction h with
  | refl => rfl
  | tail _ last ih => rw [last.words, ih]

theorem parse_padded (h : Relation.ReflTransGen Padded line other) :
    parse other = .ok r ↔ parse line = .ok r := by
  rw [parse_eq_ok_iff, parse_eq_ok_iff, words_of_padded h]

/-- A line is accepted exactly if it has three words and the third is more than a query. What is
read from it is canonical and is read again from its own text, and blanks around the words are
read as if they were not there. -/
theorem accepts_grammar (line : String) :
    ((∃ r, parse line = .ok r) ↔ ∃ client verb resource rest,
      Holds line client verb resource rest ∧ resource.head? ≠ some '?') ∧
    (∀ r, parse line = .ok r → r.Canonical ∧ parse r.render = .ok r) ∧
    ∀ other, Relation.ReflTransGen Padded line other →
      ∀ r, parse other = .ok r ↔ parse line = .ok r := by
  refine ⟨accepts_iff, fun r h => ?_, fun other h r => parse_padded h⟩
  have hr := canonical_of_parse h
  exact ⟨hr, parse_render hr⟩

/-- A line with a query, read again from its own text and with blanks of other kinds. -/
theorem accepts_grammar_of_query :
    let r : Request := ⟨"10.0.0.1", "GET", "/a", "Basic eA=="⟩
    let line := "10.0.0.1 get /a?b=1 Basic eA=="
    parse line = .ok r ∧ r.Canonical ∧ r.render = "10.0.0.1 GET /a Basic eA==" ∧
      parse r.render = .ok r ∧ parse "\t10.0.0.1 get \u3000\n/a?b=1 Basic eA==" = .ok r := by
  intro r line
  have hr : parse line = .ok r := by decide +kernel
  obtain ⟨-, hcanonical, hblanks⟩ := accepts_grammar line
  have hfirst : Padded line "\t10.0.0.1 get /a?b=1 Basic eA==" :=
    ⟨[], ['\t'], line.toList, by decide +kernel⟩
  have hsecond : Padded "\t10.0.0.1 get /a?b=1 Basic eA=="
      "\t10.0.0.1 get \u3000\n/a?b=1 Basic eA==" :=
    ⟨"\t10.0.0.1 get ".toList, ['\u3000', '\n'], "/a?b=1 Basic eA==".toList, by decide +kernel⟩
  exact ⟨hr, (hcanonical r hr).1, by decide +kernel, (hcanonical r hr).2,
    (hblanks _ (.tail (.single hfirst) hsecond) r).2 hr⟩

end Request
end Throttle
