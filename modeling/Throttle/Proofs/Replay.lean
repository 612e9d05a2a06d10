import Mathlib.Data.List.Forall2
import Throttle.Proofs.Limiter
import Throttle.Proofs.Lines

/-!
# Replays of texts

A replay decides the lines of a text that are neither blank nor comments, each under its
number. A text may be replayed in two parts if the first part ends a line: the second part
starts with the limiter that the first one left, and its lines are counted on.
-/

namespace Throttle

def Decision.shift (n : Nat) (d : Decision) : Decision := { d with line := n + d.line }

namespace Replay

/-! The entries of a text. -/

def trimmedLines (n : Nat) (text : List Char) : List (List Char × Nat) :=
  ((Text.splitAt (· == '\n') text).map Text.trim).zipIdx n

def IsContent (line : List Char) : Prop := line ≠ [] ∧ line.head? ≠ some '#'

instance : DecidablePred IsContent := fun _ => inferInstanceAs (Decidable (_ ∧ _))

def contentLines (n : Nat) (text : List Char) : List (List Char × Nat) :=
  (trimmedLines n text).filter fun line => IsContent line.1

def Entry.ofContent (line : List Char × Nat) : Entry :=
  ⟨line.2, Request.parse (String.ofList line.1)⟩

theorem contentLines_of_unbroken {s : List Char} (h : '\n' ∉ s) (n : Nat) :
    contentLines n s = [(Text.trim s, n)].filter fun line => IsContent line.1 := by
  rw [contentLines, trimmedLines, Text.splitAt_of_unbroken h]
  rfl

theorem contentLines_line {s : List Char} (h : '\n' ∉ s) (rest : List Char) (n : Nat) :
    contentLines n (s ++ '\n' :: rest) =
      contentLines n s ++ contentLines (n + 1) rest := by
  rw [contentLines_of_unbroken h, contentLines, trimmedLines, Text.splitAt_line h, List.map_cons,
    List.zipIdx_cons, ← List.singleton_append, List.filter_append]
  rfl

theorem ofLine?_eq {line : String} {s : List Char} (hs : '\n' ∉ s)
    (h : Text.trim line.toList = Text.trim s) (n : Nat) :
    (Entry.ofLine? n line).toList = (contentLines n s).map Entry.ofContent := by
  rw [contentLines_of_unbroken hs, Entry.ofLine?, content?, h]
  cases Text.trim s with
  | nil => rfl
  | cons c text =>
    by_cases hc : c = '#'
    · subst hc
      rfl
    · have hcontent : IsContent (c :: text) := ⟨by simp, by simpa using hc⟩
      rw [List.filter_cons_of_pos (by simpa using hcontent)]
      simp [hc, Entry.ofContent]

theorem entriesFrom_encode (n : Nat) (text : List Char) :
    entriesFrom n (Text.lines (Text.encode (String.ofList text))) =
      ((contentLines n text).map Entry.ofContent, true) := by
  induction text using Text.lines_induction generalizing n with
  | last s hs =>
    -- An empty last piece is not a line, but it holds no content either.
    by_cases hempty : s = []
    · subst hempty
      rw [Text.encode_ofList]
      rfl
    · have hbytes := Text.encode_ne_nil hempty
      rw [Text.lines_of_unbroken (Text.newline_not_mem_encode hs) hbytes, entriesFrom,
        Text.decode?_encode, ← ofLine?_eq hs (by rw [String.toList_ofList])]
      simp [entriesFrom]
  | line s rest hs ih =>
    have hlines : Text.lines (Text.encode (String.ofList (s ++ '\n' :: rest))) =
        Text.chomp (Text.encode (String.ofList s) ++ [10]) ::
          Text.lines (Text.encode (String.ofList rest)) := by
      rw [Text.encode_line, Text.lines_append, Text.lines_of_line (Text.newline_not_mem_encode hs)]
      rfl
    obtain ⟨line, hline, htrim⟩ := Text.decode?_chomp s
    rw [hlines, entriesFrom, hline, contentLines_line hs, List.map_append, ← ofLine?_eq hs htrim]
    simp only [ih]

def entries (text : String) : List Entry := (contentLines 1 text.toList).map Entry.ofContent

theorem entriesFrom_one (text : String) :
    entriesFrom 1 (Text.lines (Text.encode text)) = (entries text, true) := by
  rw [entries, ← entriesFrom_encode, String.ofList_toList]

def Entry.shift (n : Nat) (e : Entry) : Entry := { e with line := n + e.line }

theorem entriesFrom_shift (k n : Nat) (lines : List (List UInt8)) :
    entriesFrom (k + n) lines =
      ((entriesFrom n lines).1.map (Entry.shift k), (entriesFrom n lines).2) := by
  induction lines generalizing n with
  | nil => rfl
  | cons line rest ih =>
    simp only [entriesFrom]
    cases Text.decode? line with
    | none => rfl
    | some text =>
      have hline : (Entry.ofLine? (k + n) text).toList =
          (Entry.ofLine? n text).toList.map (Entry.shift k) := by
        cases h : content? text <;> simp [Entry.ofLine?, h, Entry.shift]
      simp only [Nat.add_assoc k, ih, hline, List.map_append]

theorem entriesFrom_append {n : Nat} {first : List (List UInt8)} {es : List Entry}
    (h : entriesFrom n first = (es, true)) (rest : List (List UInt8)) :
    entriesFrom n (first ++ rest) =
      (es ++ (entriesFrom (n + first.length) rest).1, (entriesFrom (n + first.length) rest).2) := by
  induction first generalizing n es with
  | nil =>
    cases h
    rfl
  | cons line first ih =>
    rw [entriesFrom] at h
    rw [List.cons_append, entriesFrom]
    cases hd : Text.decode? line with
    | none =>
      rw [hd] at h
      cases h
    | some text =>
      rw [hd] at h
      simp only [Prod.mk.injEq] at h
      obtain ⟨rfl, hcomplete⟩ := h
      have hrest := ih (Prod.ext rfl hcomplete)
      simp only [hrest, List.append_assoc, List.length_cons, Nat.add_assoc, Nat.add_comm 1]

theorem entries_append {a : String} (ha : a = "" ∨ ∃ s, a = s ++ "\n") (b : String) :
    entries (a ++ b) =
      entries a ++ (entries b).map (Entry.shift (Text.lines (Text.encode a)).length) := by
  have hwhole := entriesFrom_append (entriesFrom_one a) (Text.lines (Text.encode b))
  rw [Nat.add_comm, entriesFrom_shift, entriesFrom_one, ← Text.lines_encode_append ha,
    entriesFrom_one] at hwhole
  exact congrArg Prod.fst hwhole

/-! Decisions on entries. -/

variable {l : Limiter} {c : Clock} {e : Entry} {es : List Entry} {ds : List Decision}

theorem judgeEntry_shift (n : Nat) (l : Limiter) (c : Clock) (e : Entry) :
    judgeEntry l c (e.shift n) = (judgeEntry l c e).map (Decision.shift n) := by
  cases h : e.request with
  | error error => simp [judgeEntry, Entry.shift, h, Outcome.map, Except.map, Decision.shift]
  | ok request =>
    simp only [judgeEntry, Entry.shift, h, Limiter.judge, Outcome.map_map]
    rfl

theorem status_uncounted_ne (l : Limiter) (request : Request) :
    (l.uncounted request).status ≠ 400 := by
  unfold Limiter.uncounted
  split
  · decide
  · cases l.gate request.authorization <;> decide

theorem status_ruling_ne (refusal? : Option Refusal) : (Limiter.ruling refusal?).status ≠ 400 := by
  cases refusal? <;> simp [Limiter.ruling, Ruling.status]

theorem decision_of_judge {line : Nat} {request : Request} {d : Decision}
    (h : (l.judge c line request).result = .ok d) :
    d.line = line ∧ d.ruling.status ≠ 400 := by
  rcases Limiter.judge_returned h with ⟨-, -, rfl⟩ | ⟨i, refusal?, -, -, -, rfl⟩
  · exact ⟨rfl, status_uncounted_ne l request⟩
  · exact ⟨rfl, status_ruling_ne refusal?⟩

theorem judgeEntry_ok {d : Decision} (h : (judgeEntry l c e).result = .ok d) :
    d.line = e.line ∧ (d.ruling.status = 400 ↔ ∃ error, e.request = .error error) := by
  cases hr : e.request with
  | error error =>
    rw [judgeEntry, hr] at h
    cases h
    exact ⟨rfl, by simp [Ruling.status]⟩
  | ok request =>
    rw [judgeEntry, hr] at h
    obtain ⟨hline, hstatus⟩ := decision_of_judge h
    exact ⟨hline, by simpa using hstatus⟩

theorem judgeAll_cons_ok :
    (judgeAll l c (e :: es)).result = .ok ds ↔
      ∃ d others, (judgeEntry l c e).result = .ok d ∧
        (judgeAll (judgeEntry l c e).state (c.skip (judgeEntry l c e).samples) es).result =
          .ok others ∧ ds = d :: others := by
  rw [judgeAll]
  cases (judgeEntry l c e).result with
  | error fault => simp
  | ok d =>
    cases (judgeAll (judgeEntry l c e).state (c.skip (judgeEntry l c e).samples) es).result with
    | error fault => simp
    | ok others => simp [eq_comm]

theorem judgeAll_shift (n : Nat) (l : Limiter) (c : Clock) (es : List Entry) :
    judgeAll l c (es.map (Entry.shift n)) = (judgeAll l c es).map (List.map (Decision.shift n)) := by
  induction es generalizing l c with
  | nil => rfl
  | cons e es ih =>
    simp only [List.map_cons, judgeAll, judgeEntry_shift, ih, Outcome.state_map,
      Outcome.samples_map, Outcome.result_map, Outcome.events_map]
    cases (judgeEntry l c e).result with
    | error fault => rfl
    | ok d =>
      cases (judgeAll (judgeEntry l c e).state (c.skip (judgeEntry l c e).samples) es).result <;> rfl

theorem judgeAll_append (l : Limiter) (c : Clock) (es fs : List Entry) :
    let first := judgeAll l c es
    let second := judgeAll first.state (c.skip first.samples) fs
    let whole := judgeAll l c (es ++ fs)
    whole.state = second.state ∧
      ∀ ds others, first.result = .ok ds → second.result = .ok others →
        whole.result = .ok (ds ++ others) := by
  induction es generalizing l c with
  | nil =>
    simp only [judgeAll, Clock.skip_zero, List.nil_append, Except.ok.injEq]
    exact ⟨trivial, fun ds others hd ho => hd ▸ ho⟩
  | cons e es ih =>
    obtain ⟨hstate, hresult⟩ := ih (judgeEntry l c e).state (c.skip (judgeEntry l c e).samples)
    simp only [Clock.skip_skip] at hstate hresult
    refine ⟨hstate, fun ds others hd ho => ?_⟩
    obtain ⟨d, ds, he, hes, rfl⟩ := judgeAll_cons_ok.1 hd
    exact judgeAll_cons_ok.2 ⟨d, ds ++ others, he, hresult ds others hes ho, rfl⟩

/-- The outcome of each decision, made where the ones before it have left the limiter. -/
def outcomes (l : Limiter) (c : Clock) : List Entry → List (Outcome Limiter Decision)
  | [] => []
  | e :: rest =>
    let o := judgeEntry l c e
    o :: outcomes o.state (c.skip o.samples) rest

theorem outcomes_append (l : Limiter) (c : Clock) (es fs : List Entry) :
    outcomes l c (es ++ fs) =
      outcomes l c es ++
        outcomes (judgeAll l c es).state (c.skip (judgeAll l c es).samples) fs := by
  induction es generalizing l c with
  | nil => rw [judgeAll, Clock.skip_zero, List.nil_append, outcomes, List.nil_append]
  | cons e es ih =>
    simp only [List.cons_append, outcomes, judgeAll, ih, Clock.skip_skip]

theorem judgeAll_ok (h : ∀ o ∈ outcomes l c es, o.result.isOk) :
    ∃ ds, (judgeAll l c es).result = .ok ds := by
  induction es generalizing l c with
  | nil => exact ⟨[], rfl⟩
  | cons e es ih =>
    rw [outcomes, List.forall_mem_cons] at h
    obtain ⟨ds, hds⟩ := ih h.2
    cases he : (judgeEntry l c e).result with
    | error fault =>
      rw [he] at h
      cases h.1
    | ok d => exact ⟨d :: ds, judgeAll_cons_ok.2 ⟨d, ds, he, hds, rfl⟩⟩

theorem judgeAll_parts {n : Nat} {fs : List Entry}
    (h : ∀ o ∈ outcomes l c (es ++ fs.map (Entry.shift n)), o.result.isOk) :
    let first := judgeAll l c es
    let second := judgeAll first.state (c.skip first.samples) fs
    let whole := judgeAll l c (es ++ fs.map (Entry.shift n))
    ∃ ds others, first.result = .ok ds ∧ second.result = .ok others ∧
      whole.result = .ok (ds ++ others.map (Decision.shift n)) ∧ whole.state = second.state := by
  intro first second whole
  rw [outcomes_append, List.forall_mem_append] at h
  -- The numbers of the lines change nothing but the numbers in the decisions.
  obtain ⟨hstate, hresult⟩ := judgeAll_append l c es (fs.map (Entry.shift n))
  rw [judgeAll_shift] at hstate hresult
  obtain ⟨ds, hds⟩ := judgeAll_ok h.1
  obtain ⟨shifted, hshifted⟩ := judgeAll_ok h.2
  rw [judgeAll_shift, Outcome.result_map] at hshifted
  cases hsecond : second.result with
  | error fault =>
    rw [hsecond] at hshifted
    cases hshifted
  | ok others =>
    refine ⟨ds, others, hds, rfl, hresult ds _ hds ?_, hstate⟩
    rw [Outcome.result_map, hsecond]
    rfl

theorem forall₂_of_judgeAll (h : (judgeAll l c es).result = .ok ds) :
    List.Forall₂ (fun d e => d.line = e.line ∧
      (d.ruling.status = 400 ↔ ∃ error, e.request = .error error)) ds es := by
  induction es generalizing l c ds with
  | nil =>
    cases h
    exact .nil
  | cons e es ih =>
    obtain ⟨d, others, he, hes, rfl⟩ := judgeAll_cons_ok.1 h
    exact .cons (judgeEntry_ok he) (ih hes)

/-! Whole texts. -/

def Decides (l : Limiter) (c : Clock) (text : String) : Prop :=
  ∀ o ∈ outcomes l c (entries text), o.result.isOk

theorem run_encode (l : Limiter) (c : Clock) (text : String) :
    let o := judgeAll l c (entries text)
    let r := run l c (Text.encode text)
    r.state = o.state ∧ r.samples = o.samples ∧
      ∀ ds, o.result = .ok ds → r.decisions = .ok ds := by
  simp only [run, entriesFrom_one, if_true]
  cases h : (judgeAll l c (entries text)).result with
  | error fault => exact ⟨rfl, rfl, fun ds hds => by cases hds⟩
  | ok ds => exact ⟨rfl, rfl, fun _ hds => hds ▸ rfl⟩

theorem pairwise_contentLines (n : Nat) (text : List Char) :
    ((contentLines n text).map Prod.snd).Pairwise (· < ·) := by
  have hsub : ((contentLines n text).map Prod.snd).Sublist
      ((trimmedLines n text).map Prod.snd) := List.filter_sublist.map _
  refine List.Pairwise.sublist hsub ?_
  rw [trimmedLines, List.zipIdx_map_snd]
  exact List.pairwise_lt_range'

/-- A text that ends a line may be replayed before the rest or together with it. And a
replay that fails nowhere decides the content lines in order, each under its number, and
finds those malformed that do not parse. -/
theorem run_append (l : Limiter) (c : Clock) :
    (∀ a b : String, (a = "" ∨ ∃ s, a = s ++ "\n") → Decides l c (a ++ b) →
      let first := run l c (Text.encode a)
      let second := run first.state (c.skip first.samples) (Text.encode b)
      let whole := run l c (Text.encode (a ++ b))
      ∃ ds others, first.decisions = .ok ds ∧ second.decisions = .ok others ∧
        whole.decisions =
          .ok (ds ++ others.map (Decision.shift (Text.lines (Text.encode a)).length)) ∧
        whole.state = second.state) ∧
    ∀ text, Decides l c text → ∃ ds, (run l c (Text.encode text)).decisions = .ok ds ∧
      (ds.map Decision.line).Pairwise (· < ·) ∧
      List.Forall₂ (fun d line => d.line = line.2 ∧
        (d.ruling.status = 400 ↔ ∃ error, Request.parse (String.ofList line.1) = .error error))
        ds (contentLines 1 text.toList) := by
  refine ⟨fun a b ha hdecides => ?_, fun text hdecides => ?_⟩
  · intro first second whole
    obtain ⟨hstate, hsamples, hfirst⟩ := run_encode l c a
    obtain ⟨hsecondState, -, hsecond⟩ := run_encode first.state (c.skip first.samples) b
    obtain ⟨hwholeState, -, hwhole⟩ := run_encode l c (a ++ b)
    rw [Decides, entries_append ha] at hdecides
    obtain ⟨ds, others, hds, hothers, hall, hfinal⟩ := judgeAll_parts hdecides
    rw [← entries_append ha, ← hstate, ← hsamples] at hfinal
    rw [← entries_append ha] at hall
    rw [← hstate, ← hsamples] at hothers
    refine ⟨ds, others, hfirst ds hds, hsecond others hothers, hwhole _ hall, ?_⟩
    exact hwholeState.trans (hfinal.trans hsecondState.symm)
  · obtain ⟨ds, hds⟩ := judgeAll_ok hdecides
    have hforall := forall₂_of_judgeAll hds
    rw [entries, List.forall₂_map_right_iff] at hforall
    have hlines : ds.map Decision.line = (contentLines 1 text.toList).map Prod.snd := by
      rw [← List.forall₂_eq_eq_eq, List.forall₂_map_left_iff, List.forall₂_map_right_iff]
      exact hforall.imp fun _ _ h => h.1
    refine ⟨ds, (run_encode l c text).2.2 ds hds, ?_, hforall⟩
    rw [hlines]
    exact pairwise_contentLines 1 text.toList

/-- Three visits at a place that allows one, in two parts. The first part has a comment, a
blank line and a malformed one, and the last line does not end. -/
theorem run_append_of_visits :
    let l : Limiter := ⟨{ requestLimit := 1, windowSeconds := 60, byIp := true }, by decide, .empty⟩
    let c := Clock.still (.ofNs 0)
    let a := "# visits\r\n\r\n10.0.0.1 GET /\r\nbad\n"
    let b := "  10.0.0.1 get /?page=2 \n10.0.0.2 GET /"
    let told := fun d : Decision => (d.line, d.ruling.status)
    Decides l c (a ++ b) ∧
      (run l c (Text.encode (a ++ b))).decisions.map (List.map told) =
        .ok [(3, 200), (4, 400), (5, 429), (6, 200)] := by
  intro l c a b told
  have hdecides : Decides l c (a ++ b) := by
    unfold Decides
    decide +kernel
  have hends : ∃ s, a = s ++ "\n" := ⟨"# visits\r\n\r\n10.0.0.1 GET /\r\nbad", rfl⟩
  have hlength : (Text.lines (Text.encode a)).length = 4 := by decide +kernel
  have hfirst : (run l c (Text.encode a)).decisions.map (List.map told) =
      .ok [(3, 200), (4, 400)] := by decide +kernel
  have hsecond : (run (run l c (Text.encode a)).state c (Text.encode b)).decisions.map
      (List.map told) = .ok [(1, 429), (2, 200)] := by decide +kernel
  obtain ⟨ds, others, hds, hothers, hwhole, -⟩ := (run_append l c).1 a b (.inr hends) hdecides
  rw [hds] at hfirst
  rw [Clock.skip_still] at hothers
  rw [hothers] at hsecond
  have hshift : (others.map (Decision.shift 4)).map told =
      (others.map told).map fun line => (4 + line.1, line.2) := by
    rw [List.map_map, List.map_map]
    rfl
  refine ⟨hdecides, ?_⟩
  rw [hwhole, hlength]
  change Except.ok ((ds ++ others.map (Decision.shift 4)).map told) = _
  rw [List.map_append, hshift, Except.ok.inj hfirst, Except.ok.inj hsecond]
  rfl

end Replay
end Throttle
