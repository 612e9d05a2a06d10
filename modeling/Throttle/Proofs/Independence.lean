import Throttle.Proofs.Limiter

/-!
# Independence of identities

Two limiters look alike from a place if they have one policy, the same queue there and
the same registries. A call leaves them looking alike, and one that is about that place
gets the same answer from both; an attempt at another place changes nothing there. So
whatever others attempt can be taken out of a run.
-/

namespace Throttle
namespace Outcome

variable {σ τ α β : Type}

/-- The same answer after the same number of samples. -/
structure Agrees (o : Outcome σ α) (r : Outcome τ α) : Prop where
  result : o.result = r.result
  samples : o.samples = r.samples

theorem Agrees.map {o : Outcome σ α} {r : Outcome τ α} (h : o.Agrees r) (f : α → β) :
    (o.map f).Agrees (r.map f) :=
  ⟨congrArg (Except.map f) h.result, h.samples⟩

theorem Agrees.lift {o : Outcome σ α} {r : Outcome τ α} (h : o.Agrees r) {ρ : Type} (f : σ → ρ)
    (g : τ → ρ) : (o.lift f).Agrees (r.lift g) :=
  ⟨h.result, h.samples⟩

theorem Agrees.andThen {o r : Outcome σ α} (h : o.Agrees r) (c : Clock)
    {f : Clock → α → σ → Outcome σ β}
    (hf : ∀ c a, (f c a o.state).Agrees (f c a r.state)) :
    (o.andThen c f).Agrees (r.andThen c f) := by
  cases ho : o.result with
  | error e =>
    rw [andThen_of_error ho, andThen_of_error (h.result ▸ ho)]
    exact ⟨rfl, h.samples⟩
  | ok a =>
    have hnext := hf (c.skip o.samples) a
    simp only [Outcome.andThen, ← h.result, ho, ← h.samples]
    exact ⟨hnext.result, congrArg (o.samples + ·) hnext.samples⟩

theorem Agrees.readings {o : Outcome σ α} {r : Outcome τ α} (h : o.Agrees r) (c : Clock) :
    o.readings c = r.readings c := by
  rw [Outcome.readings, h.samples, Outcome.readings]

end Outcome

namespace Ledger

theorem queue_record_of_ne (s : Ledger) (c : Clock) {identity : Identity}
    {place : IdentityKind × String} (h : place ≠ identity.place) (limit : Nat) (window : Span) :
    (s.record c identity limit window).state.queue place = s.queue place := by
  by_cases hl : limit = 0
  · subst limit
    rw [(s.record_zero c identity window).2.2]
  · rw [(s.record_spec c identity hl window).2.2, if_neg h]

theorem record_congr {s t : Ledger} {identity : Identity}
    (h : s.queue identity.place = t.queue identity.place) (c : Clock) (limit : Nat)
    (window : Span) :
    let o := s.record c identity limit window
    let r := t.record c identity limit window
    o.Agrees r ∧ o.state.queue identity.place = r.state.queue identity.place := by
  intro o r
  by_cases hl : limit = 0
  · subst limit
    obtain ⟨hor, hon, hos⟩ := s.record_zero c identity window
    obtain ⟨hrr, hrn, hrs⟩ := t.record_zero c identity window
    exact ⟨⟨hor.trans hrr.symm, hon.trans hrn.symm⟩, by rw [hos, hrs, h]⟩
  · obtain ⟨hor, hon, hos⟩ := s.record_spec c identity hl window
    obtain ⟨hrr, hrn, hrs⟩ := t.record_spec c identity hl window
    rw [attempts_eq_queue, h] at hor hon hos
    refine ⟨⟨hor.trans hrr.symm, hon.trans hrn.symm⟩, ?_⟩
    rw [hos, hrs, if_pos rfl, if_pos rfl, attempts_eq_queue]

end Ledger

namespace Limiter

structure Alike (place : IdentityKind × String) (l m : Limiter) : Prop where
  policy : l.policy = m.policy
  queue : l.ledger.queue place = m.ledger.queue place
  hostile : l.ledger.hostile = m.ledger.hostile
  approved : l.ledger.approved = m.ledger.approved

variable {place : IdentityKind × String} {l m k : Limiter}

namespace Alike

theorem refl (place : IdentityKind × String) (l : Limiter) : Alike place l l :=
  ⟨rfl, rfl, rfl, rfl⟩

theorem symm (h : Alike place l m) : Alike place m l :=
  ⟨h.policy.symm, h.queue.symm, h.hostile.symm, h.approved.symm⟩

theorem trans (h : Alike place l m) (h' : Alike place m k) : Alike place l k :=
  ⟨h.policy.trans h'.policy, h.queue.trans h'.queue, h.hostile.trans h'.hostile,
    h.approved.trans h'.approved⟩

/-! Attempts and advice. -/

theorem attempt_elsewhere (l : Limiter) (c : Clock) {identity : Identity}
    (h : identity.place ≠ place) : Alike place (l.attempt c identity).state l := by
  rw [attempt_state]
  exact ⟨rfl, l.ledger.queue_record_of_ne c h.symm _ _, l.ledger.hostile_record c identity _ _,
    l.ledger.approved_record c identity _ _⟩

theorem record {identity : Identity} (h : Alike identity.place l m) (c : Clock) :
    let o := l.ledger.record c identity l.limit l.window
    let r := m.ledger.record c identity m.limit m.window
    o.Agrees r ∧ Alike identity.place (l.withLedger o.state) (m.withLedger r.state) := by
  obtain ⟨ha, hq⟩ := Ledger.record_congr h.queue c l.limit l.window
  rw [← limit_congr h.policy, ← window_congr h.policy]
  refine ⟨ha, h.policy, hq, ?_, ?_⟩
  · exact (l.ledger.hostile_record c identity _ _).trans
      (h.hostile.trans (m.ledger.hostile_record c identity _ _).symm)
  · exact (l.ledger.approved_record c identity _ _).trans
      (h.approved.trans (m.ledger.approved_record c identity _ _).symm)

theorem retryAfter {identity : Identity} (h : Alike identity.place l m) (c : Clock) :
    (l.retryAfter c identity).Agrees (m.retryAfter c identity) := by
  rw [retryAfter_eq, retryAfter_eq, Ledger.attempts_eq_queue, Ledger.attempts_eq_queue, h.queue,
    limit_congr h.policy, window_congr h.policy]
  exact ⟨rfl, rfl⟩

theorem attempt_here {identity : Identity} (h : Alike identity.place l m) (c : Clock) :
    (l.attempt c identity).Agrees (m.attempt c identity) ∧
      Alike identity.place (l.attempt c identity).state (m.attempt c identity).state := by
  obtain ⟨ha, hs⟩ := h.record c
  rw [attempt_state, attempt_state]
  refine ⟨(ha.lift _ _).andThen c fun c admission => ?_, hs⟩
  cases admission with
  | recorded stamp => exact ⟨rfl, rfl⟩
  | refused reason =>
    cases reason with
    | zeroLimit => exact ⟨rfl, rfl⟩
    | full => exact (hs.retryAfter c).map _
    | crowded => exact (hs.retryAfter c).map _

theorem attempt (h : Alike place l m) (c : Clock) (identity : Identity) :
    Alike place (l.attempt c identity).state (m.attempt c identity).state := by
  by_cases hp : identity.place = place
  · subst hp
    exact (h.attempt_here c).2
  · exact (attempt_elsewhere l c hp).trans (h.trans (attempt_elsewhere m c hp).symm)

/-! Every call. -/

theorem rule (h : Alike place l m) (c : Clock) (request : Request) (path : String) :
    Alike place (l.rule c request path).state (m.rule c request path).state ∧
      ∀ identity, l.identity? request.client request.authorization path = some identity →
        identity.place = place → (l.rule c request path).Agrees (m.rule c request path) := by
  have hhostile : l.isHostile request.client = m.isHostile request.client := by
    rw [isHostile, isHostile, h.policy, h.hostile]
  have hgate : l.gate request.authorization = m.gate request.authorization := by
    rw [gate, gate, h.policy, h.approved]
  have hidentity : l.identity? request.client request.authorization path =
      m.identity? request.client request.authorization path := by
    rw [Limiter.identity?, Limiter.identity?, h.policy]
  simp only [Limiter.rule, hhostile, hgate, hidentity]
  by_cases hh : m.isHostile request.client = true
  · simp only [hh, if_true]
    exact ⟨h, fun _ _ _ => ⟨rfl, rfl⟩⟩
  · simp only [hh]
    cases m.gate request.authorization with
    | missing => exact ⟨h, fun _ _ _ => ⟨rfl, rfl⟩⟩
    | invalid => exact ⟨h, fun _ _ _ => ⟨rfl, rfl⟩⟩
    | accepted =>
      cases m.identity? request.client request.authorization path with
      | none => exact ⟨h, fun _ _ _ => ⟨rfl, rfl⟩⟩
      | some identity =>
        refine ⟨h.attempt c identity, fun other ho hp => ?_⟩
        cases ho
        subst hp
        exact (h.attempt_here c).1.map _

theorem purge (h : Alike place l m) (c : Clock) :
    Alike place (l.purge c).state (m.purge c).state := by
  obtain ⟨-, -, hl⟩ := l.ledger.purge_spec c l.window
  obtain ⟨-, -, hm⟩ := m.ledger.purge_spec c m.window
  refine ⟨h.policy, (hl place).trans ?_, h.hostile, h.approved⟩
  rw [h.queue, window_congr h.policy]
  exact (hm place).symm

theorem clear (h : Alike place l m) : Alike place l.clear m.clear := by
  refine ⟨h.policy, ?_, h.hostile, h.approved⟩
  obtain ⟨kind, key⟩ := place
  cases kind <;> rfl

theorem changeHostile (h : Alike place l m) (f : Registry → Registry) :
    Alike place (l.withLedger { l.ledger with hostile := f l.ledger.hostile })
      (m.withLedger { m.ledger with hostile := f m.ledger.hostile }) :=
  ⟨h.policy, h.queue, congrArg f h.hostile, h.approved⟩

theorem changeApproved (h : Alike place l m) (f : Registry → Registry) :
    Alike place (l.withLedger { l.ledger with approved := f l.ledger.approved })
      (m.withLedger { m.ledger with approved := f m.ledger.approved }) :=
  ⟨h.policy, h.queue, h.hostile, congrArg f h.approved⟩

theorem markHostile (h : Alike place l m) (ip : String) :
    Alike place (l.markHostile ip).state (m.markHostile ip).state := by
  rw [Limiter.markHostile, Limiter.markHostile, h.policy]
  split
  · exact h.changeHostile fun r => (r.add ip).2
  · exact h

theorem unmarkHostile (h : Alike place l m) (ip : String) :
    Alike place (l.unmarkHostile ip).state (m.unmarkHostile ip).state := by
  rw [Limiter.unmarkHostile, Limiter.unmarkHostile, h.policy]
  split
  · exact h.changeHostile fun r => (r.remove ip).2
  · exact h

theorem perform (h : Alike place l m) (c : Clock) (call : Call) :
    Alike place (l.perform c call).state (m.perform c call).state := by
  cases call with
  | attempt identity => exact h.attempt c identity
  | advise identity =>
    simp only [Limiter.perform, Outcome.state_map, state_retryAfter]
    exact h
  | judge line request => exact (h.rule c request _).1
  | purge => exact h.purge c
  | clear => exact h.clear
  | approve token => exact h.changeApproved fun r => (r.add token).2
  | disapprove token => exact h.changeApproved fun r => (r.remove token).2
  | approveBasic credentials => exact h.changeApproved fun r => (r.add credentials.basic).2
  | disapproveBasic credentials => exact h.changeApproved fun r => (r.remove credentials.basic).2
  | markHostile ip => exact h.markHostile ip
  | unmarkHostile ip => exact h.unmarkHostile ip
  | addHostile ip => exact h.changeHostile fun r => (r.add ip).2
  | removeHostile ip => exact h.changeHostile fun r => (r.remove ip).2
  | addApproved token => exact h.changeApproved fun r => (r.add token).2
  | removeApproved token => exact h.changeApproved fun r => (r.remove token).2

theorem perform_elsewhere (l : Limiter) (c : Clock) {call : Call} {identity : Identity}
    (hi : call.identity? l.policy = some identity) (hp : identity.place ≠ place) :
    Alike place (l.perform c call).state l := by
  cases call with
  | attempt other =>
    cases hi
    exact attempt_elsewhere l c hp
  | judge line request =>
    simp only [Limiter.perform, Outcome.state_map]
    rcases l.judge_spec c line request with ⟨hs, -⟩ | ⟨other, ho, hs, -⟩
    · rw [hs]
      exact refl place l
    · rw [hs]
      have he : some other = some identity := ho.symm.trans hi
      cases he
      exact attempt_elsewhere l c hp
  | _ => cases hi

end Alike

def Call.subject? (p : Policy) : Call → Option Identity
  | advise identity => some identity
  | call => call.identity? p

theorem Call.subject?_of_identity? {p : Policy} {identity : Identity} {call : Call}
    (h : call.identity? p = some identity) : call.subject? p = some identity := by
  cases call with
  | advise other => cases h
  | _ => exact h

theorem Alike.answer {identity : Identity} (h : Alike identity.place l m) (c : Clock) {call : Call}
    (about : call.subject? l.policy = some identity) :
    (l.perform c call).Agrees (m.perform c call) := by
  cases call with
  | attempt other =>
    cases about
    exact (h.attempt_here c).1.map _
  | advise other =>
    cases about
    exact (h.retryAfter c).map _
  | judge line request => exact (((h.rule c request _).2 identity about rfl).map _).map _
  | _ => cases about

/-! Whole runs. -/

section Runs

variable {p : Policy} {a b : Identity}

/-- What is left of a run without the attempts of `b`. -/
def without (p : Policy) (b : Identity) (run : List (Call × Clock)) : List (Call × Clock) :=
  run.filter fun step => step.1.identity? p ≠ some b

def about (p : Policy) (a : Identity) (steps : List (Run.Step Call Answer)) :
    List (Run.Step Call Answer) :=
  steps.filter fun step => step.call.subject? p = some a

theorem Alike.final (h : Alike a.place l m) (hp : l.policy = p) (hne : b.place ≠ a.place)
    (run : List (Call × Clock)) :
    Alike a.place (Run.final Limiter.perform l run)
      (Run.final Limiter.perform m (without p b run)) := by
  induction run generalizing l m with
  | nil => exact h
  | cons step rest ih =>
    obtain ⟨call, c⟩ := step
    have hpolicy := (l.policy_perform c call).trans hp
    by_cases hb : call.identity? p = some b
    · have hl : Alike a.place (l.perform c call).state l :=
        perform_elsewhere l c (by rw [hp]; exact hb) hne
      rw [without, List.filter_cons_of_neg (by simpa using hb)]
      exact ih (hl.trans h) hpolicy
    · rw [without, List.filter_cons_of_pos (by simpa using hb)]
      exact ih (h.perform c call) hpolicy

theorem Alike.history (h : Alike a.place l m) (hp : l.policy = p) (hne : b.place ≠ a.place)
    (run : List (Call × Clock)) :
    about p a (Run.history Limiter.perform l run) =
      about p a (Run.history Limiter.perform m (without p b run)) := by
  induction run generalizing l m with
  | nil => rfl
  | cons step rest ih =>
    obtain ⟨call, c⟩ := step
    have hpolicy := (l.policy_perform c call).trans hp
    by_cases hb : call.identity? p = some b
    · have hl : Alike a.place (l.perform c call).state l :=
        perform_elsewhere l c (by rw [hp]; exact hb) hne
      have hother : call.subject? p ≠ some a := by
        rw [Call.subject?_of_identity? hb]
        exact fun he => hne (congrArg Identity.place (Option.some.inj he))
      rw [without, List.filter_cons_of_neg (by simpa using hb), Run.history, about,
        List.filter_cons_of_neg (by simpa using hother)]
      exact ih (hl.trans h) hpolicy
    · have hrest := ih (h.perform c call) hpolicy
      rw [without, List.filter_cons_of_pos (by simpa using hb), Run.history, Run.history]
      by_cases ha : call.subject? p = some a
      · have hsame := h.answer c (by rw [hp]; exact ha)
        rw [about, about, List.filter_cons_of_pos (by simpa using ha),
          List.filter_cons_of_pos (by simpa using ha), hsame.readings c, hsame.result]
        exact congrArg _ hrest
      · rw [about, about, List.filter_cons_of_neg (by simpa using ha),
          List.filter_cons_of_neg (by simpa using ha)]
        exact hrest

/-- Without the attempts of `b` every attempt of `a`, and every advice to it, reads the
clock as often and is answered the same, and at every point `a` has as many attempts. -/
theorem independent_of_others {first : Limiter} {events : List Event}
    (h : create p = .ok (first, events)) (ha : a.Plain) (hb : b.Plain) (hne : a ≠ b)
    (run : List (Call × Clock)) :
    about p a (Run.history perform first run) =
        about p a (Run.history perform first (without p b run)) ∧
      ∀ done, done <+: run →
        (Run.final perform first done).ledger.count a =
          (Run.final perform first (without p b done)).ledger.count a := by
  have hpolicy := (create_spec h).1
  have hplace : b.place ≠ a.place := fun he => hne (Identity.place_injective ha hb he.symm)
  have hsame := Alike.refl a.place first
  refine ⟨hsame.history hpolicy hplace run, fun done _ => ?_⟩
  exact congrArg List.length (hsame.final hpolicy hplace done).queue

/-- Two endpoints whose owner and path read alike one after the other. -/
theorem independent_of_similar :
    let p : Policy := { requestLimit := 1 }
    let first : Limiter := ⟨p, by decide, .empty⟩
    let a := Identity.endpoint "ab" "GET|/"
    let b := Identity.endpoint "a" "bGET|/"
    let run := [(Call.attempt b, Clock.still (.ofNs 0)), (.attempt a, .still (.ofNs 5)),
      (.attempt b, .still (.ofNs 6)), (.advise a, .still (.ofNs 7)), (.purge, .still (.ofNs 8)),
      (.attempt a, .still (.ofNs 9))]
    (about p a (Run.history perform first run)).map (·.result) =
        [.ok (.refusal none), .ok (.seconds 3600),
          .ok (.refusal (some (refuse a .full (some 3600))))] ∧
      (Run.final perform first run).ledger.count a = 1 := by
  intro p first a b run
  have ha : a.Plain := by decide
  have hb : b.Plain := by decide
  obtain ⟨hanswers, hcount⟩ := independent_of_others
    (show create p = .ok (first, p.warnings ++ [.limiterCreated p]) from rfl) ha hb (by decide) run
  rw [hanswers, hcount run List.prefix_rfl]
  decide +kernel

end Runs

end Limiter
end Throttle
