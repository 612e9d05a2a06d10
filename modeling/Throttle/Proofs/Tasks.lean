import Throttle.Proofs.Replay
import Throttle.Replay.Tasks

/-!
# Turns of a replay

What a list of turns does to a replay. Every task runs at most once, so that the limiter is the one
that the entries of some tasks leave, in the order in which these ran. The turns in line order are
what the run of the replay is.
-/

namespace Throttle.Replay

variable {l : Limiter} {c : Clock} {e : Entry} {es : List Entry} {input : List UInt8}

theorem judgeAll_concat (l : Limiter) (c : Clock) (es : List Entry) (e : Entry) :
    let first := judgeAll l c es
    let last := judgeEntry first.state (c.skip first.samples) e
    (judgeAll l c (es ++ [e])).state = last.state ∧
      (judgeAll l c (es ++ [e])).samples = first.samples + last.samples := by
  induction es generalizing l c with
  | nil => simp [judgeAll, Clock.skip_zero]
  | cons e' es ih =>
    obtain ⟨hstate, hsamples⟩ :=
      ih (judgeEntry l c e').state (c.skip (judgeEntry l c e').samples)
    simp only [Clock.skip_skip] at hstate hsamples
    exact ⟨hstate, by simp only [List.cons_append, judgeAll, hsamples, Nat.add_assoc]⟩

namespace Progress

variable {p : Progress} {first rest : List (List UInt8)}

theorem read_text {line : List UInt8} {text : String} (hunread : p.unread = line :: rest)
    (hline : Text.decode? line = some text) :
    p.read = p.spawn text rest := by
  rw [read, hunread]
  simp only [hline]

theorem read_notText {line : List UInt8} (hunread : p.unread = line :: rest)
    (hline : Text.decode? line = none) :
    p.read = { p with returned? := some (.error .notText) } := by
  rw [read, hunread]
  simp only [hline]

theorem runTask_spawned {i : Nat} (h : p.tasks[i]? = some { entry := e }) :
    p.runTask i = { p with
      tasks := p.tasks.set i { entry := e, result? := some (judgeEntry p.limiter p.clock e).result }
      limiter := (judgeEntry p.limiter p.clock e).state
      clock := p.clock.skip (judgeEntry p.limiter p.clock e).samples
      events := p.events ++ (judgeEntry p.limiter p.clock e).events } := by
  rw [runTask, h]

theorem runTask_cases (p : Progress) (i : Nat) :
    (∃ e, p.tasks[i]? = some { entry := e }) ∨ p.runTask i = p := by
  cases h : p.tasks[i]? with
  | none => exact .inr (by rw [runTask, h])
  | some task =>
    obtain ⟨e, result?⟩ := task
    cases result? with
    | none => exact .inl ⟨e, rfl⟩
    | some result => exact .inr (by rw [runTask, h])

theorem map_entry_set {i : Nat} {result? : Option (Except Fault Decision)}
    (h : p.tasks[i]? = some { entry := e }) :
    (p.tasks.set i { entry := e, result? := result? }).map Task.entry = p.tasks.map Task.entry := by
  obtain ⟨hlength, hget⟩ := List.getElem?_eq_some_iff.1 h
  have hbound : i < (p.tasks.map Task.entry).length := by simpa using hlength
  have hentry : (p.tasks.map Task.entry)[i] = e := by rw [List.getElem_map, hget]
  rw [List.map_set]
  exact hentry ▸ List.set_getElem_self hbound

theorem runTask_frame (p : Progress) (i : Nat) :
    (p.runTask i).paused = p.paused ∧ (p.runTask i).unread = p.unread ∧
      (p.runTask i).returned? = p.returned? := by
  rcases runTask_cases p i with ⟨e, he⟩ | hsame
  · rw [runTask_spawned he]
    exact ⟨rfl, rfl, rfl⟩
  · rw [hsame]
    exact ⟨rfl, rfl, rfl⟩

def finished (l : Limiter) (c : Clock) (es : List Entry) : List Task :=
  List.zipWith (fun e o => { entry := e, result? := some o.result }) es (outcomes l c es)

/-- The entries of the tasks with these numbers, in this order. -/
def chosen (es : List Entry) (is : List Nat) : List Entry := is.filterMap fun i => es[i]?

/-- A replay of the entries under way: the first of them have their tasks, and the limiter is the
one that the tasks leave which have run, each of them once. -/
structure Follows (l : Limiter) (c : Clock) (es : List Entry) (p : Progress) : Prop where
  entries : p.tasks.map Task.entry ++ (entriesFrom p.number p.unread).1 = es
  decided : ∃ is : List Nat, is.Nodup ∧
    (∀ i ∈ is, ∃ task, p.tasks[i]? = some task ∧ task.result?.isSome) ∧
    p.limiter = (judgeAll l c (chosen es is)).state ∧
    p.clock = c.skip (judgeAll l c (chosen es is)).samples

theorem Follows.spawn {line : List UInt8} {text : String} (h : p.Follows l c es)
    (hunread : p.unread = line :: rest) (hline : Text.decode? line = some text) :
    (p.spawn text rest).Follows l c es := by
  obtain ⟨hentries, is, hnodup, hran, hlimiter, hclock⟩ := h
  refine ⟨?_, is, hnodup, fun i hi => ?_, hlimiter, hclock⟩
  · rw [hunread, entriesFrom, hline] at hentries
    rw [← hentries]
    simp [Progress.spawn, Function.comp_def]
  · obtain ⟨task, htask, hresult⟩ := hran i hi
    obtain ⟨hlength, -⟩ := List.getElem?_eq_some_iff.1 htask
    exact ⟨task, (List.getElem?_append_left hlength).trans htask, hresult⟩

theorem Follows.join (h : p.Follows l c es) : p.join.Follows l c es := by
  obtain ⟨hentries, hdecided⟩ := h
  unfold Progress.join
  split <;> exact ⟨hentries, hdecided⟩

theorem Follows.read (h : p.Follows l c es) : p.read.Follows l c es := by
  unfold Progress.read
  split
  · split
    · exact h.join
    · exact h
  · rename_i hunread
    split
    · exact ⟨h.entries, h.decided⟩
    · rename_i hline
      exact h.spawn hunread hline

theorem Follows.getElem? {i : Nat} {task : Task} (h : p.Follows l c es)
    (htask : p.tasks[i]? = some task) : es[i]? = some task.entry := by
  obtain ⟨hlength, -⟩ := List.getElem?_eq_some_iff.1 htask
  rw [← h.entries, List.getElem?_append_left (by simpa using hlength), List.getElem?_map, htask]
  rfl

theorem Follows.runTask (h : p.Follows l c es) (i : Nat) : (p.runTask i).Follows l c es := by
  rcases runTask_cases p i with ⟨e, he⟩ | hsame
  · have hentry : es[i]? = some e := h.getElem? he
    obtain ⟨hentries, is, hnodup, hran, hlimiter, hclock⟩ := h
    rw [runTask_spawned he]
    obtain ⟨hlength, -⟩ := List.getElem?_eq_some_iff.1 he
    -- The task is the last one to run, and it has not run before.
    have hnew : i ∉ is := by
      intro hi
      obtain ⟨task, htask, hresult⟩ := hran i hi
      rw [he] at htask
      cases htask
      cases hresult
    have hchosen : chosen es (is ++ [i]) = chosen es is ++ [e] := by
      simp [chosen, List.filterMap_append, hentry]
    obtain ⟨hstate, hsamples⟩ := judgeAll_concat l c (chosen es is) e
    refine ⟨map_entry_set he ▸ hentries, is ++ [i], List.nodup_append.2 ⟨hnodup, by simp, ?_⟩,
      fun j hj => ?_, ?_, ?_⟩
    · rintro j hj k hk rfl
      exact hnew (List.mem_singleton.1 hk ▸ hj)
    · by_cases hji : j = i
      · subst hji
        exact ⟨_, List.getElem?_set_self hlength, rfl⟩
      · rcases List.mem_append.1 hj with hj | hj
        · rw [List.getElem?_set_ne (Ne.symm hji)]
          exact hran j hj
        · exact absurd (List.mem_singleton.1 hj) hji
    · rw [hchosen, hstate, ← hlimiter, ← hclock]
    · rw [hchosen, hsamples, ← Clock.skip_skip, ← hlimiter, ← hclock]
  · rw [hsame]
    exact h

theorem Follows.play (h : p.Follows l c es) (turns : List Turn) :
    (p.play turns).Follows l c es := by
  induction turns generalizing p with
  | nil => exact h
  | cons turn turns ih =>
    refine ih ?_
    cases turn with
    | pause => exact ⟨h.entries, h.decided⟩
    | task i => exact h.runTask i
    | read =>
      rw [take]
      split
      · exact h
      · exact h.read

end Progress
end Throttle.Replay
