import Throttle.Outcome

/-!
# Queues of attempts

A queue holds the instants of recorded attempts, the oldest first, in strictly
ascending order. Entries expire from the front. A new entry takes the current
instant, or the first instant after the newest entry when the clock has not moved
past it; a clock that stands exactly at the far end of the tolerance is read once
more instead.
-/

namespace Throttle

abbrev Queue := List Instant

namespace Queue

def Ascending (q : Queue) : Prop := q.Pairwise (· < ·)

instance (q : Queue) : Decidable q.Ascending := inferInstanceAs (Decidable (q.Pairwise (· < ·)))

/-- Entries before this instant have left the window that ends now. A cutoff that
is no instant expires nothing. -/
def cutoff? (now : Instant) (window : Span) : Option Instant :=
  (now.before? window).bind (·.after? .tolerance)

theorem cutoff?_ns {now cutoff : Instant} {window : Span} (h : cutoff? now window = some cutoff) :
    cutoff.ns = now.ns - window.ns + 1000 := by
  obtain ⟨start, hs, hc⟩ := Option.bind_eq_some_iff.1 h
  rw [Instant.before?_eq_some_iff] at hs
  rw [Instant.after?_eq_some_iff] at hc
  rw [hc, hs]
  rfl

def expire (now : Instant) (window : Span) (q : Queue) : Queue :=
  match cutoff? now window with
  | some cutoff => q.dropWhile (· < cutoff)
  | none => q

theorem expire_suffix (now : Instant) (window : Span) (q : Queue) :
    expire now window q <:+ q := by
  unfold expire
  split
  · exact List.dropWhile_suffix _
  · exact List.suffix_rfl

theorem Ascending.expire {q : Queue} (h : q.Ascending) (now : Instant) (window : Span) :
    (q.expire now window).Ascending :=
  h.sublist (expire_suffix now window q).sublist

theorem expire_nil (now : Instant) (window : Span) : expire now window [] = [] := by
  unfold expire
  split <;> rfl

inductive Slot
  | free (stamp : Instant)
  | taken (newest : Instant)
  | pastLatest
  deriving DecidableEq

def nudge (newest : Instant) : Nat → Instant → Slot
  | 0, candidate => if candidate ≤ newest then .taken newest else .free candidate
  | n + 1, candidate =>
    if candidate ≤ newest then
      match candidate.next? with
      | some candidate => nudge newest n candidate
      | none => .pastLatest
    else .free candidate

/-- Nudging carries the newest entry no further than the tolerance past the clock,
so a newest entry beyond it means that the clock was set back. -/
def slot (q : Queue) (now : Instant) : Slot :=
  match q.getLast? with
  | none => .free now
  | some newest =>
    if newest.since now > .tolerance then
      match newest.next? with
      | some stamp => .free stamp
      | none => .pastLatest
    else nudge newest Span.nudgeLimit now

def append (q : Queue) (now later : Instant) : Outcome Queue (Option Instant) :=
  match q.slot now with
  | .free stamp => { result := .ok (some stamp), state := q ++ [stamp] }
  | .taken newest =>
    if newest < later then { result := .ok (some later), state := q ++ [later], samples := 1 }
    else { result := .ok none, state := q, samples := 1 }
  | .pastLatest => { result := .error .pastLatest, state := q }

def offer (q : Queue) (limit : Nat) (window : Span) (now later : Instant) :
    Outcome Queue Admission :=
  let kept := q.expire now window
  if limit ≤ kept.length then { result := .ok (.refused .full), state := kept }
  else (kept.append now later).map fun
    | some stamp => .recorded stamp
    | none => .refused .crowded

/-- When the next attempt is expected to be recorded. Nothing expires here, so a
queue that went stale still answers from its oldest entry. -/
def forecast (q : Queue) (limit : Nat) (window : Span) (now : Instant) : Instant :=
  if q.length < limit then now
  else match q.head? with
    | some oldest => oldest.afterOrLatest window
    | none => now

theorem slot_nil (now : Instant) : slot [] now = .free now := rfl

end Queue
end Throttle
