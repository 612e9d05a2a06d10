import Mathlib.Data.List.Basic
import Throttle.Identity

/-!
# Places of identities

The place of an identity is its kind and its key in the log of that kind. Identities
at one place are the same if their owners hold equally many separators, so those whose
owners are free of the separator have places of their own.
-/

namespace Throttle.Identity

def place (i : Identity) : IdentityKind × String := (i.kind, i.logKey)

/-- The owner of an endpoint does not contain the separator. -/
def Plain : Identity → Prop
  | endpoint owner _ => separator ∉ owner.toList
  | ip _ | user _ => True

instance : DecidablePred Plain
  | endpoint owner _ => inferInstanceAs (Decidable (separator ∉ owner.toList))
  | ip _ | user _ => inferInstanceAs (Decidable True)

def ownerSeparators : Identity → Nat
  | endpoint owner _ => owner.toList.count separator
  | ip _ | user _ => 0

theorem plain_iff {i : Identity} : i.Plain ↔ i.ownerSeparators = 0 := by
  cases i with
  | ip address => simp [Plain, ownerSeparators]
  | user token => simp [Plain, ownerSeparators]
  | endpoint owner path => exact List.count_eq_zero.symm

theorem toList_logKey_endpoint (owner path : String) :
    (endpoint owner path).logKey.toList = owner.toList ++ separator :: path.toList := by
  simp [logKey, String.toList_append]

theorem append_separator_inj {a b c d : List Char} (hn : a.count separator = b.count separator)
    (h : a ++ separator :: c = b ++ separator :: d) : a = b ∧ c = d := by
  rcases List.append_eq_append_iff.1 h with ⟨e, rfl, he⟩ | ⟨e, rfl, he⟩
  · cases e with
    | nil => simpa using he
    | cons x e =>
      obtain ⟨rfl, -⟩ := List.cons.inj he
      simp at hn
  · cases e with
    | nil => simpa using he.symm
    | cons x e =>
      obtain ⟨rfl, -⟩ := List.cons.inj he
      simp at hn

theorem eq_of_place {i j : Identity} (hn : i.ownerSeparators = j.ownerSeparators)
    (h : i.place = j.place) : i = j := by
  obtain ⟨hk, hl⟩ := Prod.mk.inj h
  cases i with
  | ip a =>
    cases j with
    | ip b => rw [show a = b from hl]
    | _ => cases hk
  | user a =>
    cases j with
    | user b => rw [show a = b from hl]
    | _ => cases hk
  | endpoint owner path =>
    cases j with
    | endpoint other route =>
      have ht := congrArg String.toList hl
      rw [toList_logKey_endpoint, toList_logKey_endpoint] at ht
      obtain ⟨ho, hp⟩ := append_separator_inj hn ht
      rw [String.toList_injective ho, String.toList_injective hp]
    | _ => cases hk

theorem place_injective {i j : Identity} (hi : i.Plain) (hj : j.Plain)
    (h : i.place = j.place) : i = j := by
  apply eq_of_place _ h
  rw [plain_iff.1 hi, plain_iff.1 hj]

end Throttle.Identity
