/-!
# Blank characters and words

The characters of the White_Space property, the words that they separate, and a
text without them at its ends.
-/

namespace Throttle.Text

def isBlank (c : Char) : Bool :=
  let n := c.toNat
  (0x09 ≤ n && n ≤ 0x0d) || n == 0x20 || n == 0x85 || n == 0xa0 || n == 0x1680 ||
    (0x2000 ≤ n && n ≤ 0x200a) || n == 0x2028 || n == 0x2029 || n == 0x202f ||
    n == 0x205f || n == 0x3000

/-- The pieces between the characters that `p` picks, one more than there are of
them. -/
def splitAt (p : Char → Bool) : List Char → List (List Char) :=
  List.foldr
    (fun c pieces =>
      if p c then [] :: pieces
      else match pieces with
        | [] => [[c]]
        | piece :: rest => (c :: piece) :: rest)
    [[]]

theorem splitAt_nil (p : Char → Bool) : splitAt p [] = [[]] := rfl

theorem splitAt_cons_pos {p : Char → Bool} {c : Char} (h : p c) (s : List Char) :
    splitAt p (c :: s) = [] :: splitAt p s := by
  simp [splitAt, h]

theorem splitAt_cons_neg {p : Char → Bool} {c : Char} (h : ¬ p c) (s : List Char) :
    splitAt p (c :: s) = match splitAt p s with
      | [] => [[c]]
      | piece :: rest => (c :: piece) :: rest := by
  rw [splitAt, List.foldr_cons, if_neg h]

def words (s : List Char) : List (List Char) :=
  (splitAt isBlank s).filter (fun piece => !piece.isEmpty)

def trim (s : List Char) : List Char :=
  ((s.dropWhile isBlank).reverse.dropWhile isBlank).reverse

end Throttle.Text
