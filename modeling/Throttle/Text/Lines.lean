/-!
# Lines of a byte stream

A line ends with a line feed, and a carriage return before it belongs to the end.
The last line needs no end, and an empty rest is not a line. Each line is read as
UTF-8 on its own.
-/

namespace Throttle.Text

def pieces : List UInt8 → List (List UInt8) :=
  List.foldr
    (fun b rest =>
      if b = 10 then [b] :: rest
      else match rest with
        | [] => [[b]]
        | piece :: rest => (b :: piece) :: rest)
    []

def chomp (piece : List UInt8) : List UInt8 :=
  match piece.reverse with
  | 10 :: 13 :: rest => rest.reverse
  | 10 :: rest => rest.reverse
  | _ => piece

def lines (bytes : List UInt8) : List (List UInt8) := (pieces bytes).map chomp

def decode? (line : List UInt8) : Option String := String.fromUTF8? ⟨line.toArray⟩

def encode (s : String) : List UInt8 := s.toUTF8.toList

theorem pieces_newline (bytes : List UInt8) : pieces (10 :: bytes) = [10] :: pieces bytes := rfl

theorem pieces_ne_nil {bytes : List UInt8} (h : bytes ≠ []) : pieces bytes ≠ [] := by
  cases bytes with
  | nil => exact absurd rfl h
  | cons b bytes =>
    simp only [pieces, List.foldr_cons]
    split
    · simp
    · split <;> simp

end Throttle.Text
