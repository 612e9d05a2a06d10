import Throttle.Number.Int64

/-!
# Floating-point numbers

Numbers with a significand of 53 bits, as exact integers: a finite number is a
significand times a power of two. Reading a decimal rounds to the nearest number and
a tie to the even significand. Writing one takes the fewest digits that read back as
the same number, and of those the nearest.
-/

namespace Throttle

inductive Binary64
  | nan
  | infinite (negative : Bool)
  | finite (negative : Bool) (significand : Nat) (exponent : Int)
  deriving DecidableEq, Repr

namespace Binary64

def zero (negative : Bool) : Binary64 := .finite negative 0 0

def bits : Nat := 53
def minExponent : Int := -1074
def maxExponent : Int := 971

def roundHalfEven (num den : Nat) : Nat :=
  let q := num / den
  let r := num % den
  if 2 * r < den then q
  else if den < 2 * r then q + 1
  else if q % 2 = 0 then q else q + 1

def scaled (num den : Nat) (exponent : Int) : Nat × Nat :=
  if 0 ≤ exponent then (num, den * Nat.pow 2 exponent.toNat)
  else (num * Nat.pow 2 (-exponent).toNat, den)

def fitExponent (num den : Nat) : Nat → Int → Int
  | 0, exponent => exponent
  | n + 1, exponent =>
    let (a, b) := scaled num den exponent
    if a / b < Nat.pow 2 bits then exponent else fitExponent num den n (exponent + 1)

def ofQuotient (negative : Bool) (num den : Nat) : Binary64 :=
  let guess := (Nat.log2 num : Int) - Nat.log2 den - 54
  let exponent := fitExponent num den 4 (max guess minExponent)
  let (a, b) := scaled num den exponent
  let m := roundHalfEven a b
  let (m, exponent) := if m = Nat.pow 2 bits then (Nat.pow 2 (bits - 1), exponent + 1) else (m, exponent)
  if m = 0 then zero negative
  else if maxExponent < exponent then .infinite negative
  else .finite negative m exponent

def ofDecimal (negative : Bool) (digits : Nat) (exponent : Int) : Binary64 :=
  let size : Int := (Nat.toDigits 10 digits).length + exponent
  if digits = 0 || size < -400 then zero negative
  else if 400 < size then .infinite negative
  else if 0 ≤ exponent then ofQuotient negative (digits * Nat.pow 10 exponent.toNat) 1
  else ofQuotient negative digits (Nat.pow 10 (-exponent).toNat)

structure DecimalText where
  digits : Nat
  exponent : Int

def exponentOf? : List Char → Option Int
  | '-' :: s => (natOf? 10 s).map fun n => -(n : Int)
  | '+' :: s => (natOf? 10 s).map Int.ofNat
  | s => (natOf? 10 s).map Int.ofNat

def decimalText? (s : List Char) : Option DecimalText := do
  let whole := s.takeWhile Char.isDigit
  let rest := s.drop whole.length
  let (fraction, rest) := match rest with
    | '.' :: rest => (rest.takeWhile Char.isDigit, rest.dropWhile Char.isDigit)
    | _ => ([], rest)
  let digits ← natOf? 10 (whole ++ fraction)
  let exponent ← match rest with
    | [] => some 0
    | c :: rest => if c == 'e' || c == 'E' then exponentOf? rest else none
  return ⟨digits, exponent - fraction.length⟩

def unsignedOf? (negative : Bool) (s : List Char) : Option Binary64 :=
  let name := String.ofList (s.map Char.toLower)
  if name = "inf" ∨ name = "infinity" then some (.infinite negative)
  else if name = "nan" then some .nan
  else (decimalText? s).map fun d => ofDecimal negative d.digits d.exponent

def ofText? (s : List Char) : Option Binary64 :=
  match s with
  | '-' :: rest => unsignedOf? true rest
  | '+' :: rest => unsignedOf? false rest
  | _ => unsignedOf? false s

def isZero : Binary64 → Bool
  | finite _ m _ => m = 0
  | _ => false

/-- The nearest integer of 64 bits, a half going away from zero. Numbers beyond the
range go to its ends, and what is no number to zero. -/
def toInt64 : Binary64 → Int
  | nan => 0
  | infinite negative => if negative then minInt64 else maxInt64
  | finite negative m exponent =>
    let magnitude : Nat :=
      if 0 ≤ exponent then m * Nat.pow 2 exponent.toNat
      else
        let unit := Nat.pow 2 (-exponent).toNat
        (2 * m + unit) / (2 * unit)
    let n : Int := if negative then -(magnitude : Int) else magnitude
    max minInt64 (min maxInt64 n)

def stepsToOne (num den : Nat) : Nat → Nat → Nat
  | 0, steps => steps
  | n + 1, steps => if den ≤ num then steps else stepsToOne (num * 10) den n (steps + 1)

def leadingPower (num den : Nat) : Int :=
  if den ≤ num then (Nat.toDigits 10 (num / den)).length - 1
  else -(stepsToOne num den 400 0 : Int)

def onGrid (num den : Nat) (power : Int) : Nat × Nat × Nat :=
  let (a, b) :=
    if 0 ≤ power then (num, den * Nat.pow 10 power.toNat)
    else (num * Nat.pow 10 (-power).toNat, den)
  (a / b, a % b, b)

def readingBack (m : Nat) (exponent : Int) (num den : Nat) (power : Int) : Option DecimalText :=
  let (q, r, b) := onGrid num den power
  let hit (d : Nat) : Bool := ofDecimal false d power == .finite false m exponent
  if hit q && (2 * r < b || !hit (q + 1)) then some ⟨q, power⟩
  else if hit (q + 1) then some ⟨q + 1, power⟩
  else none

def shortest (m : Nat) (exponent : Int) : DecimalText :=
  let (num, den) :=
    if 0 ≤ exponent then (m * Nat.pow 2 exponent.toNat, 1)
    else (m, Nat.pow 2 (-exponent).toNat)
  let top := leadingPower num den
  ((List.range 18).findSome? fun (n : Nat) => readingBack m exponent num den (top + 1 - n)).getD
    ⟨m, exponent⟩

def positional (d : DecimalText) : List Char :=
  let digits := Nat.toDigits 10 d.digits
  if 0 ≤ d.exponent then digits ++ List.replicate d.exponent.toNat '0'
  else
    let places := (-d.exponent).toNat
    let digits := List.replicate (places + 1 - digits.length) '0' ++ digits
    digits.take (digits.length - places) ++ '.' :: digits.drop (digits.length - places)

def text : Binary64 → String
  | nan => "NaN"
  | infinite negative => if negative then "-inf" else "inf"
  | finite negative m exponent =>
    let magnitude := if m = 0 then ['0'] else positional (shortest m exponent)
    String.ofList (if negative then '-' :: magnitude else magnitude)

end Binary64
end Throttle
