/-!
# Integers of 64 bits as text

Digits in a base, and signs. A number outside the range of 64 bits is no number.
-/

namespace Throttle

def maxInt64 : Int := 9223372036854775807
def minInt64 : Int := -9223372036854775808

def inInt64 (n : Int) : Bool := minInt64 ≤ n && n ≤ maxInt64

def digitValue? (base : Nat) (c : Char) : Option Nat :=
  let value :=
    if '0' ≤ c ∧ c ≤ '9' then c.toNat - 48
    else if 'a' ≤ c ∧ c ≤ 'z' then c.toNat - 87
    else if 'A' ≤ c ∧ c ≤ 'Z' then c.toNat - 55
    else base
  if value < base then some value else none

def natFrom (base : Nat) : Nat → List Char → Option Nat
  | acc, [] => some acc
  | acc, c :: rest => (digitValue? base c).bind fun d => natFrom base (acc * base + d) rest

def natOf? (base : Nat) (s : List Char) : Option Nat :=
  if s = [] then none else natFrom base 0 s

def int64? (n : Int) : Option Int := if inInt64 n then some n else none

def int64Of? (base : Nat) (s : List Char) : Option Int :=
  match s with
  | '-' :: digits => (natOf? base digits).bind fun n => int64? (-n)
  | '+' :: digits => (natOf? base digits).bind fun n => int64? n
  | digits => (natOf? base digits).bind fun n => int64? n

end Throttle
