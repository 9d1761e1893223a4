import Mathlib.Algebra.Group.Int.Defs
import Mathlib.Algebra.Group.Nat.Defs
import Mathlib.Tactic.Common

/-! Single-precision numbers as their 32-bit patterns, with the conversions a program
makes between them and 32-bit integers, and from doubles. Conversion from an integer
or a double rounds to nearest, ties to even. Conversion to an integer truncates and
is undefined outside the integer range. -/

namespace Ssuge

structure Binary32 where
  bits : UInt32
deriving DecidableEq, Repr

namespace Binary32

def negative (x : Binary32) : Bool := 2 ^ 31 ≤ x.bits.toNat
def exponent (x : Binary32) : Nat := x.bits.toNat / 2 ^ 23 % 2 ^ 8
def fraction (x : Binary32) : Nat := x.bits.toNat % 2 ^ 23

/-- `0.0 < x`; no NaN is. -/
def positive (x : Binary32) : Bool := 0 < x.bits.toNat ∧ x.bits.toNat ≤ 0xFF * 2 ^ 23

/-- `x < 1`; no NaN is. -/
def belowOne (x : Binary32) : Bool :=
  x.bits.toNat < 127 * 2 ^ 23 ∨ (2 ^ 31 ≤ x.bits.toNat ∧ x.bits.toNat ≤ 2 ^ 31 + 0xFF * 2 ^ 23)

/-- The integer part of the absolute value; none for infinities and NaNs. -/
def magnitude (x : Binary32) : Option Nat :=
  if x.exponent = 255 then none
  else if x.exponent = 0 then some 0
  else
    let significand := x.fraction + 2 ^ 23
    if 150 ≤ x.exponent then some (significand * 2 ^ (x.exponent - 150))
    else some (significand / 2 ^ (150 - x.exponent))

/-- `(int) x` -/
def toInt (x : Binary32) : Option Int32 := do
  let n ← x.magnitude
  let z : Int := if x.negative then -n else n
  if -2 ^ 31 ≤ z ∧ z < 2 ^ 31 then some (Int32.ofInt z) else none

/-- `x - (int) x == 0.0f`, when the conversion is defined. -/
def isInteger (x : Binary32) : Bool :=
  if x.exponent = 0 then x.fraction = 0
  else 150 ≤ x.exponent || (x.fraction + 2 ^ 23) % 2 ^ (150 - x.exponent) = 0

/-- The pattern of the number nearest to `n`. A significand that rounds up to
`2 ^ 24` carries into the exponent field. -/
def encodeNat (n : Nat) : Nat :=
  if n = 0 then 0
  else
    let e := n.log2
    if e ≤ 23 then (e + 126) * 2 ^ 23 + n * 2 ^ (23 - e)
    else
      let unit := 2 ^ (e - 23)
      let low := n / unit
      let rest := n % unit
      let significand :=
        if unit < 2 * rest ∨ (2 * rest = unit ∧ low % 2 = 1) then low + 1 else low
      (e + 126) * 2 ^ 23 + significand

/-- `(float) i` -/
def ofInt (i : Int32) : Binary32 :=
  let sign := if i.toInt < 0 then 2 ^ 31 else 0
  ⟨UInt32.ofNat (sign + encodeNat i.toInt.natAbs)⟩

/-- `s / 2 ^ k` rounded to the nearest integer. -/
def roundShift (s k : Nat) : Nat :=
  let low := s / 2 ^ k
  let rest := s % 2 ^ k
  if 2 ^ k < 2 * rest ∨ (2 * rest = 2 ^ k ∧ low % 2 = 1) then low + 1 else low

/-- `(float) d`, from the 64 bits of a double. What is too large becomes infinite and a
NaN keeps the leading bits of its payload. -/
def ofDouble (d : UInt64) : Binary32 :=
  let exponent := d.toNat / 2 ^ 52 % 2 ^ 11
  let fraction := d.toNat % 2 ^ 52
  let infinite := 0xFF * 2 ^ 23
  let magnitude :=
    if exponent = 0x7FF then
      if fraction = 0 then infinite else infinite + 2 ^ 22 + fraction / 2 ^ 29 % 2 ^ 22
    else if 896 < exponent then
      min infinite ((exponent - 897) * 2 ^ 23 + roundShift (2 ^ 52 + fraction) 29)
    else if exponent = 0 then roundShift fraction 925
    else roundShift (2 ^ 52 + fraction) (926 - exponent)
  ⟨UInt32.ofNat (d.toNat / 2 ^ 63 * 2 ^ 31 + magnitude)⟩

example : ofInt (-3) = ⟨0xC0400000⟩ := by decide
example : ofInt 16777217 = ⟨0x4B800000⟩ := by decide
example : toInt ⟨0xC0600000⟩ = some (-3) := by decide
example : ofDouble 0x3FB999999999999A = ⟨0x3DCCCCCD⟩ := by decide
example : ofDouble 0xC7EFFFFFF0000000 = ⟨0xFF800000⟩ := by decide
example : isInteger ⟨0xC0600000⟩ = false ∧ isInteger (ofInt (-3)) := by decide

end Binary32

end Ssuge
