/-
# Binary64 numbers

A number is kept as its 64 bits: one for the sign, eleven for the exponent, fifty-two
for the fraction.

| exponent bits `e` | fraction `f` | value |
| --- | --- | --- |
| `0` | any | `f · 2^-1074` |
| `1` … `2046` | any | `(2^52 + f) · 2^(e - 1075)` |
| `2047` | `0` | infinite |
| `2047` | not `0` | not a number |

The magnitudes of one sign are ordered as their bits are, so the number nearest to
a fraction is found by rounding on the grid of its exponent: a significand that
rounds up to `2^53` carries into the exponent, and one past the greatest number is
the infinite one.
-/

namespace ClusterSync

/-- A number of IEEE 754 binary64, given by its bits. -/
structure Binary64 where
  bits : UInt64
deriving DecidableEq

namespace Binary64

/-- Is the sign bit set? -/
def isNegative (x : Binary64) : Bool := 0x8000000000000000 ≤ x.bits.toNat

/-- The bits below the sign. -/
def magnitudeBits (x : Binary64) : Nat := x.bits.toNat % 0x8000000000000000

/-- The bits of the infinite magnitude. -/
def infiniteBits : Nat := 2047 * 0x10000000000000

/-- Is it not a number? -/
def isNaN (x : Binary64) : Bool := infiniteBits < x.magnitudeBits

/-- Is it one of the two infinite numbers? -/
def isInfinite (x : Binary64) : Bool := x.magnitudeBits == infiniteBits

/-- Is it one of the two zeros? -/
def isZero (x : Binary64) : Bool := x.magnitudeBits == 0

/-- Is it an ordinary number? -/
def isFinite (x : Binary64) : Bool := x.magnitudeBits < infiniteBits

/-- The significand of a finite number. -/
def significand (x : Binary64) : Nat :=
  let f := x.magnitudeBits % 0x10000000000000
  if x.magnitudeBits < 0x10000000000000 then f else 0x10000000000000 + f

/-- The power of two that the significand counts. -/
def exponent (x : Binary64) : Int :=
  if x.magnitudeBits < 0x10000000000000 then -1074
  else (x.magnitudeBits / 0x10000000000000 : Nat) - 1075

/-- The number with a sign and a magnitude. -/
def ofMagnitude (negative : Bool) (magnitude : Nat) : Binary64 :=
  ⟨UInt64.ofNat (if negative then 0x8000000000000000 + magnitude else magnitude)⟩

/-- The positive infinite number. -/
def infinity : Binary64 := ofMagnitude false infiniteBits

/-- The negative infinite number. -/
def negInfinity : Binary64 := ofMagnitude true infiniteBits

/-- The value that stands for all that are not numbers. -/
def nan : Binary64 := ofMagnitude false (infiniteBits + 0x8000000000000)

/-- A quotient rounded to the nearest whole number, a half to the even one. -/
def roundHalfEven (num den : Nat) : Nat :=
  let q := num / den
  let r := num % den
  if 2 * r < den then q else if den < 2 * r then q + 1 else q + q % 2

/-- Is `den · 2^e` at most `num`? -/
def powerAtMost (num den : Nat) (e : Int) : Bool :=
  if 0 ≤ e then den * Nat.pow 2 e.toNat ≤ num else den ≤ num * Nat.pow 2 (-e).toNat

/-- The whole part of the logarithm to base two of a positive fraction. -/
def floorLog2 (num den : Nat) : Int :=
  let e : Int := (num.log2 : Int) - den.log2
  if powerAtMost num den e then e else e - 1

/-- The magnitude nearest to a fraction, a tie going to the even significand. -/
def nearest (num den : Nat) : Nat :=
  if num = 0 then 0
  else
    let q : Int := max (-1074) (floorLog2 num den - 52)
    let m :=
      if 0 ≤ q then roundHalfEven num (den * Nat.pow 2 q.toNat)
      else roundHalfEven (num * Nat.pow 2 (-q).toNat) den
    min infiniteBits ((q + 1074).toNat * 0x10000000000000 + m)

/-- How many decimal digits a number has; one for zero. -/
def decimalLength (n : Nat) : Nat :=
  if n < 10 then 1 else decimalLength (n / 10) + 1

/-- The number nearest to `digits · 10^exp`. Beyond the thousandth power on either
side the answer is known without computing it. -/
def ofDecimal (negative : Bool) (digits : Nat) (exp : Int) : Binary64 :=
  let top : Int := decimalLength digits + exp
  ofMagnitude negative <|
    if digits = 0 ∨ top < -1000 then 0
    else if 1000 < top then infiniteBits
    else if 0 ≤ exp then nearest (digits * Nat.pow 10 exp.toNat) 1
    else nearest digits (Nat.pow 10 (-exp).toNat)

end Binary64
end ClusterSync
