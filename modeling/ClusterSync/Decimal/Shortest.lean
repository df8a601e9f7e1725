/-
# The fewest digits that read back

Among the decimal numbers that round to a given binary64 number, the shortest is
the one with the fewest digits, and of those the nearest to it.

The numbers that round to `m · 2^q` fill an interval from half a step below to half a
step above, where the step below a power of two is half as long. The ends belong to it
when `m` is even. On the grid of `n` digits it is enough to look at the two neighbours
of the number itself: if any point of the grid lies in the interval, one of them does.
Seventeen digits are always enough.
-/

import ClusterSync.Decimal.Binary64

namespace ClusterSync

/-- The number `digits · 10^exp`. -/
structure Decimal where
  digits : Nat
  exp : Int
deriving DecidableEq

namespace Decimal

/-- The same number without zeros at the end of its digits. -/
def dropZeros (d : Decimal) : Decimal :=
  if h : d.digits ≠ 0 ∧ d.digits % 10 = 0 then dropZeros ⟨d.digits / 10, d.exp + 1⟩ else d
termination_by d.digits
decreasing_by exact Nat.div_lt_self (Nat.pos_of_ne_zero h.1) (by decide)

/-- The lower end of the numbers that round to `m · 2^q`, in quarters of `2^q`. -/
def lowerEnd (m : Nat) (q : Int) : Nat :=
  if m = 0x10000000000000 ∧ -1074 < q then 4 * m - 1 else 4 * m - 2

/-- The upper end of the numbers that round to `m · 2^q`, in quarters of `2^q`. -/
def upperEnd (m : Nat) : Nat := 4 * m + 2

/-- Does `a` lie between two ends that belong to the interval if `closed`? -/
def between (closed : Bool) (low a high : Nat) : Bool :=
  if closed then low ≤ a && a ≤ high else low < a && a < high

/-- The point of the grid of step `10^k` that rounds to `m · 2^q` and is nearest to it;
of two equally near ones the even one. -/
def onGrid? (m : Nat) (q k : Int) : Option Nat :=
  let num := Nat.pow 2 (q - 2).toNat * Nat.pow 10 (-k).toNat
  let den := Nat.pow 2 (2 - q).toNat * Nat.pow 10 k.toNat
  let inside (d : Nat) : Bool :=
    between (m % 2 == 0) (lowerEnd m q * num) (d * den) (upperEnd m * num)
  let value := 4 * m * num
  let below := value / den
  let above := below + 1
  match inside below, inside above with
  | true, true =>
    let toBelow := value - below * den
    let toAbove := above * den - value
    some (if toBelow < toAbove then below
      else if toAbove < toBelow then above
      else if below % 2 = 0 then below else above)
  | true, false => some below
  | false, true => some above
  | false, false => none

/-- The exponent of ten of the first digit of `m · 2^q`. -/
def leadingExponent (m : Nat) (q : Int) : Int :=
  let scaled := if 0 ≤ q then m * Nat.pow 10 400 * Nat.pow 2 q.toNat
    else m * Nat.pow 10 400 / Nat.pow 2 (-q).toNat
  (Binary64.decimalLength scaled : Int) - 401

/-- The shortest decimal number that rounds to the finite magnitude `m · 2^q`. -/
def shortestOf (m : Nat) (q : Int) : Decimal :=
  if m = 0 then ⟨0, 0⟩
  else
    let lead := leadingExponent m q
    let found := (List.range 17).findSome? fun (n : Nat) =>
      let k := lead - n
      (onGrid? m q k).map fun d => (⟨d, k⟩ : Decimal)
    (found.getD ⟨m, q⟩).dropZeros

/-- The shortest decimal number for the magnitude of a finite number. -/
def shortest (x : Binary64) : Decimal := shortestOf x.significand x.exponent

end Decimal

/-- How numbers are laid out as text. -/
structure NumberLayout where
  /-- Is the number written without an exponent? The argument is how many digits stand
  before the point; it is zero or negative if the first ones are zeros after it. -/
  positional : Int → Bool
  /-- Does a whole number carry a point and a zero? -/
  pointZero : Bool
  nan : String
  infinity : String

namespace NumberLayout

/-- The digits of a decimal number with the point among them. -/
def positionalChars (l : NumberLayout) (digits : List Char) (point : Int) : List Char :=
  let length := digits.length
  if (length : Int) ≤ point then
    digits ++ List.replicate (point.toNat - length) '0' ++ (if l.pointZero then ['.', '0'] else [])
  else if 0 < point then
    digits.take point.toNat ++ '.' :: digits.drop point.toNat
  else
    '0' :: '.' :: List.replicate (-point).toNat '0' ++ digits

/-- The digits of a decimal number with an exponent behind them. -/
def scientificChars (digits : List Char) (point : Int) : List Char :=
  let exp := (toString (point - 1)).toList
  match digits with
  | [] => []
  | [d] => d :: 'e' :: exp
  | d :: rest => d :: '.' :: rest ++ 'e' :: exp

/-- The text of a number. -/
def render (l : NumberLayout) (x : Binary64) : String :=
  if x.isNaN then l.nan
  else
    let sign := if x.isNegative then ['-'] else []
    if x.isInfinite then String.ofList (sign ++ l.infinity.toList)
    else
      let d := Decimal.shortest x
      let digits := Nat.toDigits 10 d.digits
      let point : Int := digits.length + d.exp
      String.ofList (sign ++
        if d.digits = 0 then '0' :: (if l.pointZero then ['.', '0'] else [])
        else if l.positional point then l.positionalChars digits point
        else scientificChars digits point)

end NumberLayout

/-- Numbers in documents: with an exponent from `1e16` on and below `1e-5`. -/
def NumberLayout.document : NumberLayout where
  positional point := -5 < point && point ≤ 16
  pointZero := true
  nan := ".nan"
  infinity := ".inf"

/-- Numbers on display: never with an exponent, whole ones without a point. -/
def NumberLayout.display : NumberLayout where
  positional _ := true
  pointZero := false
  nan := "NaN"
  infinity := "inf"

end ClusterSync
