/-
# What a plain scalar means

A scalar without quotes is a null, a truth value, a number or else a text:

| text | meaning |
| --- | --- |
| nothing, `null`, `Null`, `NULL`, `~` | null |
| `true`, `True`, `TRUE`, `false`, `False`, `FALSE` | truth value |
| digits, with a sign or none; also behind `0x`, `0o`, `0b` | whole number |
| `.inf`, `.nan` in three spellings each, or a number with point or exponent | number |

Digits behind a needless zero are a text. A whole number that no word of 64 bits holds is
`huge` as long as 128 bits hold it, and a number with a point beyond that; so is a number
whose value is not finite a text.
-/

import ClusterSync.Decimal.Shortest
import ClusterSync.Yaml.ScalarText

namespace ClusterSync
namespace Yaml

/-- What a scalar means. -/
inductive Atom
  | null
  | bool (b : Bool)
  /-- A whole number of at most 64 bits, signed or not. -/
  | int (i : Int)
  /-- A whole number of more than 64 bits. -/
  | huge
  | float (x : Binary64)
  | text (s : String)
deriving DecidableEq

/-- Is it a null other than the empty text? -/
def isNullWord (s : String) : Bool := s == "null" || s == "Null" || s == "NULL" || s == "~"

/-- The truth value of a word. -/
def boolWord? (s : String) : Option Bool :=
  if s == "true" || s == "True" || s == "TRUE" then some true
  else if s == "false" || s == "False" || s == "FALSE" then some false
  else none

/-- The number that digits of a base make up; there has to be one at least. -/
def readDigits? (base : Nat) (cs : List Char) : Option Nat :=
  if cs.isEmpty then none
  else cs.foldl (fun n c =>
    match n, hexDigit? c with
    | some n, some d => if d < base then some (base * n + d) else none
    | _, _ => none) (some 0)

/-- The number behind `0x`, `0o` or `0b`. -/
def readBased? : List Char → Option Nat
  | '0' :: 'x' :: rest => readDigits? 16 rest
  | '0' :: 'o' :: rest => readDigits? 8 rest
  | '0' :: 'b' :: rest => readDigits? 2 rest
  | _ => none

/-- A text without the sign in front. -/
def dropSign : List Char → List Char
  | '+' :: rest => rest
  | '-' :: rest => rest
  | cs => cs

/-- Digits behind a needless zero. -/
def isPaddedNumber (cs : List Char) : Bool :=
  match dropSign cs with
  | '0' :: d :: rest => (d :: rest).all (·.isDigit)
  | _ => false

/-- The whole number that a text stands for. -/
def readInt? (cs : List Char) : Option Int :=
  let (negative, body) : Bool × List Char :=
    match cs with
    | '-' :: rest => (true, rest)
    | '+' :: rest => (false, rest)
    | cs => (false, cs)
  let found :=
    match readBased? body with
    | some n => some n
    | none => if isPaddedNumber cs then none else readDigits? 10 body
  found.map fun n => if negative then -(n : Int) else n

/-- The whole number as an atom, if 128 bits hold it. -/
def intAtom? (i : Int) : Option Atom :=
  if -0x8000000000000000 ≤ i ∧ i < 0x10000000000000000 then some (.int i)
  else if -0x80000000000000000000000000000000 ≤ i ∧
      i < 0x100000000000000000000000000000000 then some .huge
  else none

/-- Cuts digits, point and digits: the digits and how many of them stand behind the point. -/
def readMantissa? (cs : List Char) : Option (List Char × Nat) :=
  let whole := cs.takeWhile (·.isDigit)
  match cs.dropWhile (·.isDigit) with
  | [] => if whole.isEmpty then none else some (whole, 0)
  | '.' :: part =>
    if part.all (·.isDigit) && !(whole.isEmpty && part.isEmpty) then
      some (whole ++ part, part.length)
    else none
  | _ => none

/-- The exponent behind `e`: digits with a sign or none. -/
def readExponent? (cs : List Char) : Option Int :=
  (readDigits? 10 (dropSign cs)).map fun n => if cs.head? = some '-' then -(n : Int) else n

/-- The finite number that digits with a point and an exponent stand for. -/
def readDecimal? (negative : Bool) (cs : List Char) : Option Binary64 :=
  let isE (c : Char) : Bool := c == 'e' || c == 'E'
  let exponent? : Option Int :=
    match cs.dropWhile (!isE ·) with
    | [] => some 0
    | _ :: rest => readExponent? rest
  match readMantissa? (cs.takeWhile (!isE ·)), exponent? with
  | some (digits, places), some exponent =>
    match readDigits? 10 digits with
    | some n => some (.ofDecimal negative n (exponent - places))
    | none => none
  | _, _ => none

/-- The number that a text with a point or an exponent stands for. -/
def readFloat? (s : String) : Option Binary64 :=
  let infinite (s : String) : Bool := s == ".inf" || s == ".Inf" || s == ".INF"
  if s == ".nan" || s == ".NaN" || s == ".NAN" then some .nan
  else
    match s.toList with
    | '-' :: rest =>
      if infinite (String.ofList rest) then some .negInfinity
      else (readDecimal? true rest).filter (·.isFinite)
    | '+' :: rest =>
      if infinite (String.ofList rest) then some .infinity
      else (readDecimal? false rest).filter (·.isFinite)
    | rest =>
      if infinite s then some .infinity else (readDecimal? false rest).filter (·.isFinite)

/-- What a scalar without quotes means. -/
def Atom.ofPlain (s : String) : Atom :=
  if s.isEmpty || isNullWord s then .null
  else
    match boolWord? s with
    | some b => .bool b
    | none =>
      match (readInt? s.toList).bind intAtom? with
      | some a => a
      | none =>
        if isPaddedNumber s.toList then .text s
        else
          match readFloat? s with
          | some x => .float x
          | none => .text s

/-- The tag that all documents share, for a kind of scalar. -/
def coreTag (kind : String) : String := "tag:yaml.org,2002:" ++ kind

/-- Is it a tag of the document's own? -/
def isLocalTag (tag : String) : Bool := tag.startsWith "!"

/-- What a scalar means. A tag that all documents share asks for its kind; other tags of
that sort leave a text. With a tag of the document's own, or a text that does not
fit the kind, it means nothing. -/
def Atom.ofScalar? (tag : Option String) (style : Style) (text : String) : Option Atom :=
  match tag with
  | none => some (if style = .plain then .ofPlain text else .text text)
  | some tag =>
    if isLocalTag tag then none
    else if tag = coreTag "bool" then (boolWord? text).map .bool
    else if tag = coreTag "int" then (readInt? text.toList).bind intAtom?
    else if tag = coreTag "float" then (readFloat? text).map .float
    else if tag = coreTag "null" then if isNullWord text then some .null else none
    else some (.text text)

end Yaml
end ClusterSync
