/-
# Percent coding and query addresses

An expression travels in the query part of an address. Letters, digits and
`-`, `.`, `_`, `~` stand for themselves; every other byte of its UTF-8 form is
written `%` and two capital hexadecimal digits.
-/

import ClusterSync.Text.Blank

namespace ClusterSync
namespace Range

/-- May the byte stand for itself in the query part? -/
def isUnreserved (b : UInt8) : Bool :=
  let n := b.toNat
  (0x30 ≤ n && n ≤ 0x39) || (0x41 ≤ n && n ≤ 0x5A) || (0x61 ≤ n && n ≤ 0x7A) ||
    n == 0x2D || n == 0x2E || n == 0x5F || n == 0x7E

/-- The capital hexadecimal digit for a number below sixteen. -/
def hexDigit (n : Nat) : Char :=
  if n < 10 then Char.ofNat (0x30 + n) else Char.ofNat (0x37 + n)

/-- One byte in the query part. -/
def percentByte (b : UInt8) : List Char :=
  if isUnreserved b then [Char.ofNat b.toNat]
  else ['%', hexDigit (b.toNat / 16), hexDigit (b.toNat % 16)]

/-- A text in the query part. -/
def percentEncode (s : String) : String :=
  String.ofList (s.toUTF8.toList.flatMap percentByte)

/-- The number a hexadecimal digit stands for. -/
def hexValue? (c : Char) : Option Nat :=
  let n := c.toNat
  if 0x30 ≤ n && n ≤ 0x39 then some (n - 0x30)
  else if 0x41 ≤ n && n ≤ 0x46 then some (n - 0x37)
  else if 0x61 ≤ n && n ≤ 0x66 then some (n - 0x57)
  else none

/-- The bytes that a query part carries: `%` and two digits give a byte, any other
character its own bytes. -/
def percentDecode : List Char → List UInt8
  | '%' :: a :: b :: rest =>
    match hexValue? a, hexValue? b with
    | some x, some y => UInt8.ofNat (16 * x + y) :: percentDecode rest
    | _, _ => String.utf8EncodeChar '%' ++ percentDecode (a :: b :: rest)
  | c :: rest => String.utf8EncodeChar c ++ percentDecode rest
  | [] => []

/-- What a query asks for. -/
inductive Mode
  /-- The members, one per line. -/
  | list
  /-- The shortest expression for the same members. -/
  | collapse
deriving DecidableEq

/-- The path that answers queries of this mode. -/
def Mode.path : Mode → String
  | .list => "/range/list"
  | .collapse => "/range/expand"

/-- A text without slashes at its end. -/
def dropSlashes (s : String) : String :=
  String.ofList (Text.dropEndWhile (· == '/') s.toList)

/-- The address of a query: the base without slashes at its end, the path of the
mode, and the expression as the query part. -/
def requestUrl (base expr : String) (mode : Mode) : String :=
  dropSlashes base ++ mode.path ++ "?" ++ percentEncode expr

end Range
end ClusterSync
