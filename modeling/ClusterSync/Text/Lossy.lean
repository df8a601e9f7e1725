/-
# Reading bytes as text, come what may

Bytes from outside are read as UTF-8. Where they are not UTF-8, the longest start
of a character that stands there, or else one byte, is read as `U+FFFD`.

| first byte | second byte | bytes in all |
| --- | --- | ---: |
| `00`–`7F` | | 1 |
| `C2`–`DF` | `80`–`BF` | 2 |
| `E0` | `A0`–`BF` | 3 |
| `E1`–`EC`, `EE`, `EF` | `80`–`BF` | 3 |
| `ED` | `80`–`9F` | 3 |
| `F0` | `90`–`BF` | 4 |
| `F1`–`F3` | `80`–`BF` | 4 |
| `F4` | `80`–`8F` | 4 |

All bytes after the second lie in `80`–`BF`.
-/

namespace ClusterSync
namespace Text

/-- The range of the second byte and the number of bytes after the first, for a
first byte that begins a character of several bytes. -/
def leadByte? (b : Nat) : Option (Nat × Nat × Nat) :=
  if 0xC2 ≤ b ∧ b ≤ 0xDF then some (0x80, 0xBF, 1)
  else if b = 0xE0 then some (0xA0, 0xBF, 2)
  else if b = 0xED then some (0x80, 0x9F, 2)
  else if 0xE1 ≤ b ∧ b ≤ 0xEF then some (0x80, 0xBF, 2)
  else if b = 0xF0 then some (0x90, 0xBF, 3)
  else if 0xF1 ≤ b ∧ b ≤ 0xF3 then some (0x80, 0xBF, 3)
  else if b = 0xF4 then some (0x80, 0x8F, 3)
  else none

/-- Reads the bytes after the first. `lo` and `hi` bound the next one, `value` is
what has been read and `used` counts the bytes; the result is the character, if it
is complete, and the bytes used. -/
def readTail (lo hi value : Nat) : Nat → Nat → List UInt8 → Option Nat × Nat
  | 0, used, _ => (some value, used)
  | _ + 1, used, [] => (none, used)
  | left + 1, used, b :: rest =>
    if lo ≤ b.toNat ∧ b.toNat ≤ hi then
      readTail 0x80 0xBF (64 * value + (b.toNat - 0x80)) left (used + 1) rest
    else (none, used)

/-- The character that begins with a byte, and how many of the following bytes it takes. -/
def readChar (b : UInt8) (rest : List UInt8) : Char × Nat :=
  let n := b.toNat
  if n < 0x80 then (Char.ofNat n, 0)
  else
    match leadByte? n with
    | none => ('\uFFFD', 0)
    | some (lo, hi, left) =>
      let head := if left = 1 then n - 0xC0 else if left = 2 then n - 0xE0 else n - 0xF0
      match readTail lo hi head left 0 rest with
      | (some value, used) => (Char.ofNat value, used)
      | (none, used) => ('\uFFFD', used)

/-- The characters that bytes stand for. -/
def decodeLossy : List UInt8 → List Char
  | [] => []
  | b :: rest =>
    let c := readChar b rest
    c.1 :: decodeLossy (rest.drop c.2)
termination_by bs => bs.length
decreasing_by simp only [List.length_drop, List.length_cons]; omega

/-- The text that bytes stand for. -/
def ofBytesLossy (bytes : ByteArray) : String :=
  String.ofList (decodeLossy bytes.toList)

end Text
end ClusterSync
