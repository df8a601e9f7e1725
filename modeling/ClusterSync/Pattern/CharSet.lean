/-
# Sets of characters in patterns

A set knows its members, and how much room it takes in a compiled pattern. The room is
an estimate: what matters is only whether a pattern that repeats the set many times stays
below the limit (`Pattern.room`).
-/

import ClusterSync.Unicode.Case
import ClusterSync.Unicode.Property

namespace ClusterSync

/-- A set of characters. -/
structure CharSet where
  contains : Char → Bool
  /-- The bytes that it takes in a compiled pattern, roughly. -/
  room : Nat

namespace CharSet

/-- The set with no members. -/
def empty : CharSet := ⟨fun _ => false, 32⟩

/-- The characters from one to another. -/
def span (lo hi : Char) : CharSet := ⟨fun c => lo ≤ c && c ≤ hi, 40⟩

/-- One character. -/
def single (c : Char) : CharSet := ⟨(· == c), 32 * c.utf8Size⟩

/-- The members of either. -/
def union (a b : CharSet) : CharSet := ⟨fun c => a.contains c || b.contains c, a.room + b.room⟩

/-- The members of both. -/
def inter (a b : CharSet) : CharSet := ⟨fun c => a.contains c && b.contains c, max a.room b.room⟩

/-- The members of the first that are not in the second. -/
def diff (a b : CharSet) : CharSet := ⟨fun c => a.contains c && !b.contains c, max a.room b.room⟩

/-- The members of just one. -/
def symmDiff (a b : CharSet) : CharSet := ⟨fun c => a.contains c != b.contains c, a.room + b.room⟩

/-- All other characters. -/
def compl (a : CharSet) : CharSet := ⟨fun c => !a.contains c, a.room + 500⟩

/-- The characters that differ from a member only in case. -/
def fold (a : CharSet) : CharSet :=
  ⟨fun c => (Unicode.caseVariants c).any a.contains, 2 * a.room⟩

/-- The characters that differ from a member only in the case of an ASCII letter. -/
def foldAscii (a : CharSet) : CharSet :=
  ⟨fun c => a.contains c || a.contains c.toLower || a.contains c.toUpper, 2 * a.room⟩

/-- The ASCII members. -/
def ascii (a : CharSet) : CharSet := ⟨fun c => c.toNat < 0x80 && a.contains c, a.room⟩

/-- Is a member among the characters from `U+0080` to `U+00FF`? -/
def hasHigh (a : CharSet) : Bool :=
  (List.range 0x80).any fun i => a.contains (Char.ofNat (0x80 + i))

/-- Decimal digits. -/
def digit : CharSet := ⟨Unicode.isDigit, 4000⟩

/-- White space. -/
def blank : CharSet := ⟨Text.isBlank, 500⟩

/-- Characters of words. -/
def word : CharSet := ⟨Unicode.isWord, 45000⟩

/-- A class of a property. -/
def property (p : Char → Bool) : CharSet := ⟨p, 20000⟩

/-- The classes of ASCII characters by name. -/
def asciiClass? (name : String) : Option CharSet :=
  let make (p : Char → Bool) : Option CharSet := some ⟨fun c => c.toNat < 0x80 && p c, 80⟩
  match name with
  | "alnum" => make (·.isAlphanum)
  | "alpha" => make (·.isAlpha)
  | "ascii" => make fun _ => true
  | "blank" => make fun c => c == ' ' || c == '\t'
  | "cntrl" => make fun c => c.toNat < 0x20 || c.toNat == 0x7F
  | "digit" => make (·.isDigit)
  | "graph" => make fun c => 0x21 ≤ c.toNat && c.toNat ≤ 0x7E
  | "lower" => make (·.isLower)
  | "print" => make fun c => 0x20 ≤ c.toNat && c.toNat ≤ 0x7E
  | "punct" => make fun c => 0x21 ≤ c.toNat && c.toNat ≤ 0x7E && !c.isAlphanum
  | "space" => make fun c => c == ' ' || (0x09 ≤ c.toNat && c.toNat ≤ 0x0D)
  | "upper" => make (·.isUpper)
  | "word" => make fun c => c.isAlphanum || c == '_'
  | "xdigit" => make fun c => c.isDigit || ('a' ≤ c && c ≤ 'f') || ('A' ≤ c && c ≤ 'F')
  | _ => none

end CharSet
end ClusterSync
