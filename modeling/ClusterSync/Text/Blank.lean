/-
# White space

The characters with the property `White_Space`, twenty-five in all:

| from | to | what |
| --- | --- | --- |
| `09` | `0D` | tabs and line ends |
| `20` | | space |
| `85` | | next line |
| `A0` | | no-break space |
| `1680` | | Ogham space mark |
| `2000` | `200A` | spaces of fixed width |
| `2028` | `2029` | line and paragraph separator |
| `202F` | | narrow no-break space |
| `205F` | | medium mathematical space |
| `3000` | | ideographic space |

Trimming a text takes them off its ends. A text is cut into lines at every line
feed, and a carriage return in front of it belongs to the line end.
-/

namespace ClusterSync
namespace Text

/-- White space in the sense of the property `White_Space`. -/
def isBlank (c : Char) : Bool :=
  let n := c.toNat
  (0x09 ≤ n && n ≤ 0x0D) || n == 0x20 || n == 0x85 || n == 0xA0 || n == 0x1680 ||
    (0x2000 ≤ n && n ≤ 0x200A) || n == 0x2028 || n == 0x2029 || n == 0x202F ||
    n == 0x205F || n == 0x3000

/-- A text without the characters of a class at its end. -/
def dropEndWhile (p : Char → Bool) (cs : List Char) : List Char :=
  (cs.reverse.dropWhile p).reverse

/-- A text without the characters of a class at either end. -/
def stripWhile (p : Char → Bool) (cs : List Char) : List Char :=
  dropEndWhile p (cs.dropWhile p)

/-- A text without white space at its end. -/
def trimEnd (s : String) : String :=
  String.ofList (dropEndWhile isBlank s.toList)

/-- A text without white space at either end. -/
def trim (s : String) : String :=
  String.ofList (stripWhile isBlank s.toList)

/-- The pieces of a text between the occurrences of a separator: one more than
there are separators. -/
def splitOn (sep : Char) : List Char → List (List Char)
  | [] => [[]]
  | c :: cs =>
    if c = sep then [] :: splitOn sep cs
    else
      match splitOn sep cs with
      | [] => [[c]]
      | piece :: pieces => (c :: piece) :: pieces

theorem splitOn_ne_nil (sep : Char) (cs : List Char) : splitOn sep cs ≠ [] := by
  cases cs with
  | nil => simp [splitOn]
  | cons c cs => unfold splitOn; split <;> (try split) <;> simp

/-- A line without the carriage return that belonged to its end. -/
def dropReturn (line : List Char) : List Char :=
  match line.reverse with
  | '\r' :: rest => rest.reverse
  | _ => line

/-- The lines of a text. What follows the last line feed is a line of its own
only if it is not empty, and keeps a carriage return at its end. -/
def lines : List Char → List (List Char)
  | cs =>
    match (splitOn '\n' cs).reverse with
    | [] => []
    | last :: ended =>
      let ended := (ended.map dropReturn).reverse
      if last.isEmpty then ended else ended ++ [last]

/-- The bytes that a text takes in UTF-8. -/
def size (s : String) : Nat :=
  s.utf8ByteSize

/-- A text joined from parts with a separator between any two. -/
def join (sep : String) (parts : List String) : String :=
  String.intercalate sep parts

end Text
end ClusterSync
