/-
# Lists of members, written and read

A server lists members one per line. There are many ways to write a list: white space may follow a
member, and the line may end with a line feed or with a carriage return and a line feed
(`ListLine`). Reading takes one line off after the other (`membersOf_line`): it finds the member as
it was, since the member does not end in white space itself. What follows the last line end is a
line of its own if it is not empty (`membersOf_content`), so that the last line end may be missing,
unless the last line is empty (`parseList_listText`).
-/

import ClusterSync.Proofs.Text
import ClusterSync.Proofs.Text.ByteOrder
import ClusterSync.Range.Client

namespace ClusterSync
namespace Range

/-- What a line ends with. -/
inductive LineEnd
  | feed
  | returnFeed

/-- What stands in front of the line feed. -/
def LineEnd.front : LineEnd → List Char
  | feed => []
  | returnFeed => ['\r']

/-- A member on a line of its own, with white space behind it. -/
structure ListLine where
  member : String
  blanks : List Char
  lineEnd : LineEnd
  noFeed : '\n' ∉ member.toList
  noBlankEnd : ∀ c ∈ member.toList.getLast?, Text.isBlank c = false
  allBlank : ∀ c ∈ blanks, Text.isBlank c = true
  noFeedBehind : '\n' ∉ blanks

namespace ListLine

/-- A line without its end. -/
def content (l : ListLine) : List Char := l.member.toList ++ l.blanks

/-- A line with its end. -/
def text (l : ListLine) : List Char := l.content ++ l.lineEnd.front ++ ['\n']

theorem not_mem_content (l : ListLine) : '\n' ∉ l.content ++ l.lineEnd.front := by
  have hfront : '\n' ∉ l.lineEnd.front := by cases l.lineEnd <;> decide
  simp [content, l.noFeed, l.noFeedBehind, hfront]

/-- Without white space at its end a line is the member on it. -/
theorem trim_content (l : ListLine) :
    String.ofList (Text.dropEndWhile Text.isBlank l.content) = l.member := by
  rw [content, Text.dropEndWhile_append l.allBlank, Text.dropEndWhile_eq_self l.noBlankEnd,
    String.ofList_toList]

theorem trim_front (l : ListLine) :
    Text.dropEndWhile Text.isBlank (l.content ++ l.lineEnd.front) =
      Text.dropEndWhile Text.isBlank l.content := by
  have hblank : ∀ c ∈ l.lineEnd.front, Text.isBlank c = true := by
    cases l.lineEnd with
    | feed => nofun
    | returnFeed => exact List.forall_mem_singleton.2 rfl
  exact Text.dropEndWhile_append hblank l.content

end ListLine

/-- A list of members, every line ended. -/
def listText (ls : List ListLine) : String := String.ofList (ls.flatMap ListLine.text)

/-- A list of members without the end of the last line. -/
def openListText (ls : List ListLine) (last : ListLine) : String :=
  String.ofList (ls.flatMap ListLine.text ++ last.content)

/-- The members in a text, line by line. -/
def membersOf (cs : List Char) : List String :=
  (Text.lines cs).map fun line => String.ofList (Text.dropEndWhile Text.isBlank line)

theorem parseList_ofList (cs : List Char) :
    parseList (String.ofList cs) = Text.sort (membersOf cs) := by
  rw [parseList, membersOf, String.toList_ofList]

/-- The first line gives its member, whatever comes behind it. -/
theorem membersOf_line (l : ListLine) (rest : List Char) :
    membersOf (l.text ++ rest) = l.member :: membersOf rest := by
  have htext : l.text ++ rest = l.content ++ l.lineEnd.front ++ '\n' :: rest := by
    rw [ListLine.text, List.append_assoc, List.singleton_append]
  rw [membersOf, htext, Text.lines_append l.not_mem_content, List.map_cons,
    Text.dropEndWhile_dropReturn, l.trim_front, l.trim_content]
  rfl

/-- **Line by line the members are found again.** -/
theorem membersOf_lines (ls : List ListLine) (rest : List Char) :
    membersOf (ls.flatMap ListLine.text ++ rest) = ls.map (·.member) ++ membersOf rest := by
  induction ls with
  | nil => rfl
  | cons l ls ih =>
    rw [List.flatMap_cons, List.append_assoc, membersOf_line, ih, List.map_cons, List.cons_append]

/-- A line that is not ended counts unless it is empty. -/
theorem membersOf_content (l : ListLine) :
    membersOf l.content = if l.content = [] then [] else [l.member] := by
  have hfeed : '\n' ∉ l.content := fun h => l.not_mem_content (List.mem_append_left _ h)
  rw [membersOf, Text.lines_of_not_mem hfeed]
  split
  · rfl
  · rw [List.map_singleton, l.trim_content]

theorem parseList_listText_eq (ls : List ListLine) :
    parseList (listText ls) = Text.sort (ls.map (·.member)) := by
  have hmembers := membersOf_lines ls []
  rw [List.append_nil] at hmembers
  rw [listText, parseList_ofList, hmembers]
  exact congrArg Text.sort (List.append_nil _)

theorem parseList_openListText (ls : List ListLine) (last : ListLine) :
    parseList (openListText ls last) =
      if last.content = [] then parseList (listText ls)
      else parseList (listText (ls ++ [last])) := by
  rw [openListText, parseList_ofList, membersOf_lines, membersOf_content, parseList_listText_eq,
    parseList_listText_eq]
  split
  · rw [List.append_nil]
  · rw [List.map_append, List.map_singleton]

/-- **Reading a list undoes writing it.** However members are written line by line, what is read is
these members in the order of their bytes, each as often as it was written. It is the same without
the end of the last line, if and only if that line is not empty; an empty one is not read then. -/
theorem parseList_listText (ls : List ListLine) :
    (parseList (listText ls)).Perm (ls.map (·.member)) ∧
    (parseList (listText ls)).Pairwise (fun a b => Text.bytes a ≤ Text.bytes b) ∧
    ∀ last : ListLine,
      (parseList (openListText ls last) = parseList (listText (ls ++ [last])) ↔
        last.content ≠ []) ∧
      (last.content = [] → parseList (openListText ls last) = parseList (listText ls)) := by
  refine ⟨?_, ?_, fun last => ⟨⟨fun hsame hempty => ?_, fun hcontent => ?_⟩, fun hempty => ?_⟩⟩
  · rw [parseList_listText_eq]
    exact Text.sort_perm _
  · rw [parseList_listText_eq]
    exact (Text.pairwise_sort _).imp fun hle => Text.le_iff_bytes.1 hle
  · -- Of an empty line no member is read, so that there is one less.
    rw [parseList_openListText, if_pos hempty, parseList_listText_eq,
      parseList_listText_eq] at hsame
    have hlength := congrArg List.length hsame
    simp [(Text.sort_perm _).length_eq] at hlength
  · rw [parseList_openListText, if_neg hcontent]
  · rw [parseList_openListText, if_pos hempty]

example : parseList "b \t\r\na" = ["a", "b"] := by cbv

end Range
end ClusterSync
