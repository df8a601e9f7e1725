/-
# Links of a page

A link is the value of `href` in an opening tag `<a …>`, in any letter case. The word is
looked for anywhere behind the white space that follows the `a`, up to the first `>`, and
counts if an equals sign and a value come behind it, with white space or none between:

| value | ends |
| --- | --- |
| `"` … | at the next `"` |
| `'` … | at the next `'` |
| anything else, or a quote that is not closed | before white space or `>` |

Only the last sort must not be empty. Behind a link the search goes on where its value has
ended.
-/

import ClusterSync.Text.Blank
import ClusterSync.Text.Order

namespace ClusterSync
namespace Links

/-- The text behind a word at the front, in any letter case. The word is in small letters. -/
def behind? : List Char → List Char → Option (List Char)
  | [], cs => some cs
  | _ :: _, [] => none
  | w :: word, c :: cs => if c.toLower = w then behind? word cs else none

/-- A text in quotes: what stands before the next quote, and what comes behind it. -/
def quoted? (quote : Char) (cs : List Char) : Option (List Char × List Char) :=
  match cs.dropWhile (· != quote) with
  | [] => none
  | _ :: rest => some (cs.takeWhile (· != quote), rest)

/-- May a character stand in a value without quotes? -/
def isBare (c : Char) : Bool := !Text.isBlank c && c != '>'

/-- A value without quotes, and what comes behind it. -/
def bare? (cs : List Char) : Option (List Char × List Char) :=
  match cs.takeWhile isBare with
  | [] => none
  | value => some (value, cs.dropWhile isBare)

/-- The value at the front, and what comes behind it. -/
def value? : List Char → Option (List Char × List Char)
  | '"' :: cs => (quoted? '"' cs).or (bare? ('"' :: cs))
  | '\'' :: cs => (quoted? '\'' cs).or (bare? ('\'' :: cs))
  | cs => bare? cs

/-- The value of an attribute `href` at the front, and what comes behind it. -/
def target? (cs : List Char) : Option (List Char × List Char) :=
  match behind? ['h', 'r', 'e', 'f'] cs with
  | none => none
  | some rest =>
    match rest.dropWhile Text.isBlank with
    | '=' :: rest => value? (rest.dropWhile Text.isBlank)
    | _ => none

/-- The first target in the rest of a tag, and what comes behind it. -/
def inTag? : List Char → Option (List Char × List Char)
  | [] => none
  | c :: cs =>
    match target? (c :: cs) with
    | some found => some found
    | none => if c = '>' then none else inTag? cs

/-- The target of a tag at the front, and what comes behind it. -/
def tag? (cs : List Char) : Option (List Char × List Char) :=
  match behind? ['<', 'a'] cs with
  | some (c :: rest) => if Text.isBlank c then inTag? rest else none
  | _ => none

/-- Does the text behind a find come from the end of a text? -/
def IsBehind (cs : List Char) (found : Option (List Char × List Char)) : Prop :=
  ∀ value rest, found = some (value, rest) → rest.length ≤ cs.length

theorem length_behind? {word cs rest : List Char} (h : behind? word cs = some rest) :
    cs.length = word.length + rest.length := by
  induction word generalizing cs with
  | nil => simp_all [behind?]
  | cons w word ih =>
    cases cs with
    | nil => simp [behind?] at h
    | cons c cs =>
      simp only [behind?] at h
      split at h
      · simp [ih h]; omega
      · simp at h

theorem length_dropWhile_le (p : Char → Bool) (cs : List Char) :
    (cs.dropWhile p).length ≤ cs.length :=
  (List.dropWhile_sublist p).length_le

theorem isBehind_quoted? (quote : Char) (cs : List Char) : IsBehind cs (quoted? quote cs) := by
  intro value rest h
  have := length_dropWhile_le (· != quote) cs
  unfold quoted? at h
  split at h
  · simp at h
  · next heq =>
    simp only [Option.some.injEq, Prod.mk.injEq] at h
    rw [heq, List.length_cons] at this
    rw [← h.2]
    omega

theorem isBehind_bare? (cs : List Char) : IsBehind cs (bare? cs) := by
  intro value rest h
  have := length_dropWhile_le isBare cs
  unfold bare? at h
  split at h
  · simp at h
  · simp only [Option.some.injEq, Prod.mk.injEq] at h
    rw [← h.2]; exact this

theorem IsBehind.or {cs : List Char} {a b : Option (List Char × List Char)}
    (ha : IsBehind cs a) (hb : IsBehind cs b) : IsBehind cs (a.or b) := by
  cases a with
  | none => simpa using hb
  | some a => simpa using ha

theorem IsBehind.mono {cs ds : List Char} {a : Option (List Char × List Char)}
    (ha : IsBehind cs a) (h : cs.length ≤ ds.length) : IsBehind ds a :=
  fun value rest e => Nat.le_trans (ha value rest e) h

theorem isBehind_value? (cs : List Char) : IsBehind cs (value? cs) := by
  unfold value?
  split
  · exact ((isBehind_quoted? _ _).mono (by simp)).or (isBehind_bare? _)
  · exact ((isBehind_quoted? _ _).mono (by simp)).or (isBehind_bare? _)
  · exact isBehind_bare? _

theorem isBehind_target? (cs : List Char) : IsBehind cs (target? cs) := by
  unfold target?
  split
  · intro _ _ h; simp at h
  · next rest heq =>
    have h1 := length_behind? heq
    split
    · next rest' heq' =>
      have h2 := length_dropWhile_le Text.isBlank rest
      have h3 := length_dropWhile_le Text.isBlank rest'
      rw [heq'] at h2
      simp only [List.length_cons] at h1 h2
      exact (isBehind_value? _).mono (by omega)
    · intro _ _ h; simp at h

theorem isBehind_inTag? (cs : List Char) : IsBehind cs (inTag? cs) := by
  induction cs with
  | nil => intro _ _ h; simp [inTag?] at h
  | cons c cs ih =>
    unfold inTag?
    split
    · next found heq => exact heq ▸ isBehind_target? (c :: cs)
    · split
      · intro _ _ h; simp at h
      · exact ih.mono (by simp)

/-- A tag takes up at least one character. -/
theorem length_tag?_lt {cs value rest : List Char} (h : tag? cs = some (value, rest)) :
    rest.length < cs.length := by
  unfold tag? at h
  split at h
  · next c rest' heq =>
    have h1 := length_behind? heq
    split at h
    · have := isBehind_inTag? rest' value rest h
      simp only [List.length_cons] at h1
      omega
    · simp at h
  · simp at h

/-- The targets of all links, in the order of the text. -/
def targets (cs : List Char) : List (List Char) :=
  match cs with
  | [] => []
  | c :: rest =>
    match _h : tag? (c :: rest) with
    | some (value, rest) => value :: targets rest
    | none => targets rest
termination_by cs.length
decreasing_by
  · exact length_tag?_lt (by assumption)
  · simp

/-- The targets of the links of a page, in byte order and each once, as far as they
pass. -/
def ofPage (passes : String → Bool) (page : String) : List String :=
  Text.sortUnique (((targets page.toList).map String.ofList).filter passes)

end Links
end ClusterSync
