/-
# What the address of a query carries

The expression of a query is the query part of its address, percent coded. The coded part has no
other characters than letters, digits, `-`, `.`, `_`, `~` and those of escapes (`IsQueryPart`), and
reading it back byte by byte gives the bytes of the expression (`percentDecode_percentEncode`).
So no two queries to a server have the same address: the paths of the modes differ after one letter,
and below the same path the expression can be read off.

An address is cut at the first `#`, what is in front of it at the first `?`, and what is between
them at each `&` (`AddressParts`). None of these stands in a coded expression. So an expression
only continues the last part of an address, and the layout is the same for all of them
(`sameLayout_append`).
-/

import ClusterSync.Proofs.Range.Addresses

namespace ClusterSync

namespace Text

theorem bytes_inj {a b : String} : bytes a = bytes b ↔ a = b := by
  refine ⟨fun h => ?_, fun h => h ▸ rfl⟩
  have hab : a ≤ b := le_iff_bytes.2 (h ▸ Std.le_refl (bytes a))
  have hba : b ≤ a := le_iff_bytes.2 (h ▸ Std.le_refl (bytes a))
  exact Std.le_antisymm hab hba

/-- There is one piece more than there are separators. -/
theorem length_splitOn (sep : Char) (cs : List Char) :
    (splitOn sep cs).length = cs.count sep + 1 := by
  induction cs with
  | nil => rfl
  | cons c cs ih =>
    rw [splitOn, List.count_cons]
    split
    · next hc => simp [ih, hc]
    · next hc =>
      split
      · next hnil => exact absurd hnil (splitOn_ne_nil sep cs)
      · next piece pieces heq =>
        rw [heq] at ih
        simpa [hc] using ih

end Text

namespace Range

/-! ### Percent coding and back -/

/-- Letters, digits and the four other characters that stand for themselves. -/
def IsPlainChar (c : Char) : Prop := c.isAlphanum = true ∨ c ∈ ['-', '.', '_', '~']

instance (c : Char) : Decidable (IsPlainChar c) := inferInstanceAs (Decidable (_ ∨ _))

/-- The digits of escapes. -/
def escapeDigits : List Char := "0123456789ABCDEF".toList

/-- A text of plain characters and escapes: `%` and two digits. -/
inductive IsQueryPart : List Char → Prop
  | nil : IsQueryPart []
  | plain {c : Char} {rest : List Char} (hc : IsPlainChar c) (hrest : IsQueryPart rest) :
      IsQueryPart (c :: rest)
  | escape {high low : Char} {rest : List Char} (hhigh : high ∈ escapeDigits)
      (hlow : low ∈ escapeDigits) (hrest : IsQueryPart rest) :
      IsQueryPart ('%' :: high :: low :: rest)

variable {b : UInt8} {c sep : Char} {cs front query rest : List Char} {base expr : String}
  {mode : Mode}

theorem IsQueryPart.not_mem (h : IsQueryPart cs) (hplain : ¬ IsPlainChar c) (hpercent : c ≠ '%') :
    c ∉ cs := by
  have hall : escapeDigits.all (fun d => decide (IsPlainChar d)) = true := by decide
  have hdigits : ∀ d ∈ escapeDigits, IsPlainChar d := fun d hd =>
    of_decide_eq_true (List.all_eq_true.1 hall d hd)
  have hne : ∀ {d : Char}, IsPlainChar d → c ≠ d := fun hd heq => hplain (heq ▸ hd)
  induction h with
  | nil => exact List.not_mem_nil
  | plain hc _ ih => simp [hne hc, ih]
  | escape hhigh hlow _ ih => simp [hpercent, hne (hdigits _ hhigh), hne (hdigits _ hlow), ih]

theorem isPlainChar_ofNat : ∀ n < 128, isUnreserved (UInt8.ofNat n) = true →
    IsPlainChar (Char.ofNat n) := by
  decide

theorem isPlainChar_of_isUnreserved (h : isUnreserved b = true) :
    IsPlainChar (Char.ofNat b.toNat) := by
  refine isPlainChar_ofNat _ (lt_of_isUnreserved h) ?_
  rwa [UInt8.ofNat_toNat]

theorem hexDigit_mem : ∀ n < 16, hexDigit n ∈ escapeDigits := by decide

theorem hexValue?_hexDigit : ∀ n < 16, hexValue? (hexDigit n) = some n := by decide

theorem utf8EncodeChar_ofNat :
    ∀ n < 128, String.utf8EncodeChar (Char.ofNat n) = [UInt8.ofNat n] := by
  decide

theorem isQueryPart_percentByte (b : UInt8) (hrest : IsQueryPart rest) :
    IsQueryPart (percentByte b ++ rest) := by
  have hb : b.toNat < 256 := b.toNat_lt
  rw [percentByte]
  split
  · next hplain => exact .plain (isPlainChar_of_isUnreserved hplain) hrest
  · exact .escape (hexDigit_mem _ (by omega)) (hexDigit_mem _ (by omega)) hrest

theorem percentDecode_cons (hc : c ≠ '%') (rest : List Char) :
    percentDecode (c :: rest) = String.utf8EncodeChar c ++ percentDecode rest := by
  rw [percentDecode]
  intro high low tail h _
  exact hc h

/-- **A byte is read back from its code**, whatever comes behind it. -/
theorem percentDecode_percentByte (b : UInt8) (rest : List Char) :
    percentDecode (percentByte b ++ rest) = b :: percentDecode rest := by
  have hb : b.toNat < 256 := b.toNat_lt
  rw [percentByte]
  split
  · next hplain =>
    have hne : Char.ofNat b.toNat ≠ '%' := fun heq => by
      have hpercent : IsPlainChar '%' := heq ▸ isPlainChar_of_isUnreserved hplain
      exact absurd hpercent (by decide)
    rw [List.singleton_append, percentDecode_cons hne,
      utf8EncodeChar_ofNat _ (lt_of_isUnreserved hplain), UInt8.ofNat_toNat, List.singleton_append]
  · have hhigh : hexValue? (hexDigit (b.toNat / 16)) = some (b.toNat / 16) :=
      hexValue?_hexDigit _ (by omega)
    have hlow : hexValue? (hexDigit (b.toNat % 16)) = some (b.toNat % 16) :=
      hexValue?_hexDigit _ (by omega)
    rw [List.cons_append, List.cons_append, List.singleton_append, percentDecode]
    simp only [hhigh, hlow]
    rw [Nat.div_add_mod, UInt8.ofNat_toNat]

theorem toList_percentEncode (s : String) :
    (percentEncode s).toList = (Text.bytes s).flatMap percentByte := by
  rw [percentEncode, String.toList_ofList, Text.toList_toUTF8]

theorem isQueryPart_percentEncode (s : String) : IsQueryPart (percentEncode s).toList := by
  rw [toList_percentEncode]
  induction Text.bytes s with
  | nil => exact .nil
  | cons b bs ih => exact isQueryPart_percentByte b ih

/-- **Reading a coded text back gives its bytes.** -/
theorem percentDecode_percentEncode (s : String) :
    percentDecode (percentEncode s).toList = Text.bytes s := by
  rw [toList_percentEncode]
  induction Text.bytes s with
  | nil => rfl
  | cons b bs ih => rw [List.flatMap_cons, percentDecode_percentByte, ih]

theorem percentEncode_inj {s t : String} : percentEncode s = percentEncode t ↔ s = t := by
  refine ⟨fun h => Text.bytes_inj.1 ?_, fun h => h ▸ rfl⟩
  rw [← percentDecode_percentEncode, h, percentDecode_percentEncode]

/-! ### The parts of an address -/

/-- What an address is made of: the path, with all that is in front of it, the parameters of the
query, and the fragment. -/
structure AddressParts where
  path : List Char
  parameters : List (List Char)
  fragment : Option (List Char)

/-- What stands in front of the first separator, and what stands behind it if there is one. -/
def cutAt (sep : Char) : List Char → List Char × Option (List Char)
  | [] => ([], none)
  | c :: cs =>
    if c = sep then ([], some cs)
    else
      let (front, behind) := cutAt sep cs
      (c :: front, behind)

/-- Cuts an address at the first `#`, what is in front of it at the first `?`, and what is between
them at each `&`. -/
def AddressParts.ofAddress (address : List Char) : AddressParts :=
  let (front, fragment) := cutAt '#' address
  let (path, query) := cutAt '?' front
  { path, fragment
    parameters :=
      match query with
      | none => []
      | some query => Text.splitOn '&' query }

/-- Have two addresses the same path, as many parameters, and a fragment or none? -/
structure AddressParts.SameLayout (a b : AddressParts) : Prop where
  path : a.path = b.path
  parameters : a.parameters.length = b.parameters.length
  fragment : a.fragment.isSome = b.fragment.isSome

theorem cutAt_of_not_mem (h : sep ∉ cs) : cutAt sep cs = (cs, none) := by
  induction cs with
  | nil => rfl
  | cons c cs ih =>
    obtain ⟨hc, hcs⟩ := List.ne_and_not_mem_of_not_mem_cons h
    rw [cutAt, if_neg hc.symm, ih hcs]

theorem cutAt_append_cons (h : sep ∉ front) (rest : List Char) :
    cutAt sep (front ++ sep :: rest) = (front, some rest) := by
  induction front with
  | nil => rw [List.nil_append, cutAt, if_pos rfl]
  | cons c front ih =>
    obtain ⟨hc, hfront⟩ := List.ne_and_not_mem_of_not_mem_cons h
    rw [List.cons_append, cutAt, if_neg hc.symm, ih hfront]

/-- **Behind a `?` nothing is added** by a text with none of the characters at which an address is
cut. -/
theorem sameLayout_append (hcs : '?' ∈ cs) (hhash : '#' ∉ query) (hand : '&' ∉ query) :
    (AddressParts.ofAddress (cs ++ query)).SameLayout (.ofAddress cs) := by
  by_cases hfragment : '#' ∈ cs
  · -- The text continues the fragment.
    obtain ⟨front, fragment, rfl, hfront⟩ := List.eq_append_cons_of_mem hfragment
    rw [List.append_assoc, List.cons_append]
    simp only [AddressParts.ofAddress, cutAt_append_cons hfront]
    exact ⟨rfl, rfl, rfl⟩
  · -- The text continues the last parameter.
    obtain ⟨path, parameters, rfl, hpath⟩ := List.eq_append_cons_of_mem hcs
    have hwhole : '#' ∉ path ++ '?' :: parameters ++ query := by simp_all
    simp only [AddressParts.ofAddress, cutAt_of_not_mem hwhole, cutAt_of_not_mem hfragment]
    rw [List.append_assoc, List.cons_append]
    simp only [cutAt_append_cons hpath]
    refine ⟨rfl, ?_, rfl⟩
    have hnone : query.count '&' = 0 := List.count_eq_zero_of_not_mem hand
    simp only [Text.length_splitOn, List.count_append, hnone, Nat.add_zero]

/-! ### Addresses of queries -/

/-- No slash is left at the end. -/
theorem getLast?_dropSlashes_ne (base : String) :
    (dropSlashes base).toList.getLast? ≠ some '/' := by
  intro h
  rw [dropSlashes, String.toList_ofList, Text.dropEndWhile, List.getLast?_reverse] at h
  have hfalse := List.head?_dropWhile_not (· == '/') base.toList.reverse
  rw [h] at hfalse
  exact absurd hfalse (by decide)

/-- The paths of the modes tell them apart, whatever comes behind. -/
theorem path_append_inj {m m' : Mode} {s t : String}
    (h : m.path ++ "?" ++ s = m'.path ++ "?" ++ t) : m = m' ∧ s = t := by
  cases m <;> cases m'
  · exact ⟨rfl, String.append_right_inj _ |>.1 h⟩
  · have hlist := congrArg String.toList h
    simp [Mode.path] at hlist
  · have hlist := congrArg String.toList h
    simp [Mode.path] at hlist
  · exact ⟨rfl, String.append_right_inj _ |>.1 h⟩

theorem requestUrl_inj {e e' : String} {m m' : Mode} :
    requestUrl base e m = requestUrl base e' m' ↔ e = e' ∧ m = m' := by
  constructor
  · intro h
    simp only [requestUrl, String.append_assoc, String.append_right_inj] at h
    rw [← String.append_assoc, ← String.append_assoc] at h
    obtain ⟨hmode, hexpr⟩ := path_append_inj h
    exact ⟨percentEncode_inj.1 hexpr, hmode⟩
  · rintro ⟨rfl, rfl⟩
    rfl

theorem requestUrl_append (base expr : String) (mode : Mode) :
    requestUrl base expr mode = requestUrl base "" mode ++ percentEncode expr := by
  have hempty : percentEncode "" = "" := by decide +kernel
  rw [requestUrl, requestUrl, hempty, String.append_empty]

/-- An expression changes nothing in the layout of the address. -/
theorem sameLayout_requestUrl (base expr : String) (mode : Mode) :
    (AddressParts.ofAddress (requestUrl base expr mode).toList).SameLayout
      (.ofAddress (requestUrl base "" mode).toList) := by
  have hcode := isQueryPart_percentEncode expr
  have hmark : '?' ∈ (requestUrl base "" mode).toList := by simp [requestUrl]
  rw [requestUrl_append, String.toList_append]
  exact sameLayout_append hmark (hcode.not_mem (by decide) (by decide))
    (hcode.not_mem (by decide) (by decide))

/-- Where the base is a path alone, the query is one parameter. -/
theorem ofAddress_requestUrl (expr : String) (mode : Mode) (hmark : '?' ∉ base.toList)
    (hhash : '#' ∉ base.toList) :
    AddressParts.ofAddress (requestUrl base expr mode).toList =
      ⟨(dropSlashes base ++ mode.path).toList, [(percentEncode expr).toList], none⟩ := by
  have hcode := isQueryPart_percentEncode expr
  obtain ⟨slashes, hbase, -⟩ := exists_eq_dropSlashes_append base
  have hstem : ∀ c, c ∉ base.toList → c ∉ mode.path.toList →
      c ∉ (dropSlashes base ++ mode.path).toList := by
    intro c hc hpath
    rw [hbase, String.toList_append, List.mem_append, not_or] at hc
    rw [String.toList_append, List.mem_append, not_or]
    exact ⟨hc.1, hpath⟩
  have hpath : '?' ∉ (dropSlashes base ++ mode.path).toList :=
    hstem '?' hmark (by cases mode <;> decide)
  have hquery : '#' ∉ (percentEncode expr).toList := hcode.not_mem (by decide) (by decide)
  have haddress : (requestUrl base expr mode).toList =
      (dropSlashes base ++ mode.path).toList ++ '?' :: (percentEncode expr).toList := by
    simp [requestUrl]
  have hwhole : '#' ∉ (dropSlashes base ++ mode.path).toList ++
      '?' :: (percentEncode expr).toList := by
    rw [List.mem_append, List.mem_cons, not_or, not_or]
    exact ⟨hstem '#' hhash (by cases mode <;> decide), by decide, hquery⟩
  have hsplit : Text.splitOn '&' (percentEncode expr).toList = [(percentEncode expr).toList] := by
    rw [Text.splitOn_eq]
    exact List.splitOn_eq_singleton (hcode.not_mem (by decide) (by decide))
  rw [haddress]
  simp only [AddressParts.ofAddress, cutAt_of_not_mem hwhole, cutAt_append_cons hpath, hsplit]

/-- **The address of a query carries its expression.** It is the base without slashes at its end,
the path of the mode, one `?` and a query part, from which the bytes of the expression can be read.
Two queries below one base have different addresses. No expression adds to the path, makes
a parameter of its own or begins a fragment; if the base is a path alone, the query part is the one
parameter and there is no fragment. -/
theorem requestUrl_carries (base expr : String) (mode : Mode) :
    (∃ stem slashes query : String,
      base = stem ++ slashes ∧ (∀ c ∈ slashes.toList, c = '/') ∧ stem.toList.getLast? ≠ some '/' ∧
      requestUrl base expr mode = stem ++ mode.path ++ "?" ++ query ∧
      IsQueryPart query.toList ∧ percentDecode query.toList = Text.bytes expr ∧
      ('?' ∉ base.toList → '#' ∉ base.toList →
        AddressParts.ofAddress (requestUrl base expr mode).toList =
          ⟨(stem ++ mode.path).toList, [query.toList], none⟩)) ∧
    (∀ other otherMode, requestUrl base other otherMode = requestUrl base expr mode →
      other = expr ∧ otherMode = mode) ∧
    (AddressParts.ofAddress (requestUrl base expr mode).toList).SameLayout
      (.ofAddress (requestUrl base "" mode).toList) := by
  obtain ⟨slashes, hbase, hslashes⟩ := exists_eq_dropSlashes_append base
  refine ⟨⟨dropSlashes base, slashes, percentEncode expr, hbase, hslashes,
    getLast?_dropSlashes_ne base, rfl, isQueryPart_percentEncode expr,
    percentDecode_percentEncode expr, ofAddress_requestUrl expr mode⟩, ?_,
    sameLayout_requestUrl base expr mode⟩
  intro other otherMode h
  exact requestUrl_inj.1 h

example : requestUrl "http://range:80//" "%foo,bar baz" .list =
    "http://range:80/range/list?%25foo%2Cbar%20baz" := by decide +kernel

end Range
end ClusterSync
