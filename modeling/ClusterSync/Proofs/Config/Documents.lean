/-
# Configurations come back from documents

The keys of a configuration are put into a draft one after another, each of them once, and so are
those of the settings of a range client. A key that may be left out is written with what
stands under it or not at all, and a text is never taken for a null (`Document.optional_tree`). So
settings are read back (`Range.Settings.read_tree`), and with the entries
(`Config.readEntries_trees`) so is a configuration (`Config.readWhole_text`). Whether it is sound
is asked afterwards, and a sound one comes back (`Config.ofText_text`).
-/

import ClusterSync.Config.Reading
import ClusterSync.Proofs.Config.Entries

namespace ClusterSync

open Yaml

/-! ### Nodes of trees -/

namespace Yaml

namespace Tree

/-- The nodes of a key and of what stands under it. -/
def entryNode (e : String × Tree) : Node × Node :=
  (.scalar none (Style.ofText e.1) e.1, e.2.node)

theorem entryNodes_eq (entries : List (String × Tree)) : entryNodes entries =
    entries.map entryNode := by
  induction entries with
  | nil => rfl
  | cons e entries ih => rw [entryNodes, ih]; rfl

theorem itemNodes_eq (items : List Tree) : itemNodes items = items.map node := by
  induction items with
  | nil => rfl
  | cons item items ih => rw [itemNodes, ih]; rfl

end Tree

namespace Document

variable (d : Document)

theorem asMapping_tree (entries : List (String × Tree)) :
    d.asMapping (Tree.mapping entries).node = .ok (entries.map Tree.entryNode) :=
  congrArg Except.ok (Tree.entryNodes_eq entries)

theorem asSequence_tree (items : List Tree) :
    d.asSequence (Tree.sequence items).node = .ok (items.map Tree.node) :=
  congrArg Except.ok (Tree.itemNodes_eq items)

theorem asBool_tree (b : Bool) : d.asBool (Tree.bool b).node = .ok b := by
  cases b <;> rfl

theorem asUnsigned_tree (w : UInt64) : d.asUnsigned (Field.number w).tree.node = .ok w.toNat := by
  have hw : ¬0x10000000000000000 ≤ (w.toNat : Int) := by
    have := w.toNat_lt
    omega
  have hsign : (toString (w.toNat : Int)).startsWith "-" = false := by
    rw [String.startsWith_string_eq_false_iff, toList_toString_int]
    intro hminus
    -- all characters are digits
    have hmem := hminus.subset (List.mem_singleton_self '-')
    simp only [signChars, decide_eq_true_eq, if_neg (Int.not_lt.2 (Int.natCast_nonneg w.toNat)),
      List.nil_append] at hmem
    exact absurd (isDigit_toDigits _ '-' hmem) (by decide)
  have hfollow : d.follow (Field.number w).tree.node =
      .scalar none .plain (toString (w.toNat : Int)) := rfl
  have hbare : isBare "int" none .plain = true := rfl
  simp only [asUnsigned, hfollow, hbare, readInt?_toString, hsign, hw, decide_false, Bool.or_self,
    Bool.false_eq_true, if_false, Int.toNat_natCast]

/-- A scalar that means something else is no null. -/
theorem isNull_scalar {style : Style} {s : String} {a : Atom}
    (h : Atom.ofScalar? none style s = some a) (ha : a ≠ .null) :
    d.isNull (.scalar none style s) = .ok false := by
  cases style with
  | plain =>
    have hmeans : Atom.ofPlain s = a := Option.some.inj h
    have hword : (s.isEmpty || isNullWord s) = false := by
      rw [← Bool.not_eq_true]
      intro hword
      rw [Atom.ofPlain, if_pos hword] at hmeans
      exact ha hmeans.symm
    exact congrArg Except.ok hword
  | _ => rfl

theorem isNull_tree (f : Field) : d.isNull f.tree.node = .ok false := by
  cases f with
  | text s => exact d.isNull_scalar (ofScalar?_ofText s) (by simp)
  | number w =>
    have hmeans : Atom.ofScalar? none .plain (toString (w.toNat : Int)) = some (.int w.toNat) :=
      congrArg some (Field.isWord_unsigned w).means
    exact d.isNull_scalar hmeans (by simp)

/-- **What is written is not taken for nothing.** -/
theorem optional_tree {α : Type} {f : Field} {a : α} {read : Node → Read α}
    (h : read f.tree.node = .ok a) : d.optional f.tree.node read = .ok (some a) := by
  rw [optional, isNull_tree, h]
  rfl

end Document
end Yaml

/-! ### Settings of a range client -/

namespace Range.Settings

variable (d : Document)

theorem readWord_tree (w : UInt64) : readWord d (Field.number w).tree.node = .ok w := by
  rw [readWord, d.asUnsigned_tree]
  exact congrArg Except.ok UInt64.ofNat_toNat

/-- The entry of a key among settings. -/
def entry (f : String × Field) : Node × Node := Tree.entryNode (f.1, f.2.tree)

/-- The draft of settings that need no more than the three keys that are always there. -/
def requiredDraft (s : Settings) : Draft where
  host := some s.host
  maxChars := some s.maxChars
  maxPasses := some s.maxPasses

theorem put_required (s : Settings) :
    ([("host", Field.text s.host), ("max_chars", .number s.maxChars),
      ("max_collapse_iterations", .number s.maxPasses)].map entry).foldlM (Draft.put d) {} =
        .ok s.requiredDraft := by
  have hhost : Draft.put d {} (entry ("host", .text s.host)) = .ok { host := some s.host } := rfl
  have hchars (draft : Draft) : Draft.put d draft (entry ("max_chars", .number s.maxChars)) =
      readOnce "max_chars" draft.maxChars (readWord d (Field.number s.maxChars).tree.node) >>=
        fun w => .ok { draft with maxChars := w } := rfl
  have hpasses (draft : Draft) :
      Draft.put d draft (entry ("max_collapse_iterations", .number s.maxPasses)) =
        readOnce "max_collapse_iterations" draft.maxPasses
          (readWord d (Field.number s.maxPasses).tree.node) >>=
            fun w => .ok { draft with maxPasses := w } := rfl
  simp only [List.map_cons, List.map_nil, List.foldlM_cons, List.foldlM_nil, hhost, hchars,
    hpasses, readWord_tree]
  rfl

theorem put_timeout (draft : Draft) (h : draft.timeout = none) (timeout : Option UInt64) :
    ((Field.optional "timeout_secs" .number timeout).map entry).foldlM (Draft.put d) draft =
      .ok { draft with timeout := timeout.map some } := by
  cases timeout with
  | none => exact congrArg (fun t => Except.ok { draft with timeout := t }) h
  | some w =>
    have hput : Draft.put d draft (entry ("timeout_secs", .number w)) =
        readOnce "timeout_secs" draft.timeout
          (d.optional (Field.number w).tree.node (readWord d)) >>=
            fun w => .ok { draft with timeout := w } := rfl
    change (Draft.put d draft (entry ("timeout_secs", .number w)) >>= pure) = _
    rw [hput, h, d.optional_tree (readWord_tree d w)]
    rfl

theorem put_script (draft : Draft) (h : draft.script = none) (script : Option String) :
    ((Field.optional "user_agent" .text script).map entry).foldlM (Draft.put d) draft =
      .ok { draft with script := script.map some } := by
  cases script with
  | none => exact congrArg (fun s => Except.ok { draft with script := s }) h
  | some s =>
    have hput : Draft.put d draft (entry ("user_agent", .text s)) =
        readOnce "user_agent" draft.script (d.optional (Field.text s).tree.node d.asText) >>=
          fun s => .ok { draft with script := s } := rfl
    have hread : d.asText (Field.text s).tree.node = .ok s := rfl
    change (Draft.put d draft (entry ("user_agent", .text s)) >>= pure) = _
    rw [hput, h, d.optional_tree hread]
    rfl

/-- **Settings are read back.** -/
theorem read_tree (s : Settings) : read d s.tree.node = .ok s := by
  have hentries : (Field.mapping s.fields).map Tree.entryNode = s.fields.map entry := List.map_map
  have hfold : (s.fields.map entry).foldlM (Draft.put d) {} = .ok { s.requiredDraft with
      timeout := s.timeout.map some, script := s.script.map some } := by
    have htimeout := put_timeout d s.requiredDraft rfl s.timeout
    rw [fields, List.map_append, List.map_append, List.foldlM_append, List.foldlM_append,
      put_required]
    simp only [bind, Except.bind, htimeout]
    exact put_script d _ rfl s.script
  rw [read, tree, d.asMapping_tree, hentries]
  simp only [bind, Except.bind, hfold]
  obtain ⟨host, maxChars, maxPasses, timeout, script⟩ := s
  cases timeout <;> cases script <;> rfl

end Range.Settings

/-! ### Configurations -/

namespace Config

variable (d : Document)

theorem mapM_asText (texts : List String) :
    ((texts.map Tree.text).map Yaml.Tree.node).mapM d.asText = .ok texts := by
  induction texts with
  | nil => rfl
  | cons s texts ih =>
    have htext : d.asText (Tree.text s).node = .ok s := rfl
    rw [List.map_cons, List.map_cons, List.mapM_cons, htext, ih]
    rfl

theorem readEntries_trees (entries : List SourceEntry) (budget : Nat) :
    readEntries d ((entries.map SourceEntry.tree).map Yaml.Tree.node) budget = .ok entries := by
  induction entries with
  | nil => rfl
  | cons e entries ih =>
    have hentry : SourceEntry.read d entryDepth e.tree.node budget = .ok (e, budget) :=
      SourceEntry.read_tree d 125 e budget
    rw [List.map_cons, List.map_cons, readEntries, hentry]
    simp only [bind, Except.bind, ih]
    rfl

/-- The draft of a configuration before its range server and its sources have been read. -/
def plainDraft (c : Config) : Draft where
  directory := some c.directory
  format := some c.format
  clean := some c.clean
  kept := some c.kept

theorem put_plain (c : Config) :
    ([("output_dir", Tree.text c.directory), ("output_format", .text c.format),
      ("clean", .bool c.clean), ("protected", .sequence (c.kept.map .text))].map
        Tree.entryNode).foldlM (Draft.put d) {} = .ok c.plainDraft := by
  have hdirectory : Draft.put d {} (Tree.entryNode ("output_dir", .text c.directory)) =
      .ok { directory := some c.directory } := rfl
  have hformat (draft : Draft) :
      Draft.put d draft (Tree.entryNode ("output_format", .text c.format)) =
        readOnce "output_format" draft.format (.ok c.format) >>=
          fun s => .ok { draft with format := s } := rfl
  have hclean (draft : Draft) : Draft.put d draft (Tree.entryNode ("clean", .bool c.clean)) =
      readOnce "clean" draft.clean (d.asBool (Tree.bool c.clean).node) >>=
        fun b => .ok { draft with clean := b } := rfl
  have hkept (draft : Draft) :
      Draft.put d draft (Tree.entryNode ("protected", .sequence (c.kept.map .text))) =
        readOnce "protected" draft.kept
          (d.asSequence (Tree.sequence (c.kept.map .text)).node >>= List.mapM d.asText) >>=
            fun texts => .ok { draft with kept := texts } := rfl
  have htexts : d.asSequence (Tree.sequence (c.kept.map .text)).node >>= List.mapM d.asText =
      .ok c.kept := by
    rw [d.asSequence_tree]
    exact mapM_asText d c.kept
  simp only [List.map_cons, List.map_nil, List.foldlM_cons, List.foldlM_nil, hdirectory, hformat,
    hclean, hkept, d.asBool_tree, htexts]
  rfl

theorem put_range (draft : Draft) (h : draft.range = none) (range : Option Range.Settings) :
    ((range.map fun s => ("range", s.tree)).toList.map Tree.entryNode).foldlM (Draft.put d)
      draft = .ok { draft with range := range.map some } := by
  cases range with
  | none => exact congrArg (fun r => Except.ok { draft with range := r }) h
  | some s =>
    have hput : Draft.put d draft (Tree.entryNode ("range", s.tree)) =
        readOnce "range" draft.range (d.optional s.tree.node (Range.Settings.read d)) >>=
          fun s => .ok { draft with range := s } := rfl
    have hread : d.optional s.tree.node (Range.Settings.read d) = .ok (some s) := by
      have hnull : d.isNull s.tree.node = .ok false := rfl
      rw [Document.optional, hnull, Range.Settings.read_tree]
      rfl
    change (Draft.put d draft (Tree.entryNode ("range", s.tree)) >>= pure) = _
    rw [hput, h, hread]
    rfl

theorem put_sources (draft : Draft) (h : draft.sources = none) (sources : List SourceEntry) :
    Draft.put d draft (Tree.entryNode ("sources", .sequence (sources.map SourceEntry.tree))) =
      .ok { draft with sources := some sources } := by
  have hput : Draft.put d draft
      (Tree.entryNode ("sources", .sequence (sources.map SourceEntry.tree))) =
        readOnce "sources" draft.sources
          (d.asSequence (Tree.sequence (sources.map SourceEntry.tree)).node >>=
            fun items => readEntries d items d.budget) >>=
              fun entries => .ok { draft with sources := entries } := rfl
  have hentries : (d.asSequence (Tree.sequence (sources.map SourceEntry.tree)).node >>=
      fun items => readEntries d items d.budget) = .ok sources := by
    rw [d.asSequence_tree]
    exact readEntries_trees d sources d.budget
  rw [hput, h, hentries]
  rfl

theorem read_tree (c : Config) : read d (some c.tree.node) = .ok c := by
  have hfold : (c.entries.map Tree.entryNode).foldlM (Draft.put d) {} = .ok { c.plainDraft with
      range := c.range.map some, sources := some c.sources } := by
    have hrange := put_range d c.plainDraft rfl c.range
    rw [entries, List.map_append, List.map_append, List.foldlM_append, List.foldlM_append,
      put_plain]
    simp only [bind, Except.bind, hrange, List.map_cons, List.map_nil, List.foldlM_cons,
      List.foldlM_nil]
    rw [put_sources d _ rfl]
    rfl
  have hentries : d.asMapping c.tree.node = .ok (c.entries.map Tree.entryNode) :=
    d.asMapping_tree c.entries
  rw [read, hentries]
  simp only [bind, Except.bind, hfold]
  obtain ⟨directory, format, clean, kept, range, sources⟩ := c
  cases range <;> rfl

theorem hasWords_tree (c : Config) : c.tree.HasWords := by
  refine Tree.entriesHaveWords_iff.2 fun e he => ?_
  simp only [entries, List.mem_append, List.mem_cons, List.not_mem_nil, or_false,
    Option.mem_toList, Option.map_eq_some_iff] at he
  rcases he with ((rfl | rfl | rfl | rfl) | ⟨s, -, rfl⟩) | rfl
  · trivial
  · trivial
  · exact ⟨(isWord_bool c.clean).ne_nil, (isWord_bool c.clean).plain⟩
  · refine Tree.itemsHaveWords_iff.2 fun item hitem => ?_
    obtain ⟨s, -, rfl⟩ := List.mem_map.1 hitem
    trivial
  · exact Field.hasWords_mapping s.fields
  · refine Tree.itemsHaveWords_iff.2 fun item hitem => ?_
    obtain ⟨entry, -, rfl⟩ := List.mem_map.1 hitem
    exact Field.hasWords_mapping entry.fields

/-- **The text of a configuration is read as the configuration**, be it sound or not. -/
theorem readWhole_text (c : Config) : Document.readWhole c.text read = .ok c := by
  have hne : c.entries ≠ [] := List.append_ne_nil_of_left_ne_nil (by simp) _
  obtain ⟨budget, hdocument⟩ := Yaml.Tree.ofText_document hne c.hasWords_tree
  exact Document.readWhole_eq_ok hdocument rfl (read_tree _ c)

/-- The text of a configuration is accepted if the configuration is sound. -/
theorem ofText_written (c : Config) : ofText c.text = c.check.map fun _ => c := by
  have hread : (Document.readWhole c.text read).mapError ConfigFault.yaml = .ok c := by
    rw [readWhole_text]
    rfl
  simp only [ofText, hread, bind, Except.bind]
  cases c.check <;> rfl

/-- **A sound configuration survives being saved and loaded**: its text is read as the
configuration that it was. -/
theorem ofText_text {c : Config} (h : c.check = .ok ()) : ofText c.text = .ok c := by
  rw [ofText_written, h]
  rfl

/-- A configuration with entries of all types, and with texts that would mean something else if
they stood without quotes. -/
def everyType : Config where
  directory := "12"
  format := "null"
  clean := false
  kept := ["^version\\.yaml$", ""]
  range := some {
    host := "~", maxChars := 0, timeout := some 18446744073709551615, script := some "true" }
  sources := [
    { origin := .directory "/srv/range", policy := .override },
    { origin := .git "1e3" "" (some "0x10"), name := some "" },
    { origin := .git "repo: a" "range" none },
    { origin := .svn "svn://host/a b" "# x", policy := .nomerge, name := some "two\nlines" },
    { origin := .listing "http://host/" "\\.yaml$" (some 30) },
    { origin := .listing "http://host/" "" none, name := some "null" },
    { origin := .stamp },
    { origin := .membership, name := some "off" }]

theorem ofText_text_everyType : everyType.check = .ok () ∧ ofText everyType.text = .ok everyType :=
  ⟨by rfl, ofText_text (by rfl)⟩

end Config

end ClusterSync
