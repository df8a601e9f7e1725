/-
# A written tree is read back

From the tokens of a tree the reader makes one node (`Tree.node`), which the collection around it
takes (`feedAll_tokens`). A sequence in the column of its key has no token for its end: it is
still open when the next key or the end of the mapping comes, and ends then
(`feedAll_closeLoose`, `feedAll_loose`). So a document is read as the node of the tree that was
written (`ofText_document`), and read whole.
-/

import ClusterSync.Proofs.Yaml.ScanningTrees
import ClusterSync.Yaml.Reader

namespace ClusterSync
namespace Yaml

namespace Tree

mutual

/-- The node of a tree, with the scalars in the styles in which they are written. -/
def node : Tree → Node
  | word s => .scalar none .plain s
  | text s => .scalar none (Style.ofText s) s
  | sequence items => .sequence none (itemNodes items)
  | mapping entries => .mapping none (entryNodes entries)

def itemNodes : List Tree → List Node
  | [] => []
  | item :: items => node item :: itemNodes items

def entryNodes : List (String × Tree) → List (Node × Node)
  | [] => []
  | (key, value) :: entries =>
    (.scalar none (Style.ofText key) key, node value) :: entryNodes entries

end

end Tree

namespace Reader

variable {f : Frame} {fs : List Frame} {t : Token} {ts : List Token} {r r' : Reader}

/-- A reader with these collections open, in a document without anchors. -/
def within (frames : List Frame) : Reader := { frames }

theorem feedAll_cons (h : r.feed? t = some r') : r.feedAll (t :: ts) = r'.feedAll ts := by
  rw [feedAll, h]

/-! ### Single tokens -/

/-- Does the token begin a node? -/
def beginsNode : Token → Bool
  | .scalar .. | .flowSequenceStart | .flowMappingStart | .blockSequenceStart
  | .blockMappingStart => true
  | _ => false

/-- Where a node has to come, the token for it is taken as it is. -/
theorem feed?_of_beginsNode (hf : f.wantsNode = true) (ht : beginsNode t = true) :
    (within (f :: fs)).feed? t = (within (f :: fs)).shiftNode? f t := by
  have hskip : f.skipsNode t = false := by
    unfold Frame.skipsNode
    cases t <;> first
      | split <;> rfl
      | cases ht
  have hentry : f.spot ≠ .entry := by
    rintro hspot
    simp [Frame.wantsNode, hspot] at hf
  have hcolon : f.spot ≠ .colon := by
    rintro hspot
    simp [Frame.wantsNode, hspot] at hf
  have hfill : (within (f :: fs)).fillNode t = within (f :: fs) := by
    simp [fillNode, within, hskip]
  have hloose : (within (f :: fs)).closeLoose t = within (f :: fs) := by
    simp [closeLoose, within, hentry]
  have hvalue : (within (f :: fs)).fillValue t = within (f :: fs) := by
    simp [fillValue, within, hcolon]
  rw [feed?, hfill, hloose, hvalue, shift?]
  simp [within, hf]

/-- A node goes to the collection in which it has to come. -/
theorem accept_within (hf : f.takesBlock = true) (n : Node) :
    (within (f :: fs)).accept n = within (f.receive n :: fs) := by
  obtain ⟨shape, spot, tag, anchor, items, entries, pending⟩ := f
  cases shape <;> first
    | cases spot <;> rfl
    | cases hf

theorem feed?_scalar (hf : f.wantsNode = true) (hblock : f.takesBlock = true) (style : Style)
    (s : String) : (within (f :: fs)).feed? (.scalar style s) =
      some (within (f.receive (.scalar none style s) :: fs)) := by
  rw [feed?_of_beginsNode hf rfl]
  exact congrArg some (accept_within hblock _)

/-- A sequence that has these items, last one first. -/
def sequenceFrame (shape : Shape) (spot : Spot) (items : List Node) : Frame :=
  { shape, spot, items }

/-- A mapping that has these entries, last one first. -/
def mappingFrame (spot : Spot) (entries : List (Node × Node)) (pending : Node) : Frame :=
  { shape := .blockMapping, spot, entries, pending }

theorem feed?_blockSequenceStart (hf : f.wantsNode = true) (hblock : f.takesBlock = true) :
    (within (f :: fs)).feed? .blockSequenceStart =
      some (within (sequenceFrame .blockSequence .entry [] :: f :: fs)) := by
  rw [feed?_of_beginsNode hf rfl]
  simp [shiftNode?, hblock]
  rfl

theorem feed?_blockMappingStart (hf : f.wantsNode = true) (hblock : f.takesBlock = true) :
    (within (f :: fs)).feed? .blockMappingStart =
      some (within (mappingFrame .entry [] .missing :: f :: fs)) := by
  rw [feed?_of_beginsNode hf rfl]
  simp [shiftNode?, hblock]
  rfl

theorem feedAll_flowSequence (hf : f.wantsNode = true) (hblock : f.takesBlock = true) :
    (within (f :: fs)).feedAll (.flowSequenceStart :: .flowSequenceEnd :: ts) =
      (within (f.receive (.sequence none []) :: fs)).feedAll ts := by
  have hopen : (within (f :: fs)).feed? .flowSequenceStart =
      some (within (sequenceFrame .flowSequence .entry [] :: f :: fs)) := by
    rw [feed?_of_beginsNode hf rfl]
    rfl
  have hclose : (within (sequenceFrame .flowSequence .entry [] :: f :: fs)).feed? .flowSequenceEnd =
      some ((within (f :: fs)).accept (.sequence none [])) := rfl
  rw [feedAll_cons hopen, feedAll_cons hclose, accept_within hblock]

theorem feedAll_flowMapping (hf : f.wantsNode = true) (hblock : f.takesBlock = true) :
    (within (f :: fs)).feedAll (.flowMappingStart :: .flowMappingEnd :: ts) =
      (within (f.receive (.mapping none []) :: fs)).feedAll ts := by
  have hopen : (within (f :: fs)).feed? .flowMappingStart =
      some (within ({ shape := .flowMapping, spot := .entry } :: f :: fs)) := by
    rw [feed?_of_beginsNode hf rfl]
    rfl
  have hclose :
      (within ({ shape := .flowMapping, spot := .entry } :: f :: fs)).feed? .flowMappingEnd =
        some ((within (f :: fs)).accept (.mapping none [])) := rfl
  rw [feedAll_cons hopen, feedAll_cons hclose, accept_within hblock]

/-- **A sequence without an end of its own ends at the next token**, which then finds the
collection around it with the sequence in it. -/
theorem feedAll_closeLoose {items : List Node} {entries : List (Node × Node)} {pending : Node}
    (ht : t = .key ∨ t = .blockEnd) :
    (within (sequenceFrame .looseSequence .entry items :: mappingFrame .value entries pending ::
        fs)).feedAll (t :: ts) =
      (within (mappingFrame .entry ((pending, .sequence none items.reverse) :: entries) pending ::
        fs)).feedAll (t :: ts) := by
  rcases ht with rfl | rfl
  · exact feedAll_cons rfl
  · exact feedAll_cons rfl

end Reader

namespace Tree

open Reader

mutual

/-- **A tree is read as its node**, which the collection around it takes. -/
theorem feedAll_tokens (t : Tree) {f : Frame} {fs : List Frame} {rest : List Token}
    (hf : f.wantsNode = true) (hblock : f.takesBlock = true) :
    (within (f :: fs)).feedAll (t.tokens false ++ rest) =
      (within (f.receive t.node :: fs)).feedAll rest := by
  match t with
  | word s => exact feedAll_cons (feed?_scalar hf hblock .plain s)
  | text s => exact feedAll_cons (feed?_scalar hf hblock _ s)
  | sequence [] => exact feedAll_flowSequence hf hblock
  | mapping [] => exact feedAll_flowMapping hf hblock
  | sequence (item :: items) =>
    have hclose (done : List Node) :
        (within (sequenceFrame .blockSequence .entry done :: f :: fs)).feed? .blockEnd =
          some ((within (f :: fs)).accept (.sequence none done.reverse)) := rfl
    simp only [tokens, Bool.false_eq_true, if_false, List.cons_append, List.append_assoc]
    rw [feedAll_cons (feed?_blockSequenceStart hf hblock),
      feedAll_items (item :: items) (.inl rfl), List.nil_append, feedAll_cons (hclose _),
      accept_within hblock]
    simp [node]
  | mapping (entry :: entries) =>
    have hclose (done : List (Node × Node)) (pending : Node) :
        (within (mappingFrame .entry done pending :: f :: fs)).feed? .blockEnd =
          some ((within (f :: fs)).accept (.mapping none done.reverse)) := rfl
    obtain ⟨pending, hentries⟩ := feedAll_entries (entry :: entries) [] .missing (f :: fs) rest
    simp only [tokens, List.cons_append, List.append_assoc]
    rw [feedAll_cons (feed?_blockMappingStart hf hblock), List.nil_append, hentries,
      feedAll_cons (hclose ..), accept_within hblock]
    simp [node]

/-- A sequence in the column of its key, in front of the next key or the end of the mapping. -/
theorem feedAll_loose (items : List Tree) (hne : items ≠ []) {entries : List (Node × Node)}
    {pending : Node} {fs : List Frame} {u : Token} {rest : List Token}
    (hu : u = .key ∨ u = .blockEnd) :
    (within (mappingFrame .value entries pending :: fs)).feedAll (itemTokens items ++ u :: rest) =
      (within (mappingFrame .entry ((pending, .sequence none (itemNodes items)) :: entries)
        pending :: fs)).feedAll (u :: rest) := by
  match items with
  | [] => exact absurd rfl hne
  | item :: items =>
    have hopen : (within (mappingFrame .value entries pending :: fs)).feed? .blockEntry =
        some (within (sequenceFrame .looseSequence .item [] ::
          mappingFrame .value entries pending :: fs)) := rfl
    have hitem : (sequenceFrame .looseSequence .item []).receive item.node =
        sequenceFrame .looseSequence .entry [item.node] := rfl
    simp only [itemTokens, List.cons_append, List.append_assoc]
    rw [feedAll_cons hopen, feedAll_tokens item rfl rfl, hitem, feedAll_items items (.inr rfl),
      feedAll_closeLoose hu]
    simp [itemNodes]

theorem feedAll_items (items : List Tree) {shape : Shape} {done : List Node} {fs : List Frame}
    {rest : List Token} (hshape : shape = .blockSequence ∨ shape = .looseSequence) :
    (within (sequenceFrame shape .entry done :: fs)).feedAll (itemTokens items ++ rest) =
      (within (sequenceFrame shape .entry ((itemNodes items).reverse ++ done) :: fs)).feedAll
        rest := by
  match items with
  | [] => rfl
  | item :: items =>
    have hdash : (within (sequenceFrame shape .entry done :: fs)).feed? .blockEntry =
        some (within (sequenceFrame shape .item done :: fs)) := by
      rcases hshape with rfl | rfl <;> rfl
    have hwants : (sequenceFrame shape .item done).wantsNode = true := rfl
    have hblock : (sequenceFrame shape .item done).takesBlock = true := by
      rcases hshape with rfl | rfl <;> rfl
    have hitem : (sequenceFrame shape .item done).receive item.node =
        sequenceFrame shape .entry (item.node :: done) := by
      rcases hshape with rfl | rfl <;> rfl
    simp only [itemTokens, List.cons_append, List.append_assoc]
    rw [feedAll_cons hdash, feedAll_tokens item hwants hblock, hitem, feedAll_items items hshape]
    simp [itemNodes]

theorem feedAll_entries (entries : List (String × Tree)) (done : List (Node × Node))
    (pending : Node) (fs : List Frame) (rest : List Token) : ∃ pending',
      (within (mappingFrame .entry done pending :: fs)).feedAll
          (entryTokens entries ++ .blockEnd :: rest) =
        (within (mappingFrame .entry ((entryNodes entries).reverse ++ done) pending' :: fs)).feedAll
          (.blockEnd :: rest) := by
  match entries with
  | [] => exact ⟨pending, rfl⟩
  | (key, value) :: entries =>
    have hkey : (within (mappingFrame .entry done pending :: fs)).feed? .key =
        some (within (mappingFrame .key done pending :: fs)) := rfl
    have hcolon (n : Node) : (within (mappingFrame .colon done n :: fs)).feed? .value =
        some (within (mappingFrame .value done n :: fs)) := rfl
    -- what follows the value is a key or the end of the mapping
    obtain ⟨u, more, hmore, hu⟩ : ∃ u more, entryTokens entries ++ .blockEnd :: rest = u :: more ∧
        (u = .key ∨ u = .blockEnd) := by
      cases entries with
      | nil => exact ⟨_, _, rfl, .inr rfl⟩
      | cons entry entries => exact ⟨_, _, rfl, .inl rfl⟩
    obtain ⟨pending', hentries⟩ := feedAll_entries entries
      ((.scalar none (Style.ofText key) key, value.node) :: done)
      (.scalar none (Style.ofText key) key) fs rest
    refine ⟨pending', ?_⟩
    have hscalar : (within (mappingFrame .key done pending :: fs)).feed?
        (.scalar (Style.ofText key) key) =
          some (within (mappingFrame .colon done (.scalar none (Style.ofText key) key) :: fs)) :=
      feed?_scalar rfl rfl _ key
    have hvalue : (within (mappingFrame .value done
        (.scalar none (Style.ofText key) key) :: fs)).feedAll
          (value.tokens (isShortKey key) ++ u :: more) =
      (within (mappingFrame .entry ((.scalar none (Style.ofText key) key, value.node) :: done)
        (.scalar none (Style.ofText key) key) :: fs)).feedAll (u :: more) := by
      cases hloose : isShortKey key with
      | false => exact feedAll_tokens value rfl rfl
      | true =>
        match value with
        | word s => exact feedAll_tokens (word s) rfl rfl
        | text s => exact feedAll_tokens (text s) rfl rfl
        | sequence [] => exact feedAll_tokens (sequence []) rfl rfl
        | mapping [] => exact feedAll_tokens (mapping []) rfl rfl
        | mapping (entry :: entries) => exact feedAll_tokens (mapping (entry :: entries)) rfl rfl
        | sequence (item :: items) =>
          have hne : item :: items ≠ [] := List.cons_ne_nil item items
          exact feedAll_loose (item :: items) hne hu
    simp only [entryTokens, List.cons_append, List.append_assoc, List.nil_append]
    rw [feedAll_cons hkey, feedAll_cons hscalar, feedAll_cons (hcolon _), hmore, hvalue, ← hmore,
      hentries]
    simp [entryNodes]

end

/-- **A document is read as the node of the tree that was written**, and read whole. -/
theorem ofText_document {entries : List (String × Tree)} (hne : entries ≠ [])
    (ht : EntriesHaveWords entries) : ∃ budget,
      Document.ofText (document (mapping entries)) =
        ⟨some (mapping entries).node, [], true, budget⟩ := by
  obtain ⟨entry, entries, rfl⟩ := List.exists_cons_of_ne_nil hne
  have htokens : (mapping (entry :: entries)).tokens false ++ [.streamEnd] =
      .blockMappingStart :: (entryTokens (entry :: entries) ++ [.blockEnd] ++ [.streamEnd]) := by
    simp [tokens]
  have hbegin (ts : List Token) : begin? [] false false (.blockMappingStart :: ts) =
      some (start [], .blockMappingStart :: ts) := rfl
  have hread : (start []).feedAll ((mapping (entry :: entries)).tokens false ++ [.streamEnd]) =
      (within [({ shape := .document, spot := .item } : Frame).receive
        (mapping (entry :: entries)).node], true) :=
    feedAll_tokens (mapping (entry :: entries)) rfl rfl
  rw [htokens] at hread
  apply Exists.intro
  simp only [Document.ofText, tokensOf_document hne ht, htokens, Document.ofTokens, hbegin, hread]
  rw [if_neg (by simp)]
  rfl

end Tree
end Yaml
end ClusterSync
