/-
# From tokens to the tree

The reader takes the tokens one by one and keeps the collections that are open, innermost
first, each with the spot where it stands. A token may first settle what was left open:

1. a node that has to come and is not written is the empty scalar;
2. a sequence without indentation of its own ends at any token but a dash;
3. a key without a colon has the empty scalar for its value.

Then the token does one thing: it begins or ends a collection, is a scalar, moves
on within a collection, or says something about the node that follows.

A document may begin with directives if three dashes follow them. Points may follow
it, and nothing else.
-/

import ClusterSync.Yaml.Node
import ClusterSync.Yaml.Scanner

namespace ClusterSync
namespace Yaml

/-- What is said about a node in front of it. -/
structure Props where
  anchor : Option String := none
  tag : Option String := none
deriving DecidableEq

/-- Kinds of open collections. -/
inductive Shape
  /-- The document itself, which takes one node. -/
  | document
  | blockSequence
  /-- A sequence whose dashes stand in the column of the mapping around it. -/
  | looseSequence
  | blockMapping
  | flowSequence
  | flowMapping
  /-- One key and one value among the items of a flow sequence. -/
  | flowPair
deriving DecidableEq

/-- Where a collection stands. -/
inductive Spot
  /-- In front of an entry or the end. -/
  | entry
  /-- Behind an entry, in front of a comma or the end. -/
  | separator
  /-- An item has to come. -/
  | item
  /-- A key has to come. -/
  | key
  /-- A key has to come that will have no value. -/
  | bareKey
  /-- Behind a key. -/
  | colon
  /-- A value has to come. -/
  | value
  /-- Nothing more may come. -/
  | full
deriving DecidableEq

/-- An open collection. -/
structure Frame where
  shape : Shape
  spot : Spot
  tag : Option String := none
  /-- The number and the order of its anchor. -/
  anchor : Option (Nat × Nat) := none
  /-- The items so far, last one first. -/
  items : List Node := []
  /-- The entries so far, last one first. -/
  entries : List (Node × Node) := []
  /-- The key whose value has to come. -/
  pending : Node := .missing

namespace Frame

/-- Does a node have to come? -/
def wantsNode (f : Frame) : Bool :=
  f.spot == .item || f.spot == .key || f.spot == .bareKey || f.spot == .value

/-- Does the token show that the node which has to come is not written? -/
def skipsNode (f : Frame) (t : Token) : Bool :=
  match f.shape, f.spot with
  | .document, .item =>
    match t with
    | .version .. | .tagDirective .. | .documentStart | .documentEnd | .streamEnd => true
    | _ => false
  | .blockSequence, .item => t == .blockEntry || t == .blockEnd
  | .looseSequence, .item => t == .blockEntry || t == .key || t == .value || t == .blockEnd
  | .blockMapping, .key | .blockMapping, .value => t == .key || t == .value || t == .blockEnd
  | .flowPair, .key => t == .value || t == .flowEntry || t == .flowSequenceEnd
  | .flowPair, .value => t == .flowEntry || t == .flowSequenceEnd
  | .flowMapping, .key => t == .value || t == .flowEntry || t == .flowMappingEnd
  | .flowMapping, .value => t == .flowEntry || t == .flowMappingEnd
  | _, _ => false

/-- May the node that has to come be a block collection? -/
def takesBlock (f : Frame) : Bool :=
  match f.shape with
  | .document | .blockSequence | .looseSequence | .blockMapping => true
  | _ => false

/-- May the node that has to come be a sequence without indentation? -/
def takesLoose (f : Frame) : Bool := f.shape == .blockMapping

/-- The node that the frame has become. -/
def node (f : Frame) : Node :=
  match f.shape with
  | .blockMapping | .flowMapping | .flowPair => .mapping f.tag f.entries.reverse
  | .document => f.items.head?.getD .missing
  | _ => .sequence f.tag f.items.reverse

/-- The frame with the node that had to come. -/
def receive (f : Frame) (n : Node) : Frame :=
  match f.spot with
  | .key => { f with spot := .colon, pending := n }
  | .bareKey => { f with spot := .separator, entries := (n, .missing) :: f.entries }
  | .value =>
    { f with
      spot := if f.shape == .blockMapping then .entry
        else if f.shape == .flowPair then .full else .separator
      entries := (f.pending, n) :: f.entries }
  | _ =>
    { f with
      spot := if f.shape == .document then .full
        else if f.shape == .flowSequence then .separator else .entry
      items := n :: f.items }

/-- The frame with a broken node where it stands. -/
def breakOff (f : Frame) (inner : Node) : Node :=
  match f.shape, f.spot with
  | .document, _ => inner
  | .blockMapping, .colon | .blockMapping, .value | .flowMapping, .colon | .flowMapping, .value
  | .flowPair, .colon | .flowPair, .value =>
    .mapping f.tag ((f.pending, inner) :: f.entries).reverse
  | .blockMapping, _ | .flowMapping, _ | .flowPair, _ =>
    .mapping f.tag ((inner, .broken) :: f.entries).reverse
  | _, _ => .sequence f.tag (inner :: f.items).reverse

end Frame

/-- A reader at work. -/
structure Reader where
  frames : List Frame
  /-- What has been said about the node that has to come. -/
  props : Option Props := none
  /-- What handles of tags stand for. -/
  handles : List (String × String) := []
  /-- The names of anchors and their numbers. -/
  names : List (String × Nat) := []
  /-- How many nodes with anchors have begun. -/
  begun : Nat := 0
  anchored : List Anchored := []

namespace Reader

/-- The reader with a node for the innermost collection. A pair that is full becomes an
item of the sequence around it. -/
def accept (r : Reader) (n : Node) : Reader :=
  match r.frames with
  | [] => r
  | f :: rest =>
    let f := f.receive n
    match f.shape, f.spot, rest with
    | .flowPair, .full, g :: rest => { r with frames := g.receive f.node :: rest, props := none }
    | _, _, _ => { r with frames := f :: rest, props := none }

/-- The reader with the anchored node noted. -/
def note (r : Reader) (anchor : Option (Nat × Nat)) (n : Node) : Reader :=
  match anchor with
  | some (number, order) => { r with anchored := ⟨number, order, n⟩ :: r.anchored }
  | none => r

/-- Ends the innermost collection. -/
def close (r : Reader) : Reader :=
  match r.frames with
  | f :: rest => ({ r with frames := rest }.note f.anchor f.node).accept f.node
  | [] => r

/-- Takes up the anchor of a node that begins: its number and its order. -/
def beginNode (r : Reader) : Reader × Option (Nat × Nat) :=
  match r.props.bind (·.anchor) with
  | none => (r, none)
  | some name =>
    let number := r.names.length
    let others := r.names.filter (·.1 != name)
    ({ r with names := (name, number) :: others, begun := r.begun + 1 }, some (number, r.begun))

/-- The tag of the node that has to come. -/
def tag (r : Reader) : Option String := r.props.bind (·.tag)

/-- The reader with a scalar read. The tag `!` on a scalar says nothing. -/
def scalar (r : Reader) (style : Style) (text : String) : Reader :=
  let tag := r.tag.filter (· != "!")
  let (r, anchor) := r.beginNode
  let n : Node := .scalar tag style text
  (r.note anchor n).accept n

/-- The reader with a collection begun. -/
def openNode (r : Reader) (shape : Shape) (spot : Spot) : Reader :=
  let tag := r.tag
  let (r, anchor) := r.beginNode
  { r with frames := { shape, spot, tag, anchor } :: r.frames, props := none }

/-- The reader with the innermost collection at another spot. -/
def moveTo (r : Reader) (spot : Spot) : Reader :=
  match r.frames with
  | f :: rest => { r with frames := { f with spot } :: rest }
  | [] => r

/-- Does the token go on with the node about which something has been said? -/
def goesOn (f : Frame) (p : Props) : Token → Bool
  | .anchor _ => p.anchor.isNone
  | .tag .. => p.tag.isNone
  | .scalar .. | .flowSequenceStart | .flowMappingStart => true
  | .blockSequenceStart | .blockMappingStart => f.takesBlock
  | .blockEntry => f.takesLoose
  | _ => false

/-- A node that is not written. -/
def fillNode (r : Reader) (t : Token) : Reader :=
  match r.frames, r.props with
  | f :: _, none => if f.skipsNode t then r.accept .missing else r
  | f :: _, some p => if goesOn f p t then r else r.scalar .plain ""
  | [], _ => r

/-- The end of a sequence without indentation. -/
def closeLoose (r : Reader) (t : Token) : Reader :=
  match r.frames with
  | f :: _ =>
    if f.shape == .looseSequence && f.spot == .entry && t != .blockEntry then r.close else r
  | [] => r

/-- A key without a colon. -/
def fillValue (r : Reader) (t : Token) : Reader :=
  match r.frames with
  | f :: _ =>
    if f.spot == .colon && t != .value then (r.moveTo .value).accept .missing else r
  | [] => r

/-- What the handle of a tag stands for. -/
def resolveTag? (r : Reader) (handle suffix : String) : Option String :=
  if handle.isEmpty then some suffix
  else ((r.handles ++ [("!", "!"), ("!!", "tag:yaml.org,2002:")]).find? (·.1 == handle)).map
    (·.2 ++ suffix)

/-- A token where a node has to come. -/
def shiftNode? (r : Reader) (f : Frame) (t : Token) : Option Reader :=
  let p := r.props.getD {}
  match t with
  | .anchor name =>
    if p.anchor.isNone then some { r with props := some { p with anchor := some name } } else none
  | .tag handle suffix =>
    if p.tag.isNone then
      (r.resolveTag? handle suffix).map fun tag =>
        { r with props := some { p with tag := some tag } }
    else none
  | .alias name =>
    if r.props.isSome then none
    else (r.names.find? (·.1 == name)).map fun e => r.accept (.alias e.2)
  | .scalar style text => some (r.scalar style text)
  | .flowSequenceStart => some (r.openNode .flowSequence .entry)
  | .flowMappingStart => some (r.openNode .flowMapping .entry)
  | .blockSequenceStart => if f.takesBlock then some (r.openNode .blockSequence .entry) else none
  | .blockMappingStart => if f.takesBlock then some (r.openNode .blockMapping .entry) else none
  | .blockEntry => if f.takesLoose then some (r.openNode .looseSequence .item) else none
  | _ => none

/-- One token, once nothing is left open. -/
def shift? (r : Reader) (t : Token) : Option Reader :=
  match r.frames with
  | [] => none
  | f :: _ =>
    if f.wantsNode then r.shiftNode? f t
    else
      match f.shape, f.spot, t with
      | .blockSequence, .entry, .blockEntry | .looseSequence, .entry, .blockEntry =>
        some (r.moveTo .item)
      | .blockSequence, .entry, .blockEnd | .blockMapping, .entry, .blockEnd => some r.close
      | .blockMapping, .entry, .key | .flowMapping, .entry, .key => some (r.moveTo .key)
      | _, .colon, .value => some (r.moveTo .value)
      | .flowSequence, .entry, .flowSequenceEnd | .flowSequence, .separator, .flowSequenceEnd
      | .flowMapping, .entry, .flowMappingEnd | .flowMapping, .separator, .flowMappingEnd =>
        some r.close
      | _, .separator, .flowEntry => some (r.moveTo .entry)
      | .flowSequence, .entry, .key => some (r.openNode .flowPair .key)
      | .flowSequence, .entry, t => (r.moveTo .item).shiftNode? f t
      | .flowMapping, .entry, t => (r.moveTo .bareKey).shiftNode? f t
      | .document, .full, .documentEnd | .document, .full, .streamEnd => some r
      | _, _, _ => none

/-- One token. -/
def feed? (r : Reader) (t : Token) : Option Reader :=
  (((r.fillNode t).closeLoose t).fillValue t).shift? t

/-- All tokens, up to one that does not fit: the reader there, and whether it is the end. -/
def feedAll (r : Reader) : List Token → Reader × Bool
  | [] => (r, true)
  | t :: rest =>
    match r.feed? t with
    | some r => feedAll r rest
    | none => (r, false)

/-- The tree that an unfinished reader has read. -/
def brokenRoot (r : Reader) : Node :=
  r.frames.foldl (fun inner f => f.breakOff inner) .broken

/-- The document of a reader. -/
def document (r : Reader) (whole : Bool) (budget : Nat) : Document :=
  match r.frames with
  | [f] =>
    if f.spot == .full then ⟨some f.node, r.anchored, whole, budget⟩
    else ⟨some .broken, r.anchored, false, budget⟩
  | _ => ⟨some r.brokenRoot, r.anchored, false, budget⟩

/-- The reader in front of a document. -/
def start (handles : List (String × String)) : Reader :=
  { frames := [{ shape := .document, spot := .item }], handles }

/-- Reads the directives of a document and the three dashes behind them; without
directives the dashes may be left out, and then a node has to come. `directives` says
that there has been one, and `versioned` that it was the version. -/
def begin? (handles : List (String × String)) (directives versioned : Bool) :
    List Token → Option (Reader × List Token)
  | .version major minor :: rest =>
    if versioned || major ≠ 1 || (minor ≠ 1 && minor ≠ 2) then none
    else begin? handles true true rest
  | .tagDirective handle text :: rest =>
    if handles.any (·.1 == handle) then none
    else begin? (handles ++ [(handle, text)]) true versioned rest
  | .documentStart :: rest => some (start handles, rest)
  | .documentEnd :: _ => none
  | tokens => if directives then none else some (start handles, tokens)

end Reader

/-- The document that tokens make up; `ended` says that the text was read to its end. -/
def Document.ofTokens (tokens : List Token) (ended : Bool) : Document :=
  if tokens = [.streamEnd] then { root := none, whole := true }
  else
    match Reader.begin? [] false false tokens with
    | none => { root := some .broken, whole := false }
    | some (r, rest) =>
      let (r, fits) := r.feedAll rest
      r.document (ended && fits) (100 * tokens.length)

/-- The document of a text. -/
def Document.ofText (text : String) : Document :=
  let (tokens, ended) := tokensOf text.toList
  .ofTokens tokens ended

end Yaml
end ClusterSync
