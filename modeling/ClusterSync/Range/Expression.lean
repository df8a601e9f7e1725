/-
# Range expressions and how they are cut

An expression names machines and clusters: items joined with commas. A query
carries the expression in its address, so one that is longer than a limit is
cut into chunks that are asked one by one.

* The items are what stands between commas, empty ones left out, in byte order.
* An item costs its length and one more byte for the comma behind it.
* A chunk takes items as long as their cost stays within the limit. An item that
  is too long by itself gets a chunk of its own.
-/

import ClusterSync.Text.Blank
import ClusterSync.Text.Order

namespace ClusterSync
namespace Range

/-- A range expression. -/
structure Expression where
  text : String
deriving DecidableEq

namespace Expression

/-- The expression for several at once: their texts joined with commas. -/
def ofItems (items : List String) : Expression := ⟨Text.join "," items⟩

/-- Its length in bytes. -/
def size (e : Expression) : Nat := Text.size e.text

/-- Is there nothing in it? -/
def isEmpty (e : Expression) : Bool := e.size == 0

/-- The items of an expression in the order in which they stand, without empty ones. -/
def items (e : Expression) : List String :=
  ((Text.splitOn ',' e.text.toList).filter (!·.isEmpty)).map String.ofList

/-- What an item takes up in a chunk. -/
def cost (item : String) : Nat := Text.size item + 1

/-- Packs items from the left. `chunk` holds those of the open chunk, last one
first, and `used` is their cost. -/
def pack (limit : Nat) (chunk : List String) (used : Nat) : List String → List (List String)
  | [] => if chunk.isEmpty then [] else [chunk.reverse]
  | item :: rest =>
    if !chunk.isEmpty && used + cost item > limit then
      chunk.reverse :: pack limit [item] (cost item) rest
    else
      pack limit (item :: chunk) (used + cost item) rest

/-- The chunks of an expression, in byte order of their items. -/
def chunks (e : Expression) (limit : Nat) : List (List String) :=
  pack limit [] 0 (Text.sort e.items)

end Expression
end Range
end ClusterSync
