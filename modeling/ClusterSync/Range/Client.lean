/-
# Asking a range server

A server answers one query at a time, and its answer may depend on all queries
before. `expand` asks for members and `collapse` for the shortest expression; one
that is too long for a single query is asked chunk by chunk.

Collapsing in chunks is done in passes: the answers of a pass, trimmed and joined
with commas, are the expression of the next one. It ends when a pass changes
nothing, and gives up when the limit on passes is used up.

Every operation returns its result together with the queries that have been
asked, latest first; it stops at the first that fails.
-/

import ClusterSync.Range.Expression
import ClusterSync.Range.Percent

namespace ClusterSync
namespace Range

/-- One question to a range server. -/
structure Query where
  mode : Mode
  expr : String
deriving DecidableEq

/-- What a server answers. -/
inductive Reply
  /-- Members. -/
  | members (names : List String)
  /-- A text that is either an expression or members line by line. -/
  | body (text : String)
deriving DecidableEq

/-- Why a query has no answer. -/
inductive QueryError
  | connection (url reason : String)
  | badStatus (status : Nat) (url : String)
  | server (reason : String)
  | invalidResponse (url reason : String)
  | collapseDiverged (passes size : Nat)
deriving DecidableEq

/-- The wording of a failure. -/
def QueryError.message : QueryError → String
  | .connection url reason => s!"Connection to {url} failed: {reason}"
  | .badStatus status url => s!"Got {status} response code from {url}"
  | .server reason => s!"Range server exception: {reason}"
  | .invalidResponse url reason => s!"Invalid response from {url}: {reason}"
  | .collapseDiverged passes size =>
    s!"Collapse did not converge after {passes} iterations (last: {size} chars)"

/-- The members listed in a text: its lines without white space at their ends, in
byte order. -/
def parseList (body : String) : List String :=
  Text.sort ((Text.lines body.toList).map fun line =>
    String.ofList (Text.dropEndWhile Text.isBlank line))

namespace Reply

/-- The answer read as members. -/
def toList : Reply → List String
  | members names => names
  | body text => parseList text

/-- The answer read as an expression. -/
def toExpression : Reply → String
  | members names => Text.join "," names
  | body text => text

end Reply

/-- A server: its answer to a query, given the queries before it, latest first. -/
def Server := List Query → Query → Except QueryError Reply

/-- Members as they were asked for: at once, or in one group per chunk. -/
inductive Expansion
  | whole (members : List String)
  | chunked (groups : List (List String))
deriving DecidableEq

namespace Expansion

/-- One group per query. -/
def groups : Expansion → List (List String)
  | whole members => [members]
  | chunked groups => groups

/-- How many queries it took. -/
def count (e : Expansion) : Nat := e.groups.length

/-- All members in byte order, each once. -/
def members (e : Expansion) : List String := Text.sortUnique e.groups.flatten

end Expansion

/-- How a client asks: the longest expression that it sends in one query, and how
many passes a collapse may take. -/
structure Limits where
  maxChars : Nat := 7500
  maxPasses : Nat := 32
deriving DecidableEq

/-- The limits from settings: at least one of each. -/
def Limits.ofSettings (maxChars maxPasses : Nat) : Limits :=
  ⟨max maxChars 1, max maxPasses 1⟩

/-- A result and the queries asked so far, latest first. -/
abbrev Asked (α : Type) := Except QueryError α × List Query

namespace Server

/-- Asks one query. -/
def ask (server : Server) (q : Query) (asked : List Query) : Asked Reply :=
  (server asked q, q :: asked)

/-- Asks queries of one mode in turn, up to the first that fails. -/
def askAll (server : Server) (mode : Mode) : List String → List Query → Asked (List Reply)
  | [], asked => (.ok [], asked)
  | expr :: rest, asked =>
    match server.ask ⟨mode, expr⟩ asked with
    | (.error e, asked) => (.error e, asked)
    | (.ok reply, asked) =>
      match askAll server mode rest asked with
      | (.error e, asked) => (.error e, asked)
      | (.ok replies, asked) => (.ok (reply :: replies), asked)

/-- Asks an expression chunk by chunk. -/
def askChunks (server : Server) (limits : Limits) (mode : Mode) (e : Expression)
    (asked : List Query) : Asked (List Reply) :=
  server.askAll mode ((e.chunks limits.maxChars).map (Text.join ",")) asked

/-- The members of an expression. -/
def expand (server : Server) (limits : Limits) (e : Expression) (asked : List Query) :
    Asked Expansion :=
  if e.size ≤ limits.maxChars then
    match server.ask ⟨.list, e.text⟩ asked with
    | (.error err, asked) => (.error err, asked)
    | (.ok reply, asked) => (.ok (.whole reply.toList), asked)
  else
    match server.askChunks limits .list e asked with
    | (.error err, asked) => (.error err, asked)
    | (.ok replies, asked) => (.ok (.chunked (replies.map Reply.toList)), asked)

/-- The members of an expression in byte order, each once. -/
def expandMembers (server : Server) (limits : Limits) (e : Expression) (asked : List Query) :
    Asked (List String) :=
  match server.expand limits e asked with
  | (.error err, asked) => (.error err, asked)
  | (.ok expansion, asked) => (.ok expansion.members, asked)

/-- The next expression from the answers of a pass. -/
def joinPass (replies : List Reply) : String :=
  let parts := replies.map fun r => Text.trim r.toExpression
  String.ofList (Text.stripWhile (· == ',') (Text.join "," parts).toList)

/-- One pass of a collapse in chunks. -/
def pass (server : Server) (limits : Limits) (current : String) (asked : List Query) :
    Asked String :=
  match server.askChunks limits .collapse ⟨current⟩ asked with
  | (.error err, asked) => (.error err, asked)
  | (.ok replies, asked) => (.ok (joinPass replies), asked)

/-- Passes until one changes nothing; `left` more are allowed. -/
def converge (server : Server) (limits : Limits) (previous current : String)
    (asked : List Query) : Nat → Asked String
  | 0 =>
    if previous = current then (.ok current, asked)
    else (.error (.collapseDiverged limits.maxPasses (Text.size current)), asked)
  | left + 1 =>
    if previous = current then (.ok current, asked)
    else
      match server.pass limits current asked with
      | (.error err, asked) => (.error err, asked)
      | (.ok next, asked) => converge server limits current next asked left

/-- The shortest expression that the server gives for the same members. -/
def collapse (server : Server) (limits : Limits) (e : Expression) (asked : List Query) :
    Asked String :=
  if e.size ≤ limits.maxChars then
    match server.ask ⟨.collapse, e.text⟩ asked with
    | (.error err, asked) => (.error err, asked)
    | (.ok reply, asked) => (.ok reply.toExpression, asked)
  else
    converge server limits "" e.text asked limits.maxPasses

end Server
end Range
end ClusterSync
