/-
# Arguments of a command line

Arguments are words and switches. A switch has a long name behind `--`, and it may have a
short one behind `-`; some need a value.

| written | means |
| --- | --- |
| `--name` | the switch |
| `--name value`, `--name=value` | the switch with a value |
| `-n` | the switch by its short name |
| `-n value`, `-nvalue`, `-n=value` | the same with a value |
| `-nm` | two switches, of which the first needs no value |
| `--` | all that follows are words |
| `-` and everything else | a word |

A value in an argument of its own does not begin with a dash, unless it is one. No switch is
given twice. `--help` ends it all, if nothing before it is wrong.
-/

namespace ClusterSync
namespace Arguments

/-- A switch. -/
structure Switch where
  long : String
  short : Option Char := none
  /-- Which values may be given with it, if it needs one. -/
  value : Option (String → Bool) := none

/-- Why arguments are not read to their end. -/
inductive Stop
  | help
  | misuse
deriving DecidableEq

/-- What arguments give: switches by their long names with values, and words. -/
structure Given where
  switches : List (String × String) := []
  words : List String := []
deriving DecidableEq

/-- The switch that asks for help. -/
def help : Switch := { long := "help", short := some 'h' }

namespace Given

/-- Has a switch been given? -/
def has (g : Given) (long : String) : Bool := g.switches.any (·.1 == long)

/-- The value of a switch. -/
def value? (g : Given) (long : String) : Option String := g.switches.lookup long

/-- Notes a switch that needs no value. -/
def flag (g : Given) (s : Switch) : Except Stop Given :=
  if s.long = help.long then .error .help
  else if g.has s.long then .error .misuse
  else .ok { g with switches := g.switches ++ [(s.long, "")] }

/-- Notes a switch with its value. -/
def put (g : Given) (s : Switch) (value : String) : Except Stop Given :=
  if g.has s.long || !(s.value.all (· value)) then .error .misuse
  else .ok { g with switches := g.switches ++ [(s.long, value)] }

/-- Notes a word, if there are not so many yet. -/
def word (most : Nat) (g : Given) (w : String) : Except Stop Given :=
  if g.words.length < most then .ok { g with words := g.words ++ [w] } else .error .misuse

end Given

/-- Is an argument written as a switch? -/
def isSwitch (arg : String) : Bool := arg.startsWith "-" && arg != "-"

/-- A text without what stands in front of its first equals sign, if there is one, and what
does stand there. -/
def splitValue (cs : List Char) : String × Option String :=
  match cs.dropWhile (· != '=') with
  | [] => (String.ofList cs, none)
  | _ :: value => (String.ofList (cs.takeWhile (· != '=')), some (String.ofList value))

/-- Reads a switch by its long name. The second part is a switch whose value is still to
come. -/
def readLong (switches : List Switch) (g : Given) (cs : List Char) :
    Except Stop (Given × Option Switch) :=
  let (name, attached) := splitValue cs
  match switches.find? (·.long == name), attached with
  | none, _ => .error .misuse
  | some s, some value =>
    if s.value.isSome then do return (← g.put s value, none) else .error .misuse
  | some s, none => if s.value.isSome then .ok (g, some s) else do return (← g.flag s, none)

/-- Reads switches by their short names. -/
def readShort (switches : List Switch) : Given → List Char → Except Stop (Given × Option Switch)
  | g, [] => .ok (g, none)
  | g, c :: cs =>
    match switches.find? (·.short == some c) with
    | none => .error .misuse
    | some s =>
      if s.value.isNone then do readShort switches (← g.flag s) cs
      else
        match cs with
        | [] => .ok (g, some s)
        | '=' :: cs => do return (← g.put s (String.ofList cs), none)
        | cs => do return (← g.put s (String.ofList cs), none)

/-- Reads an argument that is written as a switch. -/
def readSwitch (switches : List Switch) (g : Given) (arg : String) :
    Except Stop (Given × Option Switch) :=
  match arg.toList with
  | '-' :: '-' :: cs => readLong switches g cs
  | cs => readShort switches g (cs.drop 1)

/-- Reads arguments to their end; there may be so many words. `open?` is a switch whose
value is still to come. -/
def read (switches : List Switch) (most : Nat) :
    Given → (open? : Option Switch) → List String → Except Stop Given
  | g, none, [] => .ok g
  | _, some _, [] => .error .misuse
  | g, some s, arg :: rest =>
    if isSwitch arg then .error .misuse
    else do read switches most (← g.put s arg) none rest
  | g, none, arg :: rest =>
    if arg = "--" then rest.foldlM (Given.word most) g
    else if isSwitch arg then do
      let (g, open?) ← readSwitch switches g arg
      read switches most g open? rest
    else do read switches most (← g.word most arg) none rest

/-- Reads switches that need no values up to the first word: that word, and what follows. -/
def readCommand (switches : List Switch) : Given → List String → Except Stop (String × List String)
  | _, [] => .error .misuse
  | g, arg :: rest =>
    if arg = "--" then .error .misuse
    else if isSwitch arg then do
      let (g, _) ← readSwitch switches g arg
      readCommand switches g rest
    else .ok (arg, rest)

end Arguments
end ClusterSync
