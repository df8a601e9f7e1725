/-
# The web as seen by one run

A request is an address as it is given to the client, and the response is the one that the
client comes back with. How the client takes the address apart, and which other addresses
it asks on its way when it is redirected, is its own affair: all of that lies between the two.

So every address that is given to the client either brings nothing or has one response. A
response may break off: its head is there and its body cannot be read to the end.

Names of header fields are compared without regard to case, and of two fields with
one name the first counts.
-/

namespace ClusterSync

/-- What the client comes back with, at the end of all redirects. -/
structure Response where
  status : Nat := 200
  headers : List (String × ByteArray) := []
  body : ByteArray := .empty
  /-- Was the body sent to its end? -/
  complete : Bool := true

namespace Response

/-- The value of the first header field of this name. -/
def header? (r : Response) (name : String) : Option ByteArray :=
  (r.headers.find? fun h => h.1.toLower == name.toLower).map (·.2)

/-- Does the status report success? -/
def isSuccess (r : Response) : Bool := 200 ≤ r.status && r.status < 300

end Response

/-- Each address with what the client comes back with when it is given that address: a response,
or the reason why there is none. -/
def Web := String → Except String Response

/-- May a text be the value of a header field? It may hold no control character
except tabs. -/
def isHeaderValue (s : String) : Bool :=
  s.toList.all fun c => (0x20 ≤ c.toNat && c.toNat != 0x7F) || c == '\t'

end ClusterSync
