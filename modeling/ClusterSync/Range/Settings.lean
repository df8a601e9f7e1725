/-
# Settings of a range client

The host of the server, the limits on queries, and how the client names itself in
the `User-Agent` field: `script/version (user; machine)`. A client whose name may
not stand in a header field cannot be made.
-/

import ClusterSync.Range.Client
import ClusterSync.Web
import ClusterSync.Text.Lossy

namespace ClusterSync
namespace Range

/-- Settings of a range client. -/
structure Settings where
  /-- Host and port, with or without `http://` or `https://`. -/
  host : String := "localhost:80"
  maxChars : UInt64 := 7500
  maxPasses : UInt64 := 32
  /-- Seconds that a request may take. -/
  timeout : Option UInt64 := none
  /-- The script that the client names in its requests. -/
  script : Option String := none
deriving DecidableEq

namespace Settings

/-- The address of the server: with a scheme, without slashes at its end. -/
def baseUrl (s : Settings) : String :=
  let host := dropSlashes s.host
  if host.startsWith "http://" || host.startsWith "https://" then host else "http://" ++ host

/-- The limits on queries. -/
def limits (s : Settings) : Limits := .ofSettings s.maxChars.toNat s.maxPasses.toNat

end Settings

/-- The version that clients report. -/
def version : String := "0.1.0"

/-- Who runs the client: the first name that is set and not empty. -/
def userName (names : List (Option String)) : String :=
  ((names.filterMap id).find? (!·.isEmpty)).getD "unknown"

/-- How a client names itself. -/
def userAgent (script user machine : String) : String :=
  s!"{script}/{version} ({user}; {machine})"

/-- The failure of making a client, if its name may not stand in a header field. -/
def Settings.clientError? (s : Settings) : Option QueryError :=
  match s.script with
  | some script =>
    if isHeaderValue script then none
    else some (.connection s.baseUrl "the user agent is not a header value")
  | none => none

/-- The reply to a query from the response to its request. A response with status
200 may report a failure in the field `RangeException`. -/
def replyOf (url : String) (mode : Mode) (r : Response) : Except QueryError Reply :=
  if r.status ≠ 200 then .error (.badStatus r.status url)
  else
    let reason := ((r.header? "RangeException").map Text.ofBytesLossy).getD ""
    if reason ≠ "" then .error (.server reason)
    else if !r.complete then .error (.invalidResponse url "the body breaks off")
    else
      let body := Text.ofBytesLossy r.body
      match mode with
      | .list => .ok (.members (parseList body))
      | .collapse => .ok (.body body)

/-- The range server at a base address of the web. -/
def Server.ofWeb (web : Web) (base : String) : Server := fun _ q =>
  let url := requestUrl base q.expr q.mode
  match web url with
  | .error reason => .error (.connection url reason)
  | .ok response => replyOf url q.mode response

end Range
end ClusterSync
