import ApiHandbook.Page
import ApiHandbook.Payload

/-! The viewer's endpoints: which paths they are mounted at, and how a request is answered. -/
namespace ApiHandbook
open Text

inductive Endpoint where
  /-- The viewer page. -/
  | index
  /-- The payload. -/
  | data
  deriving DecidableEq, Repr

/-- What a request is answered by. -/
structure Request where
  path : String
  headers : List (String × String) := []
  deriving DecidableEq, Repr

/-- The value of the first header of that name, whatever its case. -/
def Request.header? (r : Request) (name : String) : Option String :=
  (r.headers.find? fun header => sameIgnoringCase header.1.toList name.toList).map Prod.snd

structure Response where
  status : Nat
  contentType : String
  body : String
  deriving DecidableEq, Repr

def Response.json (status : Nat) (body : String) : Response := ⟨status, "application/json", body⟩

def Response.refusal (status : Nat) (reason : String) : Response :=
  .json status (Json.object [("error", .string reason)]).compact

/-- The header that carries the digest of the viewer's password. -/
def passwordHeader : String := "Auth-Password-SHA2"

/-- Whether two bytes differ once capitals are mapped to small letters: zero if not. -/
def byteDifference (a b : UInt8) : UInt8 :=
  let lower (x : UInt8) : UInt8 := if 65 ≤ x && x ≤ 90 then x + 32 else x
  lower a ^^^ lower b

/-- Compares digests up to case; every byte is looked at, whatever the earlier ones were. -/
def digestsMatch (supplied expected : String) : Bool :=
  let supplied := (mapped trim supplied).toUTF8.toList
  let expected := expected.toUTF8.toList
  supplied.length == expected.length &&
    (supplied.zip expected).foldl (fun seen (a, b) => seen ||| byteDifference a b) 0 == 0

namespace Settings

/-- The mount path without trailing slashes. -/
def mountPath (s : Settings) : String := mapped (dropEndWhile (· == '/')) s.urlPrefix

/-- The paths to mount; none when the documentation is off. -/
def endpoints (s : Settings) : List (String × Endpoint) :=
  if s.enable then [(s.mountPath ++ "/", .index), (s.mountPath ++ "/data", .data)] else []

/-- The endpoint that a path leads to; a query is no part of the path, and a trailing slash may be missing. -/
def endpointAt? (s : Settings) (path : String) : Option Endpoint :=
  let path := mapped (fun p => p.takeWhile (· != '?')) path
  (s.endpoints.find? fun mounted =>
    mounted.1 == path || mapped (dropEndWhile (· == '/')) mounted.1 == path).map Prod.snd

/-- Whether a request may read the data. -/
def admits (s : Settings) (request : Request) : Bool :=
  match s.passwordDigest with
  | some expected => digestsMatch ((request.header? passwordHeader).getD "") expected
  | none => true

/-- The answer of the data endpoint. -/
def answerData (s : Settings) (request : Request) (source : RouteSource) : Response :=
  if s.admits request then
    .json 200 (Payload.build s (Aggregate.build s source) (request.header? "Referer")).text
  else .refusal 401 "Unauthorized"

/-- The answer to a request under valid settings. -/
def answer (s : Settings) (request : Request) (source : RouteSource) : Response :=
  match s.endpointAt? request.path with
  | some .index => ⟨200, "text/html; charset=utf-8", Page.index s⟩
  | some .data => s.answerData request source
  | none => .refusal 404 "Not Found"

/-- The service mounts only under valid settings. -/
def mount (s : Settings) : Except SettingsFault (List (String × Endpoint)) := do
  s.validate
  pure s.endpoints

def serve (s : Settings) (request : Request) (source : RouteSource) : Except SettingsFault Response := do
  s.validate
  pure (s.answer request source)

end Settings
end ApiHandbook
