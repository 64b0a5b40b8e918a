import ApiHandbook.Aggregate
import ApiHandbook.Data.Json

/-! The data that the viewer page displays, and its JSON text. -/
namespace ApiHandbook
open Text

structure Payload where
  data : Aggregate
  title : String
  version : String
  description : String
  noDocText : String
  /-- Where the page that asks for the data comes from, or nothing. -/
  host : String
  deriving DecidableEq, Repr

def isSchemeChar (c : Char) : Bool := c.isAlphanum || c == '+' || c == '-' || c == '.'

def endsAuthority (c : Char) : Bool := c == '/' || c == '?' || c == '#'

/-- Scheme and authority of an absolute URL; nothing for any other text. -/
def hostOfReferrer (referrer : String) : String :=
  match cut? [':', '/', '/'] (trim referrer.toList) with
  | some (scheme, rest) =>
    let authority := rest.takeWhile fun c => !endsAuthority c
    if scheme.isEmpty || !scheme.all isSchemeChar || authority.isEmpty then ""
    else String.ofList (scheme ++ [':', '/', '/'] ++ authority)
  | none => ""

namespace Entry

def toJson (e : Entry) : Json :=
  .object ([("name", .string e.name), ("name_extra", .string e.nameExtra), ("url", .string e.url)] ++
    (match e.method with | some method => [("method", .string method)] | none => []) ++
    [("doc", .string e.doc), ("doc_md", .string e.docMd), ("router", .string e.router),
      ("api_type", .string e.kind.name)])

end Entry

def Group.toJson (g : Group) : Json :=
  .object [("name_extra", .string g.nameExtra), ("api_type", .string g.kind.name),
    ("children", .array (g.children.map Entry.toJson))]

namespace Payload

def build (settings : Settings) (aggregate : Aggregate) (referrer : Option String) : Payload :=
  { data := aggregate
    title := settings.title
    version := settings.version
    description := settings.description
    noDocText := settings.noDocText
    host := (referrer.map hostOfReferrer).getD "" }

def toJson (p : Payload) : Json :=
  .object [("data", .object (p.data.map fun g => (g.name, g.toJson))), ("title", .string p.title),
    ("version", .string p.version), ("description", .string p.description),
    ("noDocText", .string p.noDocText), ("host", .string p.host)]

def text (p : Payload) : String := p.toJson.compact

end Payload
end ApiHandbook
