import ApiHandbook.Failure
import ApiHandbook.Text.Case

/-! The settings of the documentation and the constraints they must meet. -/
namespace ApiHandbook

structure Settings where
  title : String := "Api Doc"
  version : String := "1.0.0"
  description : String := ""
  /-- Shown wherever a handler has no documentation. -/
  noDocText : String := "No doc found for this Api"
  /-- When off, no documentation endpoint is mounted. -/
  enable : Bool := true
  /-- Whether the viewer page loads its assets from a content delivery network. -/
  cdn : Bool := false
  /-- Replaces the network's stylesheet block unless blank. -/
  cdnCssTemplate : String := ""
  /-- Replaces the network's script block unless blank. -/
  cdnJsTemplate : String := ""
  /-- Where the viewer is mounted. -/
  urlPrefix : String := "/docs/api"
  /-- The modules whose plain handlers are documented. -/
  member : List String := []
  /-- Handlers that stay hidden inside the documented modules. -/
  memberSubExclude : List String := []
  /-- Resource classes that stay hidden. -/
  restfulExclude : List String := []
  /-- The methods that are ever shown, in display order. -/
  methodsList : List String := ["GET", "POST", "PUT", "DELETE", "PATCH"]
  /-- The digest that a reader of the data must send. -/
  passwordDigest : Option String := none
  /-- Whether a table of arguments comes before each markdown block. -/
  argumentTables : Bool := false
  /-- Whether a docstring without delimiters is one markdown block. -/
  allMarkdown : Bool := false
  deriving DecidableEq, Repr

namespace Settings

/-- The methods that a route may expose. -/
def httpMethods : List String := ["GET", "POST", "PUT", "DELETE", "PATCH", "HEAD", "OPTIONS"]

def isHexDigit (c : Char) : Bool :=
  c.isDigit || ('a' ≤ c && c ≤ 'f') || ('A' ≤ c && c ≤ 'F')

def isDigest (s : String) : Bool := s.toList.length == 64 && s.toList.all isHexDigit

/-- Reports the first constraint that the settings break. -/
def validate (s : Settings) : Except SettingsFault Unit :=
  if s.urlPrefix.toList.head? ≠ some '/' then .error (.urlPrefix s.urlPrefix)
  else match s.methodsList.find? fun method => !httpMethods.contains method with
    | some method => .error (.unknownMethod method)
    | none =>
      if s.passwordDigest.all isDigest then .ok () else .error .passwordDigest

/-- The shown methods among those given, in display order. -/
def allowedMethods (s : Settings) (methods : List String) : List String :=
  s.methodsList.filter fun allowed =>
    methods.any fun method => Text.sameIgnoringCase method.toList allowed.toList

end Settings
end ApiHandbook
