import ApiHandbook.Argument.Scrape
import ApiHandbook.Argument.Table
import ApiHandbook.Classification

/-! Classified routes merged into groups of entries: a group stands where its first route stands, entries of one name
are united, and the entries of a group are sorted by name. -/
namespace ApiHandbook
open Text

/-- A documented handler, or a documented method of a resource. -/
structure Entry where
  name : String
  nameExtra : String
  /-- URL rules separated by spaces. -/
  url : String
  /-- Methods separated by spaces, for plain handlers only. -/
  method : Option String
  doc : String
  docMd : String
  /-- The name of the owning group. -/
  router : String
  kind : ApiKind
  deriving DecidableEq, Repr

/-- The entries of a module or of a resource class. -/
structure Group where
  name : String
  nameExtra : String
  kind : ApiKind
  children : List Entry
  deriving DecidableEq, Repr

abbrev Aggregate := List Group

/-- All argument records of a handler: structured declarations, then those found in its text. -/
def Handler.argumentRecords (h : Handler) : List Argument.Record :=
  h.declaredRecords.getD [] ++ match h.source with
    | some source => Argument.scrapeDeclarations source h.doc
    | none => []

/-- Appends the words of `addition` that are missing. -/
def unionWords (existing addition : String) : String :=
  String.ofList ([' '].intercalate ((words addition.toList).foldl
    (fun seen word => if seen.contains word then seen else seen ++ [word]) (words existing.toList)))

def joinMethods (methods : List String) : String := " ".intercalate methods

namespace Settings

def docstring (s : Settings) (raw : String) : Docstring := Docstring.split s.noDocText s.allMarkdown raw

/-- The markdown block of a handler, after its table of arguments if tables are wanted. -/
def markdownBlock (s : Settings) (handler : Handler) (block : String) : String :=
  if s.argumentTables then
    match Argument.table? handler.argumentRecords with
    | some table => if block.isEmpty then table else table ++ "\n\n" ++ block
    | none => block
  else block

end Settings

namespace Entry

/-- The entry that a route with a handler opens. -/
def opened (settings : Settings) (r : ClassifiedRoute) (handler : Handler) : Entry :=
  let parts := settings.docstring (handler.docstring.getD "")
  { name := r.name
    nameExtra := match r.kind with | .api => "" | .restfulApi => parts.summary
    url := r.url
    method := match r.kind with | .api => some (joinMethods r.methods) | .restfulApi => none
    doc := match r.kind with | .api => parts.prose | .restfulApi => parts.body
    docMd := settings.markdownBlock handler parts.markdown
    router := r.group
    kind := r.kind }

/-- The entry after a further route of the same name. -/
def merged (e : Entry) (r : ClassifiedRoute) : Entry :=
  { e with
    url := unionWords e.url r.url
    method := e.method.map fun method => unionWords method (joinMethods r.methods) }

end Entry

/-- Merges a route into the entry of its name, or opens one at the end if the route has a handler. -/
def addEntry (settings : Settings) (r : ClassifiedRoute) : List Entry → List Entry
  | [] => match r.handler with
    | some handler => [Entry.opened settings r handler]
    | none => []
  | e :: rest => if e.name = r.name then e.merged r :: rest else e :: addEntry settings r rest

/-- An empty group, named and explained by its first route. -/
def Group.opened (settings : Settings) (r : ClassifiedRoute) : Group :=
  { name := r.group
    nameExtra := match r.groupDoc with
      | some doc => (settings.docstring doc).summary
      | none => ""
    kind := r.kind
    children := [] }

def Group.add (settings : Settings) (r : ClassifiedRoute) (g : Group) : Group :=
  { g with children := addEntry settings r g.children }

namespace Aggregate

/-- Puts a route into the group of its name, or opens that group at the end. -/
def add (settings : Settings) (r : ClassifiedRoute) : Aggregate → Aggregate
  | [] => [(Group.opened settings r).add settings r]
  | g :: rest => if g.name = r.group then g.add settings r :: rest else g :: add settings r rest

def sortEntries (entries : List Entry) : List Entry :=
  entries.mergeSort fun a b => !(decide (b.name < a.name))

/-- The groups of all documented routes, without empty ones. -/
def build (settings : Settings) (source : RouteSource) : Aggregate :=
  let groups := (source.classify settings).foldl (fun groups r => add settings r groups) []
  (groups.filter fun g => !g.children.isEmpty).map fun g => { g with children := sortEntries g.children }

def get? (groups : Aggregate) (name : String) : Option Group := groups.find? fun g => g.name == name

end Aggregate
end ApiHandbook
