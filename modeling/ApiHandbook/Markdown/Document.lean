import ApiHandbook.Aggregate
import ApiHandbook.Markdown.Demotion

/-! The documentation as one markdown text: the title at level one, groups at level two, entries at level three, and the
headings of markdown blocks below them. -/
namespace ApiHandbook.Markdown
open Text

/-- The level of the headings of entries. -/
def entryLevel : Nat := 3

/-- A list item in a code span. -/
def codeItem (word : List Char) : List Char :=
  let tick := Char.ofNat 0x60
  ['-', ' ', tick] ++ word ++ [tick, '\n']

/-- A list of words under a bold label. -/
def labelledWords (label : String) (text : String) : List Char :=
  "**".toList ++ label.toList ++ "**\n\n".toList ++ (words text.toList).flatMap codeItem ++ ['\n']

def entryText (e : Entry) : List Char :=
  let fence := fenceAround e.doc.toList
  "### ".toList ++ e.name.toList ++ "\n\n".toList ++
    labelledWords "URL" e.url ++
    (match e.kind with
      | .api => labelledWords "Method" (e.method.getD "")
      | .restfulApi => []) ++
    fence ++ "doc\n".toList ++ e.doc.toList ++ '\n' :: fence ++ "\n\n".toList ++
    (if isBlankText e.docMd.toList then []
      else demoteHeadings entryLevel e.docMd.toList ++ "\n\n".toList)

def groupHeading (g : Group) : List Char :=
  if g.nameExtra.isEmpty then g.name.toList
  else g.name.toList ++ '(' :: g.nameExtra.toList ++ [')']

def groupText (g : Group) : List Char :=
  "## ".toList ++ groupHeading g ++ "\n\n".toList ++ g.children.flatMap entryText

/-- The title, the version and the description. -/
def preamble (settings : Settings) : List Char :=
  "# ".toList ++ settings.title.toList ++ "\n\n".toList ++
    "> version: ".toList ++ settings.version.toList ++ "\n\n".toList ++
    (if isBlankText settings.description.toList then []
      else trim settings.description.toList ++ "\n\n".toList)

def document (settings : Settings) (aggregate : Aggregate) : String :=
  String.ofList (trimEnd (preamble settings ++ aggregate.flatMap groupText) ++ ['\n'])

end ApiHandbook.Markdown
