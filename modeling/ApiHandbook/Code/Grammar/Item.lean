import ApiHandbook.Code.Grammar.Expression

/-! Items: functions, types, implementations, modules and imports. -/
namespace ApiHandbook.Code

/-! Headings -/

/-- A visibility, if there is one. A group behind `pub` belongs to it only if it holds a single root word or a path
after `in`. -/
def visibility : Reader Unit := do
  if ← word? "pub" then
    match ← ahead with
    | .group .parenthesis [t] _ _ :: _ =>
      if atWord "crate" [t] || atWord "self" [t] || atWord "super" [t] then skip 1
    | .group .parenthesis (.word "in" _ :: _) _ _ :: _ =>
      group .parenthesis do
        word "in"
        let _ ← namePath
    | _ => pure ()

/-- What stands behind the visibility. -/
def beyondVisibility : Reader (List Tree) := do
  match visibility.run ⟨← ahead, []⟩ with
  | some (_, s) => return s.rest
  | none => refuse

/-- The first line of the trees that an item starts with, and the last line of what has been read of them. -/
def spanFrom (start : List Tree) : Reader (Nat × Nat) := do
  let eaten := start.take (start.length - (← ahead).length)
  return ((eaten.head?.map Tree.first).getD 0, (eaten.getLast?.map Tree.last).getD 0)

/-- The attributes in front of an item with the trees from which the item starts. -/
structure Preamble where
  start : List Tree
  attributes : List Attribute
  /-- The expressions inside the attributes. -/
  inner : List Expr

def preamble (g : Grammar) : Reader Preamble := do
  let start ← ahead
  let (attributes, inner) ← collect (outerAttributes g)
  return ⟨start, attributes, inner⟩

def heading (p : Preamble) (name : String) (more : List Attribute) : Reader Heading := do
  let (first, last) ← spanFrom p.start
  return ⟨name, p.attributes ++ more, first, last⟩

/-! Functions -/

/-- The receiver of a method. -/
def receiver (g : Grammar) : Reader Unit := do
  let byReference ← mark? '&'
  if byReference then when? atLifetime lifetime
  let _ ← word? "mut"
  word "self"
  if !byReference then
    if ← mark? ':' then someType g

/-- Reads if the trees ahead have the form; whether they have. -/
def attempt (reader : Reader Unit) : Reader Bool :=
  (do reader; return true) <|> return false

/-- The parameters of a function: only the first may be a receiver, and three dots may stand last. -/
def parameters (g : Grammar) : Reader Unit := do
  go true ((← ahead).length + 1)
where
  dots : List Char := ['.', '.', '.']
  go (isFirst : Bool) : Nat → Reader Unit
    | 0 => refuse
    | fuel + 1 => do
      if ← atEnd then return
      attributes g
      if ← marks? dots then
        if !(← atEnd) then mark ','
        return
      if ← attempt (receiver g) then ensure isFirst
      else
        let ts ← ahead
        if atIdentifier ts && atMark '<' (beyond ts) then someType g
        else
          let _ ← g.pattern
          mark ':'
          if ← marks? dots then
            if !(← atEnd) then mark ','
            return
          someType g
      if ← atEnd then return
      mark ','
      go false fuel

/-- The heading of a function; gives its name. The flag allows the word `safe`. -/
def signature (g : Grammar) (safe : Bool) : Reader String := do
  let _ ← word? "const"
  let _ ← word? "async"
  if !(← word? "unsafe") && safe then
    let _ ← word? "safe"
  if ← word? "extern" then when? atTextLiteral (skip 1)
  word "fn"
  let name ← identifier
  let _ ← generics g
  group .parenthesis (parameters g)
  returnType g true
  let _ ← conditions g
  return name

/-- The body of a function; gives the attributes at its start. -/
def functionBody (g : Grammar) : Reader (List Attribute) :=
  group .brace do
    let inner ← innerAttributes g
    g.statements
    return inner

/-- A function behind its attributes; one without a body is of no interest. -/
def functionItem (g : Grammar) (p : Preamble) (make : Heading → List Expr → Item) : Reader Item := do
  let (read, inner) ← collect do
    visibility
    let _ ← word? "default"
    let name ← signature g false
    if ← mark? ';' then return none
    return some (name, ← functionBody g)
  match read with
  | some (name, more) => return make (← heading p name more) (p.inner ++ inner)
  | none => return .other []

/-! Types -/

def namedField (g : Grammar) : Reader Unit := do
  attributes g
  visibility
  let unnamed ← word? "_"
  if !unnamed then
    let _ ← identifier
  mark ':'
  let ts ← ahead
  if unnamed && (atWord "struct" ts || (atWord "union" ts && atGroup .brace (beyond ts))) then
    skip 1
    ensure (atGroup .brace (← ahead))
    skip 1
  else someType g

def namedFields (g : Grammar) : Reader Unit := do
  let _ ← group .brace (commaSeparated (namedField g))

def unnamedFields (g : Grammar) : Reader Unit := do
  let _ ← group .parenthesis <| commaSeparated do
    attributes g
    visibility
    someType g

def structBody (g : Grammar) : Reader Unit := do
  let conditional ← conditions g
  let ts ← ahead
  if !conditional && atGroup .parenthesis ts then
    unnamedFields g
    let _ ← conditions g
    mark ';'
  else if atGroup .brace ts then namedFields g
  else mark ';'

def structItem (g : Grammar) (p : Preamble) : Reader Item := do
  let (name, inner) ← collect do
    visibility
    word "struct"
    let name ← identifier
    let _ ← generics g
    structBody g
    return name
  return .struct (← heading p name []) (p.inner ++ inner)

def variant (g : Grammar) : Reader Unit := do
  attributes g
  visibility
  let _ ← identifier
  when? (atGroup .brace) (namedFields g)
  when? (atGroup .parenthesis) (unnamedFields g)
  if ← mark? '=' then noted (g.expr true)

def enumItem (g : Grammar) : Reader Unit := do
  visibility
  word "enum"
  let _ ← identifier
  let _ ← generics g
  let _ ← conditions g
  let _ ← group .brace (commaSeparated (variant g))

def unionItem (g : Grammar) : Reader Unit := do
  visibility
  word "union"
  let _ ← identifier
  let _ ← generics g
  let _ ← conditions g
  namedFields g

/-- The name of a type with its bounds, its definition, and conditions before or after the definition. -/
def typeItem (g : Grammar) (default early late : Bool) : Reader Unit := do
  visibility
  if default then
    let _ ← word? "default"
  word "type"
  let _ ← identifier
  let _ ← generics g
  if ← mark? ':' then boundsUntil g fun ts => atWord "where" ts || atMark '=' ts || atMark ';' ts
  let conditional ← if early then conditions g else pure false
  if ← mark? '=' then someType g
  if late && !conditional then
    let _ ← conditions g
  mark ';'

/-! Constants -/

def staticItem (g : Grammar) : Reader Item := do
  visibility
  word "static"
  let _ ← word? "mut"
  let _ ← identifier
  if ← mark? '=' then
    let _ ← g.expr true
    mark ';'
    return .other []
  mark ':'
  let inner ← parts do
    someType g
    if !(← sees (atMark ';')) then
      mark '='
      noted (g.expr true)
  mark ';'
  return .other inner

/-- A constant behind its keyword. One with parameters or conditions is of no interest, nor, unless the flag says so, one
without a value. -/
def constantRest (g : Grammar) (valueless : Bool) : Reader Item := do
  ensure (atIdentifier (← ahead) || atWord "_" (← ahead))
  skip 1
  let parametric ← generics g
  mark ':'
  let (hasValue, inner) ← collect do
    someType g
    let hasValue ← mark? '='
    if hasValue then noted (g.expr true)
    return hasValue
  let conditional ← conditions g
  mark ';'
  return .other (if !parametric && !conditional && (hasValue || valueless) then inner else [])

/-! Macros -/

/-- The delimited text of a macro call; all but braces need a semicolon behind. -/
def macroBody : Reader Unit := do
  let (delimiter, _) ← anyGroup
  if delimiter ≠ .brace then mark ';'

/-- A macro call as an item; the flag allows a name in front of the text. -/
def macroItem (named : Bool) : Reader Unit := do
  let _ ← namePath
  mark '!'
  if named then when? (fun ts => atIdentifier ts || atWord "try" ts) (skip 1)
  macroBody

def macroDefinition : Reader Unit := do
  visibility
  word "macro"
  let _ ← identifier
  when? (atGroup .parenthesis) (skip 1)
  ensure (atGroup .brace (← ahead))
  skip 1

/-- Whether a macro call can start here. -/
def atMacroItem (ts : List Tree) : Bool :=
  atIdentifier ts || atWord "self" ts || atWord "super" ts || atWord "crate" ts || atMarks [':', ':'] ts

/-! Imports -/

/-- The first names of the imported paths. There are none when a path inside a group starts with two colons. -/
def importTree (rooted : Bool) : Nat → Reader (Option (List String))
  | 0 => refuse
  | fuel + 1 => do
    let ts ← ahead
    if atIdentifier ts || atWord "self" ts || atWord "super" ts || atWord "crate" ts || atWord "try" ts then
      let name ← anyWord
      if ← marks? [':', ':'] then
        let _ ← importTree false fuel
      else if ← word? "as" then
        if !(← word? "_") then
          let _ ← identifier
      return some [name]
    if ← mark? '*' then return some []
    let trees ← group .brace <| commaSeparated do
      let leading ← if rooted then marks? [':', ':'] else pure false
      let tree ← importTree (rooted && !leading) fuel
      return if leading then none else tree
    return if trees.all Option.isSome then some (trees.filterMap id).flatten else none

def importItem : Reader Item := do
  visibility
  word "use"
  let leading ← marks? [':', ':']
  let roots ← importTree (!leading) (Tree.sizeAll (← ahead) + 1)
  mark ';'
  match roots with
  | some roots => return .imports roots
  | none => return .other []

def externCrate : Reader Unit := do
  visibility
  word "extern"
  word "crate"
  if !(← word? "self") then
    let _ ← identifier
  if ← word? "as" then
    if !(← word? "_") then
      let _ ← identifier
  mark ';'

/-! Blocks of items -/

/-- Reads what is of no interest, with the expressions inside it. -/
def dropped (reader : Reader Unit) : Reader Unit := do
  let _ ← collect reader

def foreignStatic (g : Grammar) : Reader Unit := do
  visibility
  if !(← word? "unsafe") then
    let _ ← word? "safe"
  word "static"
  let _ ← word? "mut"
  let _ ← identifier
  mark ':'
  someType g
  if ← mark? '=' then dropped (noted (g.expr true))
  mark ';'

/-- An item of a block of foreign items. -/
def foreignItem (g : Grammar) : Reader Unit := do
  attributes g
  let ts ← ahead
  let inner ← beyondVisibility
  let skipSafe := if atWord "safe" inner then inner.drop 1 else inner
  if atSignature inner || atSignature skipSafe then
    visibility
    let _ ← signature g true
    if ← sees (atGroup .brace) then dropped (attributedBlock g) else mark ';'
  else if atWord "static" inner ||
      ((atWord "unsafe" inner || atWord "safe" inner) && atWord "static" (beyond inner)) then foreignStatic g
  else if atWord "type" inner then typeItem g false true true
  else
    ensure (inner.length == ts.length && atMacroItem inner)
    macroItem false

def foreignBlock (g : Grammar) : Reader Unit := do
  let _ ← word? "unsafe"
  word "extern"
  when? atTextLiteral (skip 1)
  group .brace do
    let _ ← innerAttributes g
    let _ ← untilEnd (foreignItem g)

/-- An item of a trait; one with a visibility or a default marker is of no interest. -/
def traitMember (g : Grammar) : Reader Unit := do
  let (plain, inner) ← collect do
    attributes g
    let start ← ahead
    visibility
    let _ ← word? "default"
    let ts ← ahead
    let plain := start.length == ts.length
    if atSignature ts then
      let _ ← signature g false
      if ← sees (atGroup .brace) then attributedBlock g else mark ';'
    else if ← word? "const" then
      match ← constantRest g true with
      | .other found => found.forM note
      | _ => pure ()
    else if atWord "type" ts then typeItem g false false true
    else
      ensure (plain && atMacroItem ts)
      macroItem false
    return plain
  if plain then inner.forM note

def traitItem (g : Grammar) : Reader Unit := do
  visibility
  let marked ← sees fun ts => atWord "unsafe" ts || atWord "auto" ts
  let _ ← word? "unsafe"
  let _ ← word? "auto"
  word "trait"
  let _ ← identifier
  let _ ← generics g
  if !marked && (← sees (atMark '=')) then
    mark '='
    boundsUntil g fun ts => atWord "where" ts || atMark ';' ts
    let _ ← conditions g
    mark ';'
  else
    if ← mark? ':' then boundsUntil g fun ts => atWord "where" ts || atGroup .brace ts
    let _ ← conditions g
    group .brace do
      let _ ← innerAttributes g
      let _ ← untilEnd (traitMember g)

/-- An item of an implementation. -/
def implMember (g : Grammar) : Reader Item := do
  let p ← preamble g
  let ts ← ahead
  let inner ← beyondVisibility
  let isDefault := atWord "default" inner && !atMark '!' (beyond inner)
  let body := if isDefault then inner.drop 1 else inner
  if atSignature body then functionItem g p .method
  else if atWord "const" body then
    visibility
    if isDefault then skip 1
    skip 1
    constantRest g false
  else if atWord "type" body then
    typeItem g true false true
    return .other []
  else
    ensure (inner.length == ts.length && !isDefault && atMacroItem body)
    macroItem false
    return .other []

/-- Whether the angle bracket after `impl` opens parameters rather than a qualified path. -/
def opensParameters (ts : List Tree) : Bool :=
  let next := beyond ts
  let third := beyond next
  atMark '<' ts && (atMark '>' next || atMark '#' next ||
    ((atLifetime next || atIdentifier next) &&
      (atMark '>' third || atMark ',' third || (atMark ':' third && !atMarks [':', ':'] third) || atMark '=' third)) ||
    atWord "const" next)

/-- What an implementation is about, or nothing when it is written for something other than a trait or is marked in a
way that does not matter here. -/
structure Subject where
  traitName : Option String
  selfName : Option String

def implSubject (g : Grammar) : Reader (Option Subject) := do
  let start ← ahead
  visibility
  let visible := start.length ≠ (← ahead).length
  let _ ← word? "default"
  let _ ← word? "unsafe"
  word "impl"
  if ← sees opensParameters then genericList g
  let ts ← ahead
  let constant := atWord "const" ts || (atMark '?' ts && atWord "const" (beyond ts))
  if constant then
    let _ ← mark? '?'
    word "const"
  let ts ← ahead
  let negative := atMark '!' ts && !atGroup .brace (beyond ts)
  if negative then skip 1
  let first ← g.type true
  let lastName := fun form => match form with
    | TypeForm.path _ p _ => p.last?
    | _ => none
  if ← word? "for" then
    let self ← g.type true
    let _ ← conditions g
    match first with
    | .path false p _ => return if visible || constant then none else some ⟨p.last?, lastName self⟩
    | _ => return none
  ensure !negative
  let _ ← conditions g
  return if visible || constant then none else some ⟨none, lastName first⟩

def implementation (g : Grammar) (p : Preamble) : Reader Item := do
  let (subject, inner) ← collect (implSubject g)
  let (members, more) ← collect <| group .brace do
    let _ ← innerAttributes g
    untilEnd (implMember g)
  match subject with
  | some s => return .implementation s.traitName s.selfName (p.inner ++ inner ++ more) members
  | none => return .other []

def moduleItem (g : Grammar) : Reader Item := do
  visibility
  let _ ← word? "unsafe"
  word "mod"
  let name ← if ← sees (atWord "try") then anyWord else identifier
  if ← mark? ';' then return .module name false []
  let items ← group .brace do
    let _ ← innerAttributes g
    untilEnd g.item
  return .module name true items

/-! All items -/

/-- The item behind its attributes, chosen by what stands behind its visibility. -/
def itemRest (g : Grammar) (p : Preamble) : Reader Item := do
  let ts ← ahead
  let inner ← beyondVisibility
  let next := beyond inner
  let other := fun (reader : Reader Unit) => do return Item.other (p.inner ++ (← parts reader))
  if atSignature inner then functionItem g p .function
  else if atWord "extern" inner then
    if atWord "crate" next then other externCrate else other (foreignBlock g)
  else if atWord "use" inner then importItem
  else if atWord "static" inner then staticItem g
  else if atWord "const" inner then
    visibility
    skip 1
    constantRest g false
  else if atWord "unsafe" inner then
    if atWord "trait" next || (atWord "auto" next && atWord "trait" (beyond next)) then other (traitItem g)
    else if atWord "impl" next then implementation g p
    else if atWord "extern" next then other (foreignBlock g)
    else moduleItem g
  else if atWord "mod" inner then moduleItem g
  else if atWord "type" inner then other (typeItem g false true false)
  else if atWord "struct" inner then structItem g p
  else if atWord "enum" inner then other (enumItem g)
  else if atWord "union" inner && atIdentifier next then other (unionItem g)
  else if atWord "trait" inner || (atWord "auto" inner && atWord "trait" next) then other (traitItem g)
  else if atWord "impl" inner || (atWord "default" inner && !atMark '!' next) then implementation g p
  else if atWord "macro" inner then
    macroDefinition
    return .other []
  else
    ensure (inner.length == ts.length && atMacroItem inner)
    macroItem true
    return .other []

def item (g : Grammar) : Reader Item := do
  itemRest g (← preamble g)

end ApiHandbook.Code
