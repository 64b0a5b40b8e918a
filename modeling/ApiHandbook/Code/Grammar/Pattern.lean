import ApiHandbook.Code.Grammar.Type

/-! Patterns. They are recognized and not kept; constants inside them are met like other expressions. -/
namespace ApiHandbook.Code

/-- Whether an alternative of a pattern follows. -/
def atAlternative (ts : List Tree) : Bool :=
  atMark '|' ts && !atMarks ['|', '|'] ts && !atMarks ['|', '='] ts

/-- A pattern with its alternatives: whether it is one range with an end missing. -/
def alternatives (g : Grammar) : Reader Bool := do
  let leading ← mark? '|'
  let first ← g.pattern
  let more ← go ((← ahead).length + 1)
  return first && !leading && !more
where
  go : Nat → Reader Bool
    | 0 => refuse
    | fuel + 1 => do
      if ← sees atAlternative then
        skip 1
        let _ ← g.pattern
        let _ ← go fuel
        return true
      return false

/-- A block of statements. -/
def block (g : Grammar) : Reader Unit := group .brace g.statements

/-- A block of statements that may start with attributes. -/
def attributedBlock (g : Grammar) : Reader Unit :=
  group .brace do
    let _ ← innerAttributes g
    g.statements

/-- What may bound a range: whether there is a bound. -/
def rangeBound (g : Grammar) : Reader Bool := do
  let ts ← ahead
  if ts.isEmpty || atMark '|' ts || atMark '=' ts || (atMark ':' ts && !atMarks [':', ':'] ts) || atMark ',' ts ||
      atMark ';' ts || atWord "if" ts then
    return false
  if atLiteral ts then
    let _ ← literal
  else if atPathWord ts || atMarks [':', ':'] ts || atMark '<' ts then
    let _ ← qualifiedPath g true
  else
    word "const"
    attributedBlock g
  return true

/-- The dots of a range: whether its end is included. Three dots are an old spelling of that. -/
def rangeDots (old : Bool) : Reader Bool := do
  if ← marks? ['.', '.', '='] then return true
  if ← sees (atMarks ['.', '.', '.']) then
    ensure old
    skip 3
    return true
  marks ['.', '.']
  return false

/-- What follows the start of a range: whether its end is missing. -/
def rangeEnd (g : Grammar) : Reader Bool := do
  let closed ← rangeDots true
  let hasEnd ← rangeBound g
  ensure (!closed || hasEnd)
  return !hasEnd

/-- The name or index of a field; whether it is a name. -/
def fieldName : Reader Bool := do
  match ← anyTree with
  | .word name _ =>
    ensure !(keywords.contains name)
    return true
  | .literal (.integer value false) _ _ =>
    ensure (value < 0x100000000)
    return false
  | _ => refuse

/-- A field of a struct pattern. -/
def fieldPattern (g : Grammar) : Reader Unit := do
  let boxed ← word? "box"
  let byRef ← word? "ref"
  let mutable ← word? "mut"
  let plain := !boxed && !byRef && !mutable
  let isName ← if plain then fieldName else (do let _ ← identifier; pure true)
  if (plain && atMark ':' (← ahead)) || !isName then
    mark ':'
    let _ ← alternatives g

/-- The fields of a struct pattern; two dots may stand for the rest of them. -/
def fieldPatterns (g : Grammar) : Reader Unit := do
  go ((← ahead).length + 1)
where
  go : Nat → Reader Unit
    | 0 => refuse
    | fuel + 1 => do
      if ← atEnd then return
      attributes g
      if ← marks? ['.', '.'] then return
      fieldPattern g
      if ← atEnd then return
      mark ','
      go fuel

/-- A pattern that starts with a path. -/
def pathPattern (g : Grammar) : Reader Bool := do
  let (qualified, p) ← qualifiedPath g true
  let ts ← ahead
  if !qualified && atMark '!' ts && !atMarks ['!', '='] ts && p.isBare then
    skip 1
    let _ ← anyGroup
    return false
  if atGroup .brace ts then
    group .brace (fieldPatterns g)
    return false
  if atGroup .parenthesis ts then
    let _ ← group .parenthesis (commaSeparated (alternatives g))
    return false
  if atMarks ['.', '.'] ts then rangeEnd g else return false

/-- Whether a path rather than a fresh name stands at the front of a pattern. -/
def atPathPattern (ts : List Tree) : Bool :=
  let next := beyond ts
  (atIdentifier ts && (atMarks [':', ':'] next || atMark '!' next || atGroup .brace next || atGroup .parenthesis next ||
      atMarks ['.', '.'] next)) ||
    (atWord "self" ts && atMarks [':', ':'] next) || atMarks [':', ':'] ts || atMark '<' ts || atWord "Self" ts ||
    atWord "super" ts || atWord "crate" ts

/-- A fresh name, perhaps with a pattern for what it names. -/
def namePattern (g : Grammar) : Reader Unit := do
  let _ ← word? "ref"
  let _ ← word? "mut"
  if !(← word? "self") then
    let _ ← identifier
  if ← mark? '@' then
    let _ ← g.pattern

/-- A pattern without alternatives: whether it is a range with an end missing. -/
def pattern (g : Grammar) : Reader Bool := do
  let ts ← ahead
  if atPathPattern ts then pathPattern g
  else if ← word? "_" then return false
  else if ← word? "box" then
    let _ ← g.pattern
    return false
  else if atMark '-' ts || atLiteral ts || atWord "const" ts then
    ensure (← rangeBound g)
    if ← sees (atMarks ['.', '.']) then rangeEnd g else return false
  else if atWord "ref" ts || atWord "mut" ts || atWord "self" ts || atIdentifier ts then
    namePattern g
    return false
  else if ← mark? '&' then
    let _ ← word? "mut"
    let _ ← g.pattern
    return false
  else if atGroup .parenthesis ts then
    let _ ← group .parenthesis (commaSeparated (alternatives g))
    return false
  else if atGroup .bracket ts then
    let _ ← group .bracket <| commaSeparated do
      ensure !(← alternatives g)
    return false
  else
    let closed ← rangeDots false
    let hasEnd ← rangeBound g
    ensure (!closed || hasEnd)
    return hasEnd

end ApiHandbook.Code
