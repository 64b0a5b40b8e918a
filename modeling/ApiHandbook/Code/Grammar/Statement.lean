import ApiHandbook.Code.Grammar.Item

/-! The statements of a block. -/
namespace ApiHandbook.Code

/-- A local definition. An `else` block may follow a value that does not end with a brace. -/
def localDefinition (g : Grammar) : Reader Unit := do
  word "let"
  let _ ← g.pattern
  if ← mark? ':' then someType g
  if ← mark? '=' then
    let (_, eaten) ← consumed (noted (g.expr true))
    let braced := match eaten.getLast? with
      | some t => atGroup .brace [t]
      | none => false
    if !braced then
      if ← word? "else" then block g
  mark ';'

/-- Whether a keyword stands at the front that starts an item inside a block. -/
def atItem (ts : List Tree) : Bool :=
  let next := beyond ts
  let third := beyond next
  let external := fun ts => atWord "unsafe" ts || atWord "extern" ts || atWord "fn" ts
  atWord "pub" ts || (atWord "crate" ts && !atMarks [':', ':'] next) || atWord "extern" ts || atWord "use" ts ||
    (atWord "static" ts && (atWord "mut" next || (atIdentifier next &&
      !(atWord "async" next && (atWord "move" third || atMark '|' third))))) ||
    (atWord "const" ts && !(atGroup .brace next || atWord "static" next ||
      (atWord "async" next && !external third) || atWord "move" next || atMark '|' next)) ||
    (atWord "unsafe" ts && !atGroup .brace next) || (atWord "async" ts && external next) || atWord "fn" ts ||
    atWord "mod" ts || atWord "type" ts || atWord "struct" ts || atWord "enum" ts ||
    (atWord "union" ts && atIdentifier next) || (atWord "auto" ts && atWord "trait" next) || atWord "trait" ts ||
    (atWord "default" ts && (atWord "unsafe" next || atWord "impl" next)) || atWord "impl" ts || atWord "macro" ts

/-- What a path and an exclamation mark at the front introduce. -/
inductive MacroStart where
  | none
  | item
  /-- A call in braces that is a statement of its own; what follows the path is given. -/
  | statement (rest : List Tree)

def macroStart (ts : List Tree) : MacroStart :=
  match namePath.run ⟨ts, []⟩ with
  | some (_, s) =>
    let next := beyond s.rest
    let third := beyond next
    if !atMark '!' s.rest then .none
    else if atIdentifier next || atWord "try" next then .item
    else if atGroup .brace next && !((atMark '.' third && !atMarks ['.', '.'] third) || atMark '?' third) then
      .statement s.rest
    else .none
  | _ => .none

/-- Whether an expression needs a semicolon behind it when another statement follows. -/
def Form.needsSemicolon : Form → Bool
  | .block => false
  | .macroCall braced => !braced
  | _ => true

/-- A statement: whether a semicolon is still needed if another statement follows. -/
def statement (g : Grammar) : Reader Bool := do
  let p ← preamble g
  let ts ← ahead
  let kind := macroStart ts
  match kind with
  | .statement rest =>
    modify fun s => { s with rest := rest.drop 2 }
    let _ ← mark? ';'
    return false
  | _ =>
    if atWord "let" ts then
      localDefinition g
      return false
    let isMacro := match kind with
      | .item => true
      | _ => false
    if isMacro || atItem ts then
      note (.item (← itemRest g p))
      return false
    p.inner.forM note
    let e ← g.early
    note e.expr
    return !(← mark? ';') && e.form.needsSemicolon

def statements (g : Grammar) : Reader Unit := do
  go ((← ahead).length + 1)
where
  go : Nat → Reader Unit
    | 0 => refuse
    | fuel + 1 => do
      if ← mark? ';' then go fuel
      else if ← atEnd then return
      else
        let needsSemicolon ← statement g
        if ← atEnd then return
        ensure !needsSemicolon
        go fuel

end ApiHandbook.Code
