import ApiHandbook.Code.Grammar.Pattern

/-! Expressions: atoms, what follows them, and operators by precedence. -/
namespace ApiHandbook.Code

/-! Operators -/

/-- The binary operators, longest first. -/
def operators : List (List Char × Precedence) :=
  [(['<', '<', '='], .assign), (['>', '>', '='], .assign), (['+', '='], .assign), (['-', '='], .assign),
    (['*', '='], .assign), (['/', '='], .assign), (['%', '='], .assign), (['^', '='], .assign), (['&', '='], .assign),
    (['|', '='], .assign), (['&', '&'], .and), (['|', '|'], .or), (['<', '<'], .shift), (['>', '>'], .shift),
    (['=', '='], .compare), (['<', '='], .compare), (['!', '='], .compare), (['>', '='], .compare), (['+'], .sum),
    (['-'], .sum), (['*'], .product), (['/'], .product), (['%'], .product), (['^'], .bitXor), (['&'], .bitAnd),
    (['|'], .bitOr), (['<'], .compare), (['>'], .compare)]

/-- The binary operator at the front: its length and precedence. -/
def operator? (ts : List Tree) : Option (Nat × Precedence) :=
  (operators.find? fun entry => atMarks entry.1 ts).map fun entry => (entry.1.length, entry.2)

def atAssignment (ts : List Tree) : Bool := atMark '=' ts && !atMarks ['=', '>'] ts

/-- The precedence of what follows an operand. -/
def precedenceAhead (ts : List Tree) : Precedence :=
  match operator? ts with
  | some (_, p) => p
  | none =>
    if atAssignment ts then .assign
    else if atMarks ['.', '.'] ts then .range
    else if atWord "as" ts then .cast
    else .loosest

/-- Extends a right operand by what binds more tightly than the operator in front of it; assignments group to the
right. -/
def extend (g : Grammar) (structs : Bool) (p : Precedence) : Nat → Operand → Reader Operand
  | 0, right => return right
  | fuel + 1, right => do
    let next := precedenceAhead (← ahead)
    if p.rank < next.rank || (next = p && p = .assign) then
      let (right, eaten) ← consumed (g.climb right structs next)
      if eaten.isEmpty then return right
      extend g structs p fuel right
    else return right

def rightOperand (g : Grammar) (structs : Bool) (p : Precedence) : Reader Expr := do
  let first ← g.unary structs
  return (← extend g structs p ((← ahead).length + 1) first).expr

/-- Whether a range without an end stops here. -/
def atRangeStop (structs : Bool) (ts : List Tree) : Bool :=
  ts.isEmpty || atMark ',' ts || atMark ';' ts || (atMark '.' ts && !atMarks ['.', '.'] ts) || atMark '?' ts ||
    atMarks ['=', '>'] ts || (!structs && atGroup .brace ts) || atMark '=' ts || atMark '+' ts || atMark '/' ts ||
    atMark '%' ts || atMark '^' ts || atMark '>' ts || atMarks ['<', '='] ts || atMarks ['!', '='] ts ||
    atMarks ['-', '='] ts || atMarks ['*', '='] ts || atMarks ['&', '='] ts || atMarks ['|', '='] ts ||
    atMarks ['<', '<', '='] ts || atWord "as" ts

/-- The dots of a range and its end; `start` holds the start, if there is one. -/
def range (g : Grammar) (structs : Bool) (start : List Expr) : Reader Operand := do
  let closed ← rangeDots false
  if !closed && atRangeStop structs (← ahead) then return ⟨.other start, .range⟩
  return ⟨.other (start ++ [← rightOperand g structs .range]), .range⟩

/-- A cast binds too tightly for calls, fields and indices to follow its type. -/
def atCastTrailer (ts : List Tree) : Bool :=
  (atMark '.' ts && !atMarks ['.', '.'] ts) || atMark '?' ts || atGroup .bracket ts || atGroup .parenthesis ts

/-- Reads on behind a left operand while operators bind at least as tightly as `base`. A range is no left operand, and
comparisons have no comparison on their left. -/
def climb (g : Grammar) (left : Operand) (structs : Bool) (base : Precedence) : Reader Operand := do
  if left.form = .range then return left
  let ts ← ahead
  match operator? ts with
  | some (length, p) =>
    if p.rank < base.rank then return left
    ensure !(p = .compare && left.form = .comparison)
    skip length
    let right ← rightOperand g structs p
    g.climb ⟨.other [left.expr, right], if p = .compare then .comparison else .plain⟩ structs base
  | none =>
    if base.rank ≤ Precedence.assign.rank && atAssignment ts then
      skip 1
      let right ← rightOperand g structs .assign
      g.climb ⟨.assignment left.expr right, .plain⟩ structs base
    else if base.rank ≤ Precedence.range.rank && atMarks ['.', '.'] ts then
      g.climb (← range g structs [left.expr]) structs base
    else if base.rank ≤ Precedence.cast.rank && atWord "as" ts then
      skip 1
      let inner ← parts (g.type false)
      ensure !(atCastTrailer (← ahead))
      g.climb ⟨.other (left.expr :: inner), .plain⟩ structs base
    else return left

/-- An expression with its binary operators. -/
def expr (g : Grammar) (structs : Bool) : Reader Operand := do
  g.climb (← g.unary structs) structs .loosest

/-! What follows an atom -/

/-- Whether a floating-point number behind a dot is in truth one or two indices. -/
def areIndices (spelling : List Char) : Bool :=
  let spelling := if spelling.getLast? = some '.' then spelling.dropLast else spelling
  (spelling.splitOn '.').all fun part =>
    part.head?.any Char.isDigit && part.all isDigitOrGap && decimalValue part < 0x100000000

/-- What follows the dot behind an expression: a method call, a field, or `await`. -/
def member (g : Grammar) (e : Expr) : Reader Operand := do
  let ts ← ahead
  if atWord "await" ts then
    skip 1
    g.trailer ⟨.other [e], .plain⟩
  else if atIdentifier ts then
    let name ← anyWord
    let turbofish ← sees (atMarks [':', ':'])
    if turbofish then
      let _ ← collect do
        marks [':', ':']
        angleArguments g
    if turbofish || atGroup .parenthesis (← ahead) then
      let given ← group .parenthesis (arguments g)
      g.trailer ⟨.methodCall e name given, .plain⟩
    else g.trailer ⟨.other [e], .plain⟩
  else
    let _ ← fieldName
    g.trailer ⟨.other [e], .plain⟩

def afterDot (g : Grammar) (e : Expr) : Reader Operand := do
  match ← ahead with
  | .literal (.float spelling) _ _ :: _ =>
    ensure (areIndices spelling.toList)
    skip 1
    if spelling.toList.getLast? = some '.' then member g (.other [e]) else g.trailer ⟨.other [e], .plain⟩
  | _ => member g e

def trailer (g : Grammar) (e : Operand) : Reader Operand := do
  let ts ← ahead
  if atGroup .parenthesis ts then
    let given ← group .parenthesis (arguments g)
    g.trailer ⟨.call e.expr given, .plain⟩
  else if atMark '.' ts && !atMarks ['.', '.'] ts && e.form ≠ .range then
    skip 1
    afterDot g e.expr
  else if atGroup .bracket ts then
    let index ← group .bracket (g.expr true)
    g.trailer ⟨.other [e.expr, index.expr], .plain⟩
  else if atMark '?' ts && e.form ≠ .range then
    skip 1
    g.trailer ⟨.other [e.expr], .plain⟩
  else return e

/-! Control structures -/

def conditional (g : Grammar) : Nat → Reader Unit
  | 0 => refuse
  | fuel + 1 => do
    word "if"
    noted (g.expr false)
    block g
    if ← word? "else" then
      if ← sees (atWord "if") then conditional g fuel else block g

def matchArm (g : Grammar) : Reader Unit := do
  attributes g
  let _ ← alternatives g
  if ← word? "if" then noted (g.expr true)
  marks ['=', '>']
  let body ← g.early
  note body.expr
  let needsComma := body.form ≠ .block
  if !(← mark? ',') then
    if needsComma then ensure (← atEnd)

/-- A loop or a block, which may have a label in front. -/
def labelled (g : Grammar) : Reader Unit := do
  if ← word? "while" then
    noted (g.expr false)
    attributedBlock g
  else if ← word? "for" then
    let _ ← alternatives g
    word "in"
    noted (g.expr false)
    attributedBlock g
  else if ← word? "loop" then attributedBlock g
  else attributedBlock g

/-- Whether the parameters of a closure, and not a loop, follow `for`. -/
def atBinder (ts : List Tree) : Bool :=
  atWord "for" ts && atMark '<' (beyond ts) && (atLifetime (beyond (beyond ts)) || atMark '>' (beyond (beyond ts)))

/-- Whether an expression starts that ends a statement by itself. -/
def atControl (ts : List Tree) : Bool :=
  atWord "if" ts || atWord "while" ts || (atWord "for" ts && !atBinder ts) || atWord "loop" ts || atWord "match" ts ||
    (atWord "try" ts && atGroup .brace (beyond ts)) || atWord "unsafe" ts ||
    (atWord "const" ts && atGroup .brace (beyond ts)) || atGroup .brace ts || atLifetime ts

def controlInside (g : Grammar) : Reader Unit := do
  let ts ← ahead
  if atWord "if" ts then conditional g (ts.length + 1)
  else if ← word? "match" then
    noted (g.expr false)
    group .brace do
      let _ ← innerAttributes g
      let _ ← untilEnd (matchArm g)
  else if ← word? "try" then block g
  else if ← word? "unsafe" then attributedBlock g
  else if ← word? "const" then attributedBlock g
  else if atLifetime ts then
    lifetime
    mark ':'
    labelled g
  else labelled g

def control (g : Grammar) : Reader Operand := return ⟨.other (← parts (controlInside g)), .block⟩

/-! Closures and jumps -/

def atClosure (ts : List Tree) : Bool :=
  let next := beyond ts
  atMark '|' ts || atWord "move" ts || atBinder ts || (atWord "const" ts && !atGroup .brace next) ||
    atWord "static" ts || (atWord "async" ts && (atMark '|' next || atWord "move" next))

def closureParameter (g : Grammar) : Reader Unit := do
  attributes g
  let _ ← g.pattern
  if ← mark? ':' then someType g

def closure (g : Grammar) (structs : Bool) : Reader Unit := do
  let _ ← binder g
  let _ ← word? "const"
  let _ ← word? "static"
  let _ ← word? "async"
  let _ ← word? "move"
  mark '|'
  let _ ← separatedUntil (atMark '|') (mark ',') (closureParameter g)
  mark '|'
  if ← marks? ['-', '>'] then
    someType g
    block g
  else noted (g.expr structs)

/-- Whether an expression can start here. -/
def atExpression (ts : List Tree) : Bool :=
  (atAnyWord ts && !atWord "as" ts) || atGroup .parenthesis ts || atGroup .bracket ts || atGroup .brace ts ||
    atLiteral ts || (atMark '!' ts && !atMarks ['!', '='] ts) ||
    (atMark '-' ts && !atMarks ['-', '='] ts && !atMarks ['-', '>'] ts) || (atMark '*' ts && !atMarks ['*', '='] ts) ||
    (atMark '|' ts && !atMarks ['|', '='] ts) || (atMark '&' ts && !atMarks ['&', '='] ts) || atMarks ['.', '.'] ts ||
    (atMark '<' ts && !atMarks ['<', '='] ts && !atMarks ['<', '<', '='] ts) || atMarks [':', ':'] ts ||
    atLifetime ts || atMark '#' ts

/-- Where a loop is left, perhaps with a value. -/
def breakLoop (g : Grammar) (structs : Bool) : Reader Unit := do
  word "break"
  if ← sees atLifetime then
    ensure !(atMark ':' (beyond (← ahead)))
    lifetime
  let ts ← ahead
  if atExpression ts && (structs || !atGroup .brace ts) then noted (g.expr structs)

/-! Atoms -/

/-- The expressions in parentheses: one of them without a comma stands for itself. -/
def parenthesized (g : Grammar) : Reader Expr :=
  group .parenthesis do
    if ← atEnd then return .tuple []
    let first ← g.expr true
    if ← atEnd then return .parenthesized first.expr
    mark ','
    return .tuple (first.expr :: (← arguments g))

def array (g : Grammar) : Reader Expr :=
  group .bracket do
    if ← atEnd then return .array []
    let first ← g.expr true
    if ← atEnd then return .array [first.expr]
    if ← mark? ';' then
      let length ← g.expr true
      return .other [first.expr, length.expr]
    mark ','
    return .array (first.expr :: (← arguments g))

/-- The fields of a struct literal; two dots may bring the rest from another value. -/
def fieldValues (g : Grammar) : Reader Unit := do
  go ((← ahead).length + 1)
where
  go : Nat → Reader Unit
    | 0 => refuse
    | fuel + 1 => do
      if ← atEnd then return
      if ← marks? ['.', '.'] then
        if !(← atEnd) then noted (g.expr true)
      else
        attributes g
        let isName ← fieldName
        if !isName || atMark ':' (← ahead) then
          mark ':'
          noted (g.expr true)
        if ← atEnd then return
        mark ','
        go fuel

/-- A path, a macro call or a struct literal. -/
def pathExpr (g : Grammar) (structs : Bool) : Reader Operand := do
  let ((qualified, p), inner) ← collect (qualifiedPath g true)
  let ts ← ahead
  if !qualified && atMark '!' ts && !atMarks ['!', '='] ts && p.isBare then
    skip 1
    let (delimiter, trees) ← anyGroup
    let form := Form.macroCall (delimiter == .brace)
    if p.word? = some "vec" then
      match (arguments g).whole? trees with
      | some items => return ⟨.vector true items, form⟩
      | none => return ⟨.vector false [], form⟩
    return ⟨.other [], form⟩
  if structs && atGroup .brace ts then
    let fields ← parts (group .brace (fieldValues g))
    return ⟨.construction p (inner ++ fields), .plain⟩
  return ⟨.path qualified p inner, .plain⟩

def atPathExpr (ts : List Tree) : Bool :=
  atPathWord ts || atMarks [':', ':'] ts || atMark '<' ts ||
    (atWord "try" ts && (atMark '!' (beyond ts) || atMarks [':', ':'] (beyond ts)))

/-- The atoms that start with a keyword of their own and keep nothing but the expressions inside them. -/
def keywordExpr (g : Grammar) (structs : Bool) : Reader Unit := do
  let ts ← ahead
  if atWord "break" ts then breakLoop g structs
  else if ← word? "continue" then when? atLifetime lifetime
  else if ← word? "return" then when? atExpression (noted (g.expr true))
  else if ← word? "yield" then when? atExpression (noted (g.expr true))
  else if ← word? "become" then
    let _ ← collect (g.expr true)
  else if ← word? "let" then
    let _ ← alternatives g
    mark '='
    let first ← g.unary structs
    noted (g.climb first structs .compare)
  else word "_"

def atom (g : Grammar) (structs : Bool) : Reader Operand := do
  let ts ← ahead
  let next := beyond ts
  if atLiteral ts then return ⟨.literal (← literal), .plain⟩
  else if atWord "async" ts && (atGroup .brace next || (atWord "move" next && atGroup .brace (beyond next))) then
    skip 1
    let _ ← word? "move"
    return ⟨.other (← parts (block g)), .plain⟩
  else if atWord "try" ts && atGroup .brace next then control g
  else if atClosure ts then return ⟨.other (← parts (closure g structs)), .plain⟩
  else if atWord "builtin" ts && atMark '#' next then
    skip 2
    let _ ← identifier
    ensure (atGroup .parenthesis (← ahead))
    skip 1
    return ⟨.other [], .plain⟩
  else if atPathExpr ts then pathExpr g structs
  else if atGroup .parenthesis ts then return ⟨← parenthesized g, .plain⟩
  else if atGroup .bracket ts then return ⟨← array g, .plain⟩
  else if atControl ts then control g
  else if atMarks ['.', '.'] ts then range g structs []
  else return ⟨.other (← parts (keywordExpr g structs)), .plain⟩

/-- An operand: prefix operators, and an atom with what follows it. Attributes may not stand in front of a range. -/
def unary (g : Grammar) (structs : Bool) : Reader Operand := do
  let given ← outerAttributes g
  let ts ← ahead
  if atMark '&' ts then
    skip 1
    let raw := atWord "raw" (ts.drop 1) && (atWord "mut" (ts.drop 2) || atWord "const" (ts.drop 2))
    if raw then skip 1
    if !(← word? "mut") && raw then word "const"
    let e ← g.unary structs
    return ⟨if raw then .other [e.expr] else .reference e.expr, .plain⟩
  else if atMark '-' ts then
    skip 1
    return ⟨.negation (← g.unary structs).expr, .plain⟩
  else if atMark '*' ts || atMark '!' ts then
    skip 1
    return ⟨.other [(← g.unary structs).expr], .plain⟩
  else
    let e ← g.trailer (← atom g structs)
    ensure (given.isEmpty || e.form ≠ .range)
    return e

/-- An expression in a place where a control structure ends it, unless a dot or a question mark follows. -/
def early (g : Grammar) : Reader Operand := do
  attributes g
  if ← sees atControl then
    let e ← control g
    if ← sees fun ts => (atMark '.' ts && !atMarks ['.', '.'] ts) || atMark '?' ts then
      g.climb (← g.trailer e) true .loosest
    else return e
  else g.climb (← g.unary true) true .loosest

end ApiHandbook.Code
