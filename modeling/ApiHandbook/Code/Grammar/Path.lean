import ApiHandbook.Code.Grammar

/-! Paths and the arguments of their segments. -/
namespace ApiHandbook.Code

/-- The constants that a type argument may be. -/
def constantArgument (g : Grammar) : Reader Unit := do
  let ts ← ahead
  if atLiteral ts then
    let _ ← literal
  else if atIdentifier ts then skip 1
  else group .brace g.statements

/-- Whether a list of bounds goes on with another bound. -/
def atBound (constant : Bool) (ts : List Tree) : Bool :=
  atAnyWord ts || atMarks [':', ':'] ts || atMark '?' ts || atLifetime ts || atGroup .parenthesis ts ||
    (constant && atGroup .bracket ts)

/-- Bounds joined by plus signs, up to a place where `stop` holds. -/
def boundsUntil (g : Grammar) (stop : List Tree → Bool) : Reader Unit := do
  if !(← sees stop) then
    joined '+' (fun ts => !stop ts) do
      let _ ← g.bound false true

/-- Whether a type is a single name, which may be an associated name in a list of arguments. -/
def TypeForm.isName : TypeForm → Bool
  | .path false ⟨false, [_]⟩ parenthesized => !parenthesized
  | _ => false

def genericArgument (g : Grammar) : Reader Unit := do
  let ts ← ahead
  if atLifetime ts && !atMark '+' (beyond ts) then lifetime
  else if atLiteral ts || atGroup .brace ts then constantArgument g
  else
    let type ← g.type true
    if type.isName then
      if ← mark? '=' then
        if ← sees fun ts => atLiteral ts || atGroup .brace ts then constantArgument g else someType g
      else if ← mark? ':' then boundsUntil g fun ts => atMark ',' ts || atMark '>' ts

/-- Arguments in angle brackets, after two colons if there are any. -/
def angleArguments (g : Grammar) : Reader Unit := do
  let _ ← marks? [':', ':']
  mark '<'
  let _ ← separatedUntil (atMark '>') (mark ',') (genericArgument g)
  mark '>'

/-- The result type of a function, if it has one. -/
def returnType (g : Grammar) (plus : Bool) : Reader Unit := do
  if ← marks? ['-', '>'] then
    let _ ← g.type plus

/-- Arguments in parentheses; whether a result type follows them. -/
def parenthesizedArguments (g : Grammar) : Reader Bool := do
  let _ ← group .parenthesis (commaSeparated (g.type true))
  let hasResult ← sees (atMarks ['-', '>'])
  returnType g false
  return hasResult

/-- Whether arguments in parentheses come next, after two colons if there are any. -/
def atParenthesized (ts : List Tree) : Bool :=
  atGroup .parenthesis ts || (atMarks [':', ':'] ts && atGroup .parenthesis (beyond (beyond ts)))

/-- A segment of a path; inside an expression its arguments need two colons in front. -/
def segment (g : Grammar) (inExpr : Bool) : Reader Segment := do
  let ts ← ahead
  if atWord "super" ts || atWord "self" ts || atWord "crate" ts || atWord "try" ts then
    return ⟨← anyWord, true⟩
  let name ← if atWord "Self" ts then anyWord else identifier
  let ts ← ahead
  let hasArguments := (!inExpr && atMark '<' ts && !atMarks ['<', '='] ts) ||
    (atMarks [':', ':'] ts && atMark '<' (beyond (beyond ts)))
  if hasArguments then angleArguments g
  return ⟨name, !hasArguments⟩

/-- The segments behind the first. -/
def moreSegments (g : Grammar) (inExpr : Bool) : Reader (List Segment) := do
  go ((← ahead).length + 1)
where
  go : Nat → Reader (List Segment)
    | 0 => refuse
    | fuel + 1 => do
      let ts ← ahead
      if atMarks [':', ':'] ts && !atGroup .parenthesis (beyond (beyond ts)) then
        skip 2
        let s ← segment g inExpr
        return s :: (← go fuel)
      return []

def path (g : Grammar) (inExpr : Bool) : Reader Path := do
  let leading ← marks? [':', ':']
  let first ← segment g inExpr
  return ⟨leading, first :: (← moreSegments g inExpr)⟩

/-- Segments with two colons between them. -/
def segments (g : Grammar) (inExpr : Bool) : Reader (List Segment) := do
  go ((← ahead).length + 1)
where
  go : Nat → Reader (List Segment)
    | 0 => refuse
    | fuel + 1 => do
      let s ← segment g inExpr
      if ← marks? [':', ':'] then return s :: (← go fuel)
      return [s]

/-- A path that may start with a type in angle brackets: whether it does, and the path behind the type, which includes
the trait named in the brackets. -/
def qualifiedPath (g : Grammar) (inExpr : Bool) : Reader (Bool × Path) := do
  if ← mark? '<' then
    someType g
    let traitPath ← if ← word? "as" then some <$> path g false else pure none
    mark '>'
    marks [':', ':']
    let rest ← segments g inExpr
    match traitPath with
    | some p => return (true, ⟨p.leading, p.segments ++ rest⟩)
    | none => return (true, ⟨true, rest⟩)
  else return (false, ← path g inExpr)

end ApiHandbook.Code
