import ApiHandbook.Code.Grammar.Path

/-! Types, their bounds, and the parameters of definitions. -/
namespace ApiHandbook.Code

/-! Attributes -/

/-- What follows the path of an attribute. -/
def attributeValue (g : Grammar) : Reader AttributeValue := do
  let ts ← ahead
  if atAnyGroup ts then return .arguments (← anyGroup).2
  if ← mark? '=' then
    let ts ← ahead
    match ts with
    | [.literal (.text value) _ _] =>
      skip 1
      return .text value
    | _ =>
      ensure !(atMark '#' ts && atGroup .bracket (beyond ts))
      noted (g.expr true)
      return .value
  return .none

def attributeInside (g : Grammar) : Reader Attribute := do
  let path ← if ← word? "unsafe" then pure ⟨false, [⟨"unsafe", true⟩]⟩ else namePath
  return ⟨path, ← attributeValue g⟩

/-- The attributes in front of a construct. -/
def outerAttributes (g : Grammar) : Reader (List Attribute) := do
  go ((← ahead).length + 1)
where
  go : Nat → Reader (List Attribute)
    | 0 => refuse
    | fuel + 1 => do
      if ← mark? '#' then
        let a ← group .bracket (attributeInside g)
        return a :: (← go fuel)
      return []

/-- The attributes at the start of a block that are about the block. -/
def innerAttributes (g : Grammar) : Reader (List Attribute) := do
  go ((← ahead).length + 1)
where
  go : Nat → Reader (List Attribute)
    | 0 => refuse
    | fuel + 1 => do
      let ts ← ahead
      if atMark '#' ts && atMark '!' (beyond ts) then
        skip 2
        let a ← group .bracket (attributeInside g)
        return a :: (← go fuel)
      return []

/-- Attributes that do not matter. -/
def attributes (g : Grammar) : Reader Unit := do
  let _ ← outerAttributes g

/-! Parameters -/

/-- Lifetimes joined by plus signs, up to a place where `stop` holds. -/
def lifetimesUntil (stop : List Tree → Bool) : Reader Unit := do
  if !(← sees stop) then joined '+' (fun ts => !stop ts) lifetime

def genericParameter (g : Grammar) : Reader Unit := do
  attributes g
  let ts ← ahead
  let stop := fun ts => atMark ',' ts || atMark '>' ts
  if atLifetime ts then
    lifetime
    if ← mark? ':' then lifetimesUntil stop
  else if atIdentifier ts then
    skip 1
    if ← mark? ':' then boundsUntil g fun ts => stop ts || atMark '=' ts
    if ← mark? '=' then someType g
  else if atWord "_" ts then skip 1
  else
    word "const"
    let _ ← identifier
    mark ':'
    someType g
    if ← mark? '=' then constantArgument g

/-- The parameters in angle brackets, which must be there. -/
def genericList (g : Grammar) : Reader Unit := do
  mark '<'
  let _ ← separatedUntil (atMark '>') (mark ',') (genericParameter g)
  mark '>'

/-- The parameters in angle brackets, if there are any; whether there are. -/
def generics (g : Grammar) : Reader Bool := do
  let present ← sees (atMark '<')
  if present then genericList g
  return present

/-- The parameters that a bound or a function type brings along; whether there are any. -/
def binder (g : Grammar) : Reader Bool := do
  if ← word? "for" then
    genericList g
    return true
  return false

/-- Where a list of conditions ends. -/
def atConditionsEnd (ts : List Tree) : Bool :=
  ts.isEmpty || atGroup .brace ts || atMark ',' ts || atMark ';' ts || (atMark ':' ts && !atMarks [':', ':'] ts) ||
    atMark '=' ts

def condition (g : Grammar) : Reader Unit := do
  let ts ← ahead
  if atLifetime ts && atMark ':' (beyond ts) then
    lifetime
    mark ':'
    lifetimesUntil atConditionsEnd
  else
    let _ ← binder g
    someType g
    mark ':'
    boundsUntil g atConditionsEnd

/-- The conditions on a definition's parameters, if there are any; whether there are. -/
def conditions (g : Grammar) : Reader Bool := do
  if ← word? "where" then
    let stop := fun ts => atConditionsEnd ts
    if !(← sees stop) then joined ',' (fun ts => !stop ts) (condition g)
    return true
  return false

/-! Bounds -/

/-- The names that a type may capture. -/
def captures : Reader Unit := do
  word "use"
  mark '<'
  let _ ← separatedUntil (atMark '>') (mark ',') do
    let ts ← ahead
    if atLifetime ts then lifetime
    else
      ensure (atIdentifier ts || atWord "Self" ts)
      skip 1
  mark '>'

def traitBound (g : Grammar) (constant : Bool) : Reader Unit := do
  let bound ← binder g
  let ts ← ahead
  if atGroup .bracket ts then
    ensure constant
    group .bracket (word "const")
  else if atWord "const" ts then
    ensure constant
    skip 1
  if ← mark? '?' then
    if !bound then
      let _ ← binder g
  let p ← path g false
  if p.segments.getLast?.all Segment.bare && atParenthesized (← ahead) then
    let _ ← marks? [':', ':']
    let _ ← parenthesizedArguments g

def bound (g : Grammar) (capture constant : Bool) : Reader Bool := do
  let ts ← ahead
  if atLifetime ts then
    lifetime
    return false
  if atWord "use" ts then
    ensure capture
    captures
    return false
  if atGroup .parenthesis ts then group .parenthesis (traitBound g constant) else traitBound g constant
  return true

/-- Bounds joined by plus signs where several are allowed; some of them must name a trait. -/
def bounds (g : Grammar) (plus capture constant : Bool) : Reader Unit := do
  let traits ← go ((← ahead).length + 1)
  ensure (traits.any id)
where
  go : Nat → Reader (List Bool)
    | 0 => refuse
    | fuel + 1 => do
      let isTrait ← g.bound capture constant
      if plus then
        if ← mark? '+' then
          if ← sees (atBound constant) then return isTrait :: (← go fuel)
      return [isTrait]

/-- Further bounds, each after a plus sign. -/
def moreBounds (g : Grammar) : Reader Unit := do
  go ((← ahead).length + 1)
where
  go : Nat → Reader Unit
    | 0 => refuse
    | fuel + 1 => do
      if ← mark? '+' then
        let _ ← g.bound false false
        go fuel

/-- Further bounds, each after a plus sign; a plus sign may stand last. Gives their number, the last sign included. -/
def trailingBounds (g : Grammar) : Reader Nat := do
  go ((← ahead).length + 1)
where
  go : Nat → Reader Nat
    | 0 => refuse
    | fuel + 1 => do
      if ← mark? '+' then
        if ← sees (atBound false) then
          let _ ← g.bound false false
          return (← go fuel) + 1
        return 1
      return 0

/-! Types -/

/-- A path with what parenthesized arguments add to it: whether it is qualified, the path, and whether its last segment
has parenthesized arguments. -/
def typePath (g : Grammar) : Reader (Bool × Path × Bool) := do
  let (qualified, p) ← qualifiedPath g false
  let (segments, parenthesized) ← go ((← ahead).length + 1) p.segments
  return (qualified, ⟨p.leading, segments⟩, parenthesized)
where
  go : Nat → List Segment → Reader (List Segment × Bool)
    | 0, _ => refuse
    | fuel + 1, segments => do
      if segments.getLast?.all Segment.bare && atParenthesized (← ahead) then
        let _ ← marks? [':', ':']
        let hasResult ← parenthesizedArguments g
        let segments := segments.dropLast ++ (segments.getLast?.toList.map fun s => ⟨s.name, false⟩)
        if hasResult then return (segments, true)
        let more ← moreSegments g false
        if more.isEmpty then return (segments, true)
        go fuel (segments ++ more)
      else return (segments, false)

/-- The parameters of a function type. -/
def functionTypeParameters (g : Grammar) : Reader Unit := do
  go true ((← ahead).length + 1)
where
  named (ts : List Tree) : Bool := (atIdentifier ts || atWord "_" ts) && atMark ':' (beyond ts)
  dots : List Char := ['.', '.', '.']
  parameter (isFirst : Bool) : Reader Unit := do
    attributes g
    let ts ← ahead
    let mutSelf := isFirst && atWord "mut" ts && atWord "self" (beyond ts)
    if mutSelf then skip 1
    let ts ← ahead
    let name := (atIdentifier ts || atWord "_" ts || (isFirst && atWord "self" ts)) && atMark ':' (beyond ts) &&
      !atMarks [':', ':'] (beyond ts)
    if name then skip 2
    if mutSelf && !name then word "self" else someType g
  go (isFirst : Bool) : Nat → Reader Unit
    | 0 => refuse
    | fuel + 1 => do
      if ← atEnd then return
      attributes g
      let ts ← ahead
      if atMarks dots ts || (named ts && atMarks dots (beyond (beyond ts))) then
        if named ts then skip 2
        marks dots
        let _ ← mark? ','
      else
        parameter isFirst
        if ← atEnd then return
        mark ','
        go false fuel

def functionType (g : Grammar) : Reader Unit := do
  let _ ← binder g
  let _ ← word? "unsafe"
  if ← word? "extern" then when? atTextLiteral (skip 1)
  word "fn"
  group .parenthesis (functionTypeParameters g)
  returnType g false

/-- What stands between the parentheses of a type. -/
inductive Enclosed where
  | nothing
  /-- A list of bounds that starts with a lifetime. -/
  | lifetimes
  /-- One bound that starts with a question mark. -/
  | maybe
  | one (type : TypeForm)
  | several

def enclosedTypes (g : Grammar) : Reader Enclosed := do
  let ts ← ahead
  if ts.isEmpty then return .nothing
  if atLifetime ts then
    bounds g true false false
    return .lifetimes
  if atMark '?' ts then
    traitBound g false
    return .maybe
  let first ← g.type true
  if ← mark? ',' then
    let _ ← commaSeparated (g.type true)
    return .several
  return .one first

def parenthesizedType (g : Grammar) (plus : Bool) : Reader TypeForm := do
  match ← group .parenthesis (enclosedTypes g) with
  | .maybe =>
    let followed ← sees (atMark '+')
    moreBounds g
    return if followed then .other else .bound
  | .one type =>
    let joins := match type with
      | .path qualified _ _ => !qualified
      | .bound => true
      | .other => false
    if plus && joins then
      if ← sees (atMark '+') then moreBounds g
    return .other
  | _ => return .other

/-- A path as a type: a macro call, a list of bounds, or the path alone. -/
def pathType (g : Grammar) (bound plus : Bool) : Reader TypeForm := do
  let (qualified, p, parenthesized) ← typePath g
  let ts ← ahead
  if qualified then return .path true p parenthesized
  if atMark '!' ts && !atMarks ['!', '='] ts && p.isBare then
    skip 1
    let _ ← anyGroup
    return .other
  if bound || (plus && atMark '+' ts) then
    let more ← if plus then trailingBounds g else pure 0
    return if more = 0 then .bound else .other
  return .path false p parenthesized

/-- What may follow the parameters that a type brings along. -/
def atBinderBody (ts : List Tree) : Bool :=
  (atIdentifier ts || atWord "fn" ts || atWord "unsafe" ts || atWord "extern" ts || atWord "super" ts ||
    atWord "self" ts || atWord "Self" ts || atWord "crate" ts) && !atWord "dyn" ts

def type (g : Grammar) (plus : Bool) : Reader TypeForm := do
  let bound ← binder g
  let ts ← ahead
  if bound then ensure (atBinderBody ts)
  if atGroup .parenthesis ts then parenthesizedType g plus
  else if atWord "fn" ts || atWord "unsafe" ts || atWord "extern" ts then
    functionType g
    return .other
  else if atPathWord ts || atMarks [':', ':'] ts || atMark '<' ts then pathType g bound plus
  else if ← word? "dyn" then
    let _ ← mark? '*'
    bounds g plus false false
    return .other
  else if atGroup .bracket ts then
    group .bracket do
      someType g
      if ← mark? ';' then noted (g.expr true)
    return .other
  else if ← mark? '*' then
    if !(← word? "const") then word "mut"
    let _ ← g.type false
    return .other
  else if ← mark? '&' then
    when? atLifetime lifetime
    let _ ← word? "mut"
    let _ ← g.type false
    return .other
  else if atMark '!' ts && !atMark '=' ts then
    skip 1
    return .other
  else if ← word? "impl" then
    bounds g plus true true
    return .other
  else if ← word? "_" then return .other
  else if atLifetime ts then
    bounds g true false false
    return .other
  else refuse

end ApiHandbook.Code
