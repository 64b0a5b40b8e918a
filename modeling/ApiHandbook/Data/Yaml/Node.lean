import ApiHandbook.Data.Yaml.Token
import ApiHandbook.Entries

/-! The nodes of a YAML document, read from its tokens. Anchors are numbered, and an alias is kept as the number of its
anchor. -/
namespace ApiHandbook.Yaml

inductive Node where
  | scalar (text : String) (style : Style) (tag : Option String)
  | sequence (items : List Node)
  | mapping (fields : List (Node × Node))
  /-- Stands for the node with an anchor of this number. -/
  | alias (number : Nat)
  deriving Repr

namespace Node

/-- The node of an empty place. -/
def empty : Node := .scalar "" .plain none

/-- An anchor, and its node once it is complete. -/
structure Anchor where
  name : String
  /-- The number of different names in front of the anchor, so that a name given again may share a number. -/
  number : Nat
  node : Option Node := none

/-- What is left of the tokens, and the anchors in the order in which their nodes start. -/
structure Reader where
  rest : List Token
  anchors : List Anchor := []
  /-- The tag handles that directives declare. -/
  handles : List String := []

namespace Reader

def next (r : Reader) : Option Token := r.rest.head?

def skip (r : Reader) : Reader := { r with rest := r.rest.tail }

def nextIs (r : Reader) (ts : List Token) : Bool := r.next.any ts.contains

/-- The alias of the last anchor with a name. -/
def alias? (r : Reader) (name : String) : Option Node :=
  (r.anchors.reverse.find? fun a => a.name == name).map fun a => .alias a.number

end Reader

/-- The properties in front of a node. -/
structure Properties where
  anchor : Option String := none
  tag : Option (String × String) := none

/-- An anchor and a tag, each at most once, in either order. -/
def readProperties (r : Reader) : Properties × Reader :=
  match r.rest with
  | .anchor name :: .tag handle suffix :: rest =>
    (⟨some name, some (handle, suffix)⟩, { r with rest })
  | .tag handle suffix :: .anchor name :: rest =>
    (⟨some name, some (handle, suffix)⟩, { r with rest })
  | .anchor name :: rest => (⟨some name, none⟩, { r with rest })
  | .tag handle suffix :: rest => (⟨none, some (handle, suffix)⟩, { r with rest })
  | _ => ({}, r)

/-- The full tag; its handle must be known. -/
def resolveTag? (r : Reader) : Option (String × String) → Option (Option String)
  | none => some none
  | some (handle, suffix) =>
    if handle.isEmpty then some (some suffix)
    else if r.handles.contains handle then some (some (handle ++ suffix))
    else if handle == "!" then some (some ("!" ++ suffix))
    else if handle == "!!" then some (some ("tag:yaml.org,2002:" ++ suffix))
    else none

/-- Where a node stands decides which collections may start there. -/
structure Position where
  block : Bool
  /-- Whether a sequence may start without being indented. -/
  indentless : Bool

/-- Remembers an anchor whose node starts. -/
def openAnchor (r : Reader) (name : Option String) : Reader :=
  match name with
  | some name => { r with anchors := r.anchors ++ [⟨name, (distinct (r.anchors.map Anchor.name)).length, none⟩] }
  | none => r

/-- Completes the anchor that was opened when `count` anchors were known. -/
def closeAnchor (r : Reader) (name : Option String) (count : Nat) (node : Node) : Reader :=
  if name.isSome then { r with anchors := r.anchors.modify count fun a => { a with node := some node } } else r

mutual

/-- Reads a node; the fuel bounds the number of steps. -/
def readNode (position : Position) : Nat → Reader → Option (Node × Reader)
  | 0, _ => none
  | fuel + 1, r =>
    match r.next with
    | some (.alias name) => (r.alias? name).map fun node => (node, r.skip)
    | _ => do
      let (properties, r) := readProperties r
      let tag ← resolveTag? r properties.tag
      let count := r.anchors.length
      let (node, r) ← readContent position properties tag fuel (openAnchor r properties.anchor)
      pure (node, closeAnchor r properties.anchor count node)

/-- Reads a node after its properties. -/
def readContent (position : Position) (properties : Properties) (tag : Option String) :
    Nat → Reader → Option (Node × Reader)
  | 0, _ => none
  | fuel + 1, r =>
    match r.next with
    | some (.scalar text style) => some (.scalar text style tag, r.skip)
    | some .flowSequenceStart => (readFlowItems fuel true r.skip).map fun (items, r) => (.sequence items, r)
    | some .flowMappingStart => (readFlowFields fuel true r.skip).map fun (fields, r) => (.mapping fields, r)
    | t =>
      if position.indentless && t == some .blockEntry then
        (readIndentlessItems fuel r).map fun (items, r) => (.sequence items, r)
      else if position.block && t == some .blockSequenceStart then
        (readBlockItems fuel r.skip).map fun (items, r) => (.sequence items, r)
      else if position.block && t == some .blockMappingStart then
        (readBlockFields fuel r.skip).map fun (fields, r) => (.mapping fields, r)
      else if properties.anchor.isSome || properties.tag.isSome then some (.scalar "" .plain tag, r)
      else none

/-- Reads a node, or an empty one in front of a token of `ends`. -/
def readNodeBefore (position : Position) (ends : List Token) : Nat → Reader → Option (Node × Reader)
  | 0, _ => none
  | fuel + 1, r => if r.nextIs ends then some (empty, r) else readNode position fuel r

def readBlockItems : Nat → Reader → Option (List Node × Reader)
  | 0, _ => none
  | fuel + 1, r =>
    match r.next with
    | some .blockEntry => do
      let (item, r) ← readNodeBefore ⟨true, false⟩ [.blockEntry, .blockEnd] fuel r.skip
      let (items, r) ← readBlockItems fuel r
      pure (item :: items, r)
    | some .blockEnd => some ([], r.skip)
    | _ => none

def readIndentlessItems : Nat → Reader → Option (List Node × Reader)
  | 0, _ => none
  | fuel + 1, r =>
    match r.next with
    | some .blockEntry => do
      let (item, r) ← readNodeBefore ⟨true, false⟩ [.blockEntry, .key, .value, .blockEnd] fuel r.skip
      let (items, r) ← readIndentlessItems fuel r
      pure (item :: items, r)
    | _ => some ([], r)

def readBlockFields : Nat → Reader → Option (List (Node × Node) × Reader)
  | 0, _ => none
  | fuel + 1, r =>
    match r.next with
    | some .key => do
      let (key, r) ← readNodeBefore ⟨true, true⟩ [.key, .value, .blockEnd] fuel r.skip
      let (value, r) ←
        if r.next == some .value then readNodeBefore ⟨true, true⟩ [.key, .value, .blockEnd] fuel r.skip
        else some (empty, r)
      let (fields, r) ← readBlockFields fuel r
      pure ((key, value) :: fields, r)
    | some .blockEnd => some ([], r.skip)
    | _ => none

/-- Reads the items of a flow sequence; all but the first follow a comma. -/
def readFlowItems : Nat → Bool → Reader → Option (List Node × Reader)
  | 0, _, _ => none
  | fuel + 1, first, r =>
    if r.next == some .flowSequenceEnd then some ([], r.skip)
    else if !first && r.next != some .flowEntry then none
    else
      let r := if first then r else r.skip
      match r.next with
      | some .flowSequenceEnd => some ([], r.skip)
      | some .key => do
        let (item, r) ← readFlowPair fuel r.skip
        let (items, r) ← readFlowItems fuel false r
        pure (item :: items, r)
      | _ => do
        let (item, r) ← readNode ⟨false, false⟩ fuel r
        let (items, r) ← readFlowItems fuel false r
        pure (item :: items, r)

/-- Reads a pair inside a flow sequence, after its key mark; a pair without a key loses its next mark. -/
def readFlowPair : Nat → Reader → Option (Node × Reader)
  | 0, _ => none
  | fuel + 1, r => do
    let (key, r) ←
      if r.nextIs [.value, .flowEntry, .flowSequenceEnd] then some (empty, r.skip)
      else readNode ⟨false, false⟩ fuel r
    let (value, r) ←
      if r.next == some .value then
        readNodeBefore ⟨false, false⟩ [.flowEntry, .flowSequenceEnd] fuel r.skip
      else some (empty, r)
    pure (.mapping [(key, value)], r)

/-- Reads the fields of a flow mapping; all but the first follow a comma. -/
def readFlowFields : Nat → Bool → Reader → Option (List (Node × Node) × Reader)
  | 0, _, _ => none
  | fuel + 1, first, r =>
    if r.next == some .flowMappingEnd then some ([], r.skip)
    else if !first && r.next != some .flowEntry then none
    else
      let r := if first then r else r.skip
      match r.next with
      | some .flowMappingEnd => some ([], r.skip)
      | some .key => do
        let (key, r) ← readNodeBefore ⟨false, false⟩ [.value, .flowEntry, .flowMappingEnd] fuel r.skip
        let (value, r) ←
          if r.next == some .value then
            readNodeBefore ⟨false, false⟩ [.flowEntry, .flowMappingEnd] fuel r.skip
          else some (empty, r)
        let (fields, r) ← readFlowFields fuel false r
        pure ((key, value) :: fields, r)
      | _ => do
        let (key, r) ← readNode ⟨false, false⟩ fuel r
        let (fields, r) ← readFlowFields fuel false r
        pure ((key, empty) :: fields, r)

end

/-- Reads the directives in front of a document: one version, of the first generation, and distinct handles. -/
def readDirectives : Bool → List String → List Token → Option (List String × List Token)
  | seen, handles, .version major minor :: rest =>
    if seen || major != 1 || (minor != 1 && minor != 2) then none else readDirectives true handles rest
  | seen, handles, .tagDirective handle :: rest =>
    if handles.contains handle then none else readDirectives seen (handle :: handles) rest
  | _, handles, rest => some (handles, rest)

/-- Whether a token starts a document explicitly. -/
def startsExplicitly : Option Token → Bool
  | some (.version _ _) | some (.tagDirective _) | some .documentStart => true
  | _ => false

end Node

/-- A document with the nodes that have an anchor, in the order in which they start. -/
structure Document where
  root : Node
  anchored : List (Nat × Node)

namespace Document

/-- The node that an alias stands for: the last one with its number. Any other node stands for itself. -/
def resolve (d : Document) : Node → Node
  | .alias number => ((d.anchored.reverse.lookup number).getD .empty)
  | node => node

open Node in
/-- Reads the one document of a stream after its start. -/
def ofTokens? (tokens : List Token) : Option Document := do
  let fuel := 4 * tokens.length + 4
  let (root, r) ←
    if startsExplicitly tokens.head? then do
      let (handles, tokens) ← readDirectives false [] tokens
      match tokens with
      | .documentStart :: rest =>
        let r : Reader := { rest, handles }
        if startsExplicitly r.next || r.nextIs [.documentEnd, .streamEnd] then pure (empty, r)
        else readNode ⟨true, false⟩ fuel r
      | _ => none
    else if tokens.head? == some .streamEnd then pure (empty, { rest := tokens })
    else readNode ⟨true, false⟩ fuel { rest := tokens }
  if r.rest.dropWhile (· == .documentEnd) == [.streamEnd] then
    some ⟨root, r.anchors.filterMap fun a => a.node.map fun node => (a.number, node)⟩
  else none

/-- The document of a text that holds one document, or none, which reads as an empty place. -/
def read? (text : List Char) : Option Document := do
  let tokens ← tokens? text
  ofTokens? tokens.tail

end Document
end ApiHandbook.Yaml
