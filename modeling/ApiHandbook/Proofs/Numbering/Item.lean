import ApiHandbook.Proofs.Numbering.Expression
import ApiHandbook.Proofs.Numbering.Shrinking

/-! The readers of items and statements, from tokens that are numbered in another way. -/
namespace ApiHandbook.Code

instance : Numbered Preamble where
  renumber f p := ⟨renumber f p.start, renumber f p.attributes, renumber f p.inner⟩

section
variable {f : Nat → Nat} {g : Grammar}

@[simp] theorem start_renumber (p : Preamble) : (renumber f p).start = renumber f p.start := rfl
@[simp] theorem attributes_renumber_preamble (p : Preamble) : (renumber f p).attributes = renumber f p.attributes := rfl
@[simp] theorem inner_renumber (p : Preamble) : (renumber f p).inner = renumber f p.inner := rfl
@[simp] theorem renumber_preamble (start : List Tree) (attributes : List Attribute) (inner : List Expr) :
    renumber f (⟨start, attributes, inner⟩ : Preamble) = ⟨renumber f start, renumber f attributes, renumber f inner⟩ := rfl

/-! Headings -/

@[simp] theorem visibility_renumber (s : Reading) : visibility (renumber f s) = renumber f (visibility s) := by
  have hpath : ∀ s, (do word "in"; let _ ← namePath : Reader Unit) (renumber f s) =
      renumber f ((do word "in"; let _ ← namePath : Reader Unit) s) := by simp
  simp only [visibility, Reader.bind_apply, word?_renumber, bind_renumber, renumber_bind, fst_renumber, renumber_bool,
    snd_renumber, Reader.ite_apply, renumber_ite, ahead_apply, Option.bind_some, rest_renumber]
  refine Option.bind_congr fun read _ => if_congr Iff.rfl ?_ (by simp)
  obtain ⟨isPublic, s⟩ := read
  have hgroup := group_renumber .parenthesis hpath s
  obtain ⟨_ | ⟨_ | _ | _ | ⟨delimiter, inner, _, _⟩, rest⟩, found⟩ := s
  case cons.group =>
    rcases delimiter with _ | _ | _
    · rcases inner with _ | ⟨t, _ | ⟨u, inner⟩⟩
      · simp
      · have hword (name : String) : atWord name [renumber f t] = atWord name [t] := atWord_renumber name [t]
        simp [hword]
      · cases t with
        | word name line =>
          by_cases hname : name = "in"
          · subst hname
            exact hgroup
          · simp [hname]
        | mark | literal | group => simp
    all_goals simp
  all_goals simp

@[simp] theorem beyondVisibility_renumber (s : Reading) :
    beyondVisibility (renumber f s) = renumber f (beyondVisibility s) := by
  have hstart := visibility_renumber (f := f) ⟨s.rest, []⟩
  rw [renumber_reading, renumber_nil] at hstart
  simp only [beyondVisibility, Reader.bind_apply, ahead_apply, Option.bind_some, rest_renumber, StateT.run, hstart]
  cases visibility ⟨s.rest, []⟩ <;> simp

/-- What has been read has a first and a last tree, if a tree has been read at all. -/
theorem spanFrom_renumber {start : List Tree} {s : Reading} (h : s.rest.length < start.length) :
    spanFrom (renumber f start) (renumber f s) = (spanFrom start s).map fun p => ((f p.1.1, f p.1.2), renumber f p.2) := by
  have heaten : start.take (start.length - s.rest.length) ≠ [] := by
    refine List.ne_nil_of_length_pos ?_
    rw [List.length_take]
    omega
  obtain ⟨t, ts, hts⟩ := List.exists_cons_of_ne_nil heaten
  simp [spanFrom, hts, List.getLast?_cons]

@[simp] theorem preamble_renumber (hg : g.Renumbers f) (s : Reading) :
    preamble g (renumber f s) = renumber f (preamble g s) := by
  simp [preamble, collect_renumber (outerAttributes_renumber hg)]

theorem heading_renumber {p : Preamble} (name : String) (more : List Attribute) {s : Reading}
    (h : s.rest.length < p.start.length) :
    heading (renumber f p) name (renumber f more) (renumber f s) = renumber f (heading p name more s) := by
  simp [heading, spanFrom_renumber h, Option.bind_map]

/-! Functions -/

@[simp] theorem receiver_renumber (hg : g.Renumbers f) (s : Reading) :
    receiver g (renumber f s) = renumber f (receiver g s) := by
  simp [receiver, hg]

@[simp] theorem attempt_renumber {reader : Reader Unit} (h : ∀ s, reader (renumber f s) = renumber f (reader s)) (s : Reading) :
    attempt reader (renumber f s) = renumber f (attempt reader s) := by
  have happly (s : Reading) : attempt reader s = ((reader s).map fun p => (true, p.2)).or (some (false, s)) := by
    change ((reader s).bind fun p => some (true, p.2)).orElse (fun _ => some (false, s)) = _
    cases reader s <;> rfl
  rw [happly, happly, h]
  cases reader s <;> simp

theorem parameters_go_renumber (hg : g.Renumbers f) (isFirst : Bool) (fuel : Nat) (s : Reading) :
    parameters.go g isFirst fuel (renumber f s) = renumber f (parameters.go g isFirst fuel s) := by
  induction fuel generalizing isFirst s with
  | zero => simp [parameters.go]
  | succ fuel ih => simp [parameters.go, ih, hg, attempt_renumber (receiver_renumber hg)]

@[simp] theorem parameters_renumber (hg : g.Renumbers f) (s : Reading) :
    parameters g (renumber f s) = renumber f (parameters g s) := by
  simp [parameters, hg, parameters_go_renumber]

@[simp] theorem signature_renumber (hg : g.Renumbers f) (safe : Bool) (s : Reading) :
    signature g safe (renumber f s) = renumber f (signature g safe s) := by
  simp [signature, hg, group_renumber _ (parameters_renumber hg)]

@[simp] theorem functionBody_renumber (hg : g.Renumbers f) (s : Reading) :
    functionBody g (renumber f s) = renumber f (functionBody g s) := by
  rw [functionBody]
  refine group_renumber _ (fun s => ?_) s
  simp [hg]

theorem functionItem_renumber [g.Shrinks] (hg : g.Renumbers f) {p : Preamble} {make : Heading → List Expr → Item}
    (hmake : ∀ h es, make (renumber f h) (renumber f es) = renumber f (make h es)) {s : Reading}
    (hs : s.rest.length ≤ p.start.length) :
    functionItem g (renumber f p) make (renumber f s) = renumber f (functionItem g p make s) := by
  rw [functionItem, Reader.bind_apply, functionItem, Reader.bind_apply, collect_renumber ?read, bind_renumber, renumber_bind]
  case read => simp [hg]
  refine Option.bind_congr fun ⟨⟨read, inner⟩, s'⟩ hread => ?_
  have hlt := (Takes.length_lt hread).trans_le hs
  cases read with
  | none => simp
  | some named => simp [heading_renumber _ _ hlt, ← hmake]

/-! Types -/

@[simp] theorem namedField_renumber (hg : g.Renumbers f) (s : Reading) :
    namedField g (renumber f s) = renumber f (namedField g s) := by
  simp [namedField, hg]

@[simp] theorem namedFields_renumber (hg : g.Renumbers f) (s : Reading) :
    namedFields g (renumber f s) = renumber f (namedFields g s) := by
  simp [namedFields, group_renumber _ (commaSeparated_renumber (namedField_renumber hg))]

@[simp] theorem unnamedFields_renumber (hg : g.Renumbers f) (s : Reading) :
    unnamedFields g (renumber f s) = renumber f (unnamedFields g s) := by
  rw [unnamedFields, Reader.bind_apply, Reader.bind_apply, group_renumber _ (commaSeparated_renumber ?field)]
  case field => simp [hg]
  simp

@[simp] theorem structBody_renumber (hg : g.Renumbers f) (s : Reading) :
    structBody g (renumber f s) = renumber f (structBody g s) := by
  simp [structBody, hg]

theorem structItem_renumber [g.Shrinks] (hg : g.Renumbers f) {p : Preamble} {s : Reading}
    (hs : s.rest.length ≤ p.start.length) : structItem g (renumber f p) (renumber f s) = renumber f (structItem g p s) := by
  rw [structItem, Reader.bind_apply, structItem, Reader.bind_apply, collect_renumber ?read, bind_renumber, renumber_bind]
  case read => simp [hg]
  refine Option.bind_congr fun ⟨⟨name, inner⟩, s'⟩ hread => ?_
  have hheading := heading_renumber (f := f) name [] ((Takes.length_lt hread).trans_le hs)
  rw [renumber_nil] at hheading
  simp [hheading]

@[simp] theorem variant_renumber (hg : g.Renumbers f) (s : Reading) : variant g (renumber f s) = renumber f (variant g s) := by
  simp [variant, hg, noted_renumber (hg.expr true)]

@[simp] theorem enumItem_renumber (hg : g.Renumbers f) (s : Reading) :
    enumItem g (renumber f s) = renumber f (enumItem g s) := by
  simp [enumItem, hg, group_renumber _ (commaSeparated_renumber (variant_renumber hg))]

@[simp] theorem unionItem_renumber (hg : g.Renumbers f) (s : Reading) :
    unionItem g (renumber f s) = renumber f (unionItem g s) := by
  simp [unionItem, hg]

@[simp] theorem typeItem_renumber (hg : g.Renumbers f) (default early late : Bool) (s : Reading) :
    typeItem g default early late (renumber f s) = renumber f (typeItem g default early late s) := by
  simp [typeItem, hg]

/-! Constants -/

@[simp] theorem staticItem_renumber (hg : g.Renumbers f) (s : Reading) :
    staticItem g (renumber f s) = renumber f (staticItem g s) := by
  simp [staticItem, hg, noted_renumber (hg.expr true)]

@[simp] theorem constantRest_renumber (hg : g.Renumbers f) (valueless : Bool) (s : Reading) :
    constantRest g valueless (renumber f s) = renumber f (constantRest g valueless s) := by
  simp [constantRest, hg, noted_renumber (hg.expr true)]

/-! Macros -/

@[simp] theorem macroBody_renumber (s : Reading) : macroBody (renumber f s) = renumber f (macroBody s) := by
  simp [macroBody]

@[simp] theorem macroItem_renumber (named : Bool) (s : Reading) :
    macroItem named (renumber f s) = renumber f (macroItem named s) := by
  simp [macroItem]

@[simp] theorem macroDefinition_renumber (s : Reading) : macroDefinition (renumber f s) = renumber f (macroDefinition s) := by
  simp [macroDefinition]

@[simp] theorem atMacroItem_renumber (ts : List Tree) : atMacroItem (renumber f ts) = atMacroItem ts := by
  simp [atMacroItem]

/-! Imports -/

theorem importTree_renumber (rooted : Bool) (fuel : Nat) (s : Reading) :
    importTree rooted fuel (renumber f s) = renumber f (importTree rooted fuel s) := by
  induction fuel generalizing rooted s with
  | zero => simp [importTree]
  | succ fuel ih =>
    rw [importTree, Reader.bind_apply, Reader.bind_apply, ahead_apply, ahead_apply, Option.bind_some, Option.bind_some,
      Reader.ite_apply, Reader.ite_apply, renumber_ite]
    refine if_congr (by simp) (by simp [ih]) ?_
    simp only [Reader.bind_apply, mark?_renumber, bind_renumber, renumber_bind, fst_renumber, renumber_bool, snd_renumber,
      Reader.ite_apply, renumber_ite]
    refine Option.bind_congr fun p _ => if_congr Iff.rfl (by simp) ?_
    rw [group_renumber _ (commaSeparated_renumber ?member)]
    case member =>
      cases rooted
      case false => exact fun s => by simpa using ih false s
      case true => simp [ih]
    have hroots (trees : List (Option (List String))) : renumber f trees = trees := by
      induction trees with
      | nil => rfl
      | cons roots trees ih => rw [renumber_cons, renumber_strings?, ih]
    simp [hroots]

@[simp] theorem importItem_renumber (s : Reading) : importItem (renumber f s) = renumber f (importItem s) := by
  simp only [importItem, Reader.bind_apply, visibility_renumber, word_renumber, marks?_renumber, ahead_apply, Option.bind_some,
    rest_renumber, Tree.sizeAll_renumber, importTree_renumber, mark_renumber, bind_renumber, renumber_bind, snd_renumber,
    fst_renumber, renumber_bool]
  refine Option.bind_congr fun _ _ => Option.bind_congr fun _ _ => Option.bind_congr fun _ _ => ?_
  refine Option.bind_congr fun ⟨roots, s⟩ _ => Option.bind_congr fun _ _ => ?_
  cases roots <;> simp

@[simp] theorem externCrate_renumber (s : Reading) : externCrate (renumber f s) = renumber f (externCrate s) := by
  simp [externCrate]

/-! Blocks of items -/

@[simp] theorem dropped_renumber {reader : Reader Unit} (h : ∀ s, reader (renumber f s) = renumber f (reader s)) (s : Reading) :
    dropped reader (renumber f s) = renumber f (dropped reader s) := by
  simp [dropped, collect_renumber h]

@[simp] theorem foreignStatic_renumber (hg : g.Renumbers f) (s : Reading) :
    foreignStatic g (renumber f s) = renumber f (foreignStatic g s) := by
  simp [foreignStatic, hg, dropped_renumber (noted_renumber (hg.expr true))]

@[simp] theorem foreignItem_renumber (hg : g.Renumbers f) (s : Reading) :
    foreignItem g (renumber f s) = renumber f (foreignItem g s) := by
  simp [foreignItem, hg, ite_renumber atSignature_renumber, dropped_renumber (attributedBlock_renumber hg)]

@[simp] theorem foreignBlock_renumber (hg : g.Renumbers f) (s : Reading) :
    foreignBlock g (renumber f s) = renumber f (foreignBlock g s) := by
  have hinside := fun s => untilEnd_renumber (foreignItem_renumber hg) (f := f) s
  have hitems := @group_renumber f Unit _ .brace (do let _ ← innerAttributes g; let _ ← untilEnd (foreignItem g))
    (by simp [hg, hinside])
  simp [foreignBlock, hitems, -bind_pure_comp]

@[simp] theorem forM_note_renumber (es : List Expr) (s : Reading) :
    (forM (renumber f es) note : Reader Unit) (renumber f s) = renumber f ((forM es note : Reader Unit) s) := by
  induction es generalizing s with
  | nil => simp
  | cons e es ih => simp [ih]

@[simp] theorem traitMember_renumber (hg : g.Renumbers f) (s : Reading) :
    traitMember g (renumber f s) = renumber f (traitMember g s) := by
  rw [traitMember, Reader.bind_apply, Reader.bind_apply, collect_renumber ?read]
  case read =>
    intro s
    simp [hg]
    -- What is left is the match on what a constant holds.
    refine Option.bind_congr fun _ _ => Option.bind_congr fun _ _ => Option.bind_congr fun _ _ => if_congr Iff.rfl rfl ?_
    refine Option.bind_congr fun _ _ => if_congr Iff.rfl (Option.bind_congr fun ⟨i, s⟩ _ => ?_) rfl
    cases i <;> simp
  rw [bind_renumber, renumber_bind]
  refine Option.bind_congr fun ⟨⟨plain, inner⟩, s⟩ _ => ?_
  cases plain <;> simp

@[simp] theorem traitItem_renumber (hg : g.Renumbers f) (s : Reading) :
    traitItem g (renumber f s) = renumber f (traitItem g s) := by
  have hmembers := fun s => untilEnd_renumber (traitMember_renumber hg) (f := f) s
  have hinside := @group_renumber f Unit _ .brace (do let _ ← innerAttributes g; let _ ← untilEnd (traitMember g))
    (by simp [hg, hmembers])
  simp [traitItem, hg, hinside, -bind_pure_comp]

@[simp] theorem implMember_renumber [g.Shrinks] (hg : g.Renumbers f) (s : Reading) :
    implMember g (renumber f s) = renumber f (implMember g s) := by
  rw [implMember]
  refine bind_renumbers_of (preamble_renumber hg s) fun p s hp => ?_
  refine bind_renumbers_of (ahead_renumber s) fun ts s hts => ?_
  refine bind_renumbers_of (beyondVisibility_renumber s) fun inner s hinner => ?_
  have hle := ((Shrinks.length_le hinner).trans (Shrinks.length_le hts)).trans (length_le_of_preamble g hp)
  simp [hg, functionItem_renumber hg (fun h es => (renumber_method h es).symm) hle, ite_renumber atSignature_renumber,
    ite_renumber (atWord_renumber _), ite_renumber atMacroItem_renumber]

@[simp] theorem opensParameters_renumber (ts : List Tree) : opensParameters (renumber f ts) = opensParameters ts := by
  simp [opensParameters]

instance : Numbered Subject := ⟨fun _ => id⟩

@[simp] theorem renumber_subject (subject : Subject) : renumber f subject = subject := rfl

@[simp] theorem implSubject_renumber (hg : g.Renumbers f) (s : Reading) :
    implSubject g (renumber f s) = renumber f (implSubject g s) := by
  rw [implSubject]
  -- The steps one by one, since each option doubles what a single rewriting has to go through.
  refine bind_renumbers ahead_renumber (fun start => bind_renumbers visibility_renumber fun _ => ?_) s
  refine bind_renumbers ahead_renumber fun ts => bind_renumbers (word?_renumber "default") fun _ => ?_
  refine bind_renumbers (word?_renumber "unsafe") fun _ => bind_renumbers (word_renumber "impl") fun _ => ?_
  refine bind_renumbers (sees_renumber opensParameters_renumber) fun _ => ?_
  refine choice_renumbers Iff.rfl ?_ fun h => bind_renumbers (genericList_renumber hg) fun _ => h
  refine bind_renumbers ahead_renumber fun ts' => choice_renumbers (by simp) ?_ fun h =>
    bind_renumbers (mark?_renumber '?') fun _ => bind_renumbers (word_renumber "const") fun _ => h
  refine bind_renumbers ahead_renumber fun ts'' => choice_renumbers (by simp) ?_ fun h =>
    bind_renumbers (skip_renumber 1) fun _ => h
  refine bind_renumbers (hg.type true) fun first => ?_
  rcases first with ⟨_ | _, _, _⟩ | _ | _ <;> simp [hg]

@[simp] theorem implementation_renumber [g.Shrinks] (hg : g.Renumbers f) (p : Preamble) (s : Reading) :
    implementation g (renumber f p) (renumber f s) = renumber f (implementation g p s) := by
  have hmembers := fun s => untilEnd_renumber (implMember_renumber hg) (f := f) s
  rw [implementation, implementation]
  refine bind_renumbers (collect_renumber (implSubject_renumber hg)) (fun ⟨subject, inner⟩ => ?_) s
  refine bind_renumbers (collect_renumber (group_renumber _ ?_)) fun ⟨members, more⟩ s => ?_
  · simp [hg, hmembers]
  · cases subject <;> simp

@[simp] theorem moduleItem_renumber (hg : g.Renumbers f) (s : Reading) :
    moduleItem g (renumber f s) = renumber f (moduleItem g s) := by
  have hitems := fun s => untilEnd_renumber hg.item (f := f) s
  have hinside := @group_renumber f (List Item) _ .brace (do let _ ← innerAttributes g; untilEnd g.item) (by simp [hg, hitems])
  simp [moduleItem, hinside]

/-! All items -/

theorem itemRest_renumber [g.Shrinks] (hg : g.Renumbers f) {p : Preamble} {s : Reading} (hs : s.rest.length ≤ p.start.length) :
    itemRest g (renumber f p) (renumber f s) = renumber f (itemRest g p s) := by
  rw [itemRest, itemRest]
  refine bind_renumbers_of (ahead_renumber s) fun ts s hts => ?_
  refine bind_renumbers_of (beyondVisibility_renumber s) fun inner s hinner => ?_
  have hle := ((Shrinks.length_le hinner).trans (Shrinks.length_le hts)).trans hs
  simp [hg, functionItem_renumber hg (fun h es => (renumber_function h es).symm) hle, structItem_renumber hg hle]

@[simp] theorem item_renumber [g.Shrinks] (hg : g.Renumbers f) (s : Reading) : item g (renumber f s) = renumber f (item g s) := by
  rw [item]
  exact bind_renumbers_of (preamble_renumber hg s) fun p s' hp => itemRest_renumber hg (length_le_of_preamble g hp)

/-! Statements -/

@[simp] theorem localDefinition_renumber (hg : g.Renumbers f) (s : Reading) :
    localDefinition g (renumber f s) = renumber f (localDefinition g s) := by
  rw [localDefinition]
  refine bind_renumbers (word_renumber "let") (fun _ => bind_renumbers hg.pattern fun _ => ?_) s
  refine bind_renumbers (mark?_renumber ':') fun _ => choice_renumbers Iff.rfl ?_ fun h =>
    bind_renumbers (someType_renumber hg) fun _ => h
  refine bind_renumbers (mark?_renumber '=') fun _ => choice_renumbers Iff.rfl (by simp) fun h => ?_
  refine bind_renumbers (consumed_renumber (noted_renumber (hg.expr true))) fun ⟨_, eaten⟩ => choice_renumbers ?_ h fun h => ?_
  · have hgroup (t : Tree) : atGroup .brace [renumber f t] = atGroup .brace [t] := atGroup_renumber .brace [t]
    rw [getLast?_renumber]
    cases eaten.getLast? <;> simp [hgroup]
  · exact bind_renumbers (word?_renumber "else") fun _ => choice_renumbers Iff.rfl h fun h =>
      bind_renumbers (block_renumber hg) fun _ => h

@[simp] theorem atItem_renumber (ts : List Tree) : atItem (renumber f ts) = atItem ts := by
  simp [atItem]

instance : Numbered MacroStart where
  renumber f m :=
    match m with
    | .statement rest => .statement (renumber f rest)
    | other => other

@[simp] theorem renumber_noMacro : renumber f MacroStart.none = .none := rfl
@[simp] theorem renumber_itemMacro : renumber f MacroStart.item = .item := rfl
@[simp] theorem renumber_statementMacro (rest : List Tree) :
    renumber f (MacroStart.statement rest) = .statement (renumber f rest) := rfl

@[simp] theorem macroStart_renumber (ts : List Tree) : macroStart (renumber f ts) = renumber f (macroStart ts) := by
  have hpath := namePath_renumber (f := f) ⟨ts, []⟩
  rw [renumber_reading, renumber_nil] at hpath
  simp only [macroStart, StateT.run, hpath]
  cases namePath ⟨ts, []⟩ <;> simp

@[simp] theorem statement_renumber [g.Shrinks] (hg : g.Renumbers f) (s : Reading) :
    statement g (renumber f s) = renumber f (statement g s) := by
  rw [statement]
  refine bind_renumbers_of (preamble_renumber hg s) fun p s' hp => ?_
  refine bind_renumbers_of (ahead_renumber s') fun ts s hts => ?_
  have hitem := itemRest_renumber hg ((Shrinks.length_le hts).trans (length_le_of_preamble g hp))
  have hnote (i : Item) (s : Reading) := note_renumber (f := f) (.item i) s
  simp only [renumber_itemExpr] at hnote
  rw [macroStart_renumber]
  cases macroStart ts with
  | none => simp [hg, hnote, hitem]
  | item => simp [hg, hnote, hitem]
  | statement rest =>
    have hrest := mark?_renumber (f := f) ';' ⟨rest.drop 2, s.found⟩
    rw [renumber_reading] at hrest
    simp [hrest]

theorem statements_go_renumber [g.Shrinks] (hg : g.Renumbers f) (fuel : Nat) (s : Reading) :
    statements.go g fuel (renumber f s) = renumber f (statements.go g fuel s) := by
  induction fuel generalizing s with
  | zero => simp [statements.go]
  | succ fuel ih => simp [statements.go, ih, hg]

@[simp] theorem statements_renumber [g.Shrinks] (hg : g.Renumbers f) (s : Reading) :
    statements g (renumber f s) = renumber f (statements g s) := by
  simp [statements, hg, statements_go_renumber]

end
end ApiHandbook.Code
