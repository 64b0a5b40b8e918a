import ApiHandbook.Proofs.Naming.Expression
import Mathlib

/-! The readers of items and statements keep a property of names, and so does the whole grammar: the functions of a file
and the paths in it are named by words. -/
namespace ApiHandbook.Code
open Std.Do Reader

set_option mvcgen.warning false

section
variable {p : String → Prop} {g : Grammar}

/-! Headings -/

@[spec] theorem visibility_keeps : Keeps p visibility := by
  mvcgen [visibility] with grind

@[spec] theorem beyondVisibility_keeps : Keeps p beyondVisibility := by
  mvcgen [beyondVisibility] with grind

@[spec] theorem spanFrom_keeps (start : List Tree) : Keeps p (spanFrom start) := by
  mvcgen [spanFrom] with grind

@[spec] theorem preamble_yields (hg : g.Keeps p) : Yields p (preamble g) fun x => Expr.AllNamed p x.inner := by
  mvcgen [preamble] with grind

@[spec] theorem heading_yields (x : Preamble) {name : String} (hname : p name) (more : List Attribute) :
    Yields p (heading x name more) fun h => p h.name := by
  mvcgen [heading]

/-! Functions -/

@[spec] theorem receiver_keeps (hg : g.Keeps p) : Keeps p (receiver g) := by
  mvcgen [receiver] with grind

theorem attempt_apply (reader : Reader Unit) (s : Reading) :
    attempt reader s = match reader s with
      | some (_, after) => some (true, after)
      | none => some (false, s) := by
  change (reader s >>= fun x => some (true, x.2)).orElse (fun _ => some (false, s)) = _
  cases reader s <;> rfl

@[spec] theorem attempt_keeps {reader : Reader Unit} (h : Keeps p reader) : Keeps p (attempt reader) := by
  refine triple_iff.mpr fun s a s' hs hrun => ?_
  rw [attempt_apply] at hrun
  split at hrun
  · rename_i after hread
    have hafter := triple_iff.mp h s () after hs hread
    grind
  · grind

@[spec] theorem parameters_keeps (hg : g.Keeps p) : Keeps p (parameters g) := by
  have go (isFirst : Bool) (fuel : Nat) : Keeps p (parameters.go g isFirst fuel) := by
    induction fuel generalizing isFirst with
    | zero => mvcgen [parameters.go]
    | succ fuel ih => mvcgen [parameters.go, ih] <;> grind
  mvcgen [parameters, go] with grind

@[spec] theorem signature_yields (hg : g.Keeps p) (safe : Bool) : Yields p (signature g safe) p := by
  mvcgen [signature] with grind

@[spec] theorem functionBody_keeps (hg : g.Keeps p) : Keeps p (functionBody g) := by
  mvcgen [functionBody] with grind

@[spec] theorem functionItem_yields (hg : g.Keeps p) {x : Preamble} (hx : Expr.AllNamed p x.inner)
    {make : Heading → List Expr → Item} (hmake : ∀ h body, p h.name → Expr.AllNamed p body → (make h body).Named p) :
    Yields p (functionItem g x make) (Item.Named p) := by
  mvcgen [functionItem] with grind

/-! Types -/

@[spec] theorem namedField_keeps (hg : g.Keeps p) : Keeps p (namedField g) := by
  mvcgen [namedField] with grind

@[spec] theorem namedFields_keeps (hg : g.Keeps p) : Keeps p (namedFields g) := by
  mvcgen [namedFields] with grind

@[spec] theorem unnamedFields_keeps (hg : g.Keeps p) : Keeps p (unnamedFields g) := by
  mvcgen [unnamedFields] with grind

@[spec] theorem structBody_keeps (hg : g.Keeps p) : Keeps p (structBody g) := by
  mvcgen [structBody] with grind

@[spec] theorem structItem_yields (hg : g.Keeps p) {x : Preamble} (hx : Expr.AllNamed p x.inner) :
    Yields p (structItem g x) (Item.Named p) := by
  mvcgen [structItem] with grind

@[spec] theorem variant_keeps (hg : g.Keeps p) : Keeps p (variant g) := by
  mvcgen [variant] with grind

@[spec] theorem enumItem_keeps (hg : g.Keeps p) : Keeps p (enumItem g) := by
  mvcgen [enumItem] with grind

@[spec] theorem unionItem_keeps (hg : g.Keeps p) : Keeps p (unionItem g) := by
  mvcgen [unionItem] with grind

@[spec] theorem typeItem_keeps (hg : g.Keeps p) (default early late : Bool) :
    Keeps p (typeItem g default early late) := by
  mvcgen [typeItem] with grind

/-! Constants, macros and imports -/

@[spec] theorem staticItem_yields (hg : g.Keeps p) : Yields p (staticItem g) (Item.Named p) := by
  mvcgen [staticItem] with grind

@[spec] theorem constantRest_yields (hg : g.Keeps p) (valueless : Bool) :
    Yields p (constantRest g valueless) (Item.Named p) := by
  mvcgen [constantRest] with grind

@[spec] theorem macroBody_keeps : Keeps p macroBody := by
  mvcgen [macroBody] with grind

@[spec] theorem macroItem_keeps (named : Bool) : Keeps p (macroItem named) := by
  mvcgen [macroItem]

@[spec] theorem macroDefinition_keeps : Keeps p macroDefinition := by
  mvcgen [macroDefinition] with grind

@[spec] theorem importTree_keeps (rooted : Bool) (fuel : Nat) : Keeps p (importTree rooted fuel) := by
  induction fuel generalizing rooted with
  | zero => mvcgen [importTree]
  | succ fuel ih => mvcgen [importTree, ih] <;> grind

@[spec] theorem importItem_yields : Yields p importItem (Item.Named p) := by
  mvcgen [importItem] with grind

@[spec] theorem externCrate_keeps : Keeps p externCrate := by
  mvcgen [externCrate] with grind

/-! Blocks of items -/

@[spec] theorem foreignStatic_keeps (hg : g.Keeps p) : Keeps p (foreignStatic g) := by
  mvcgen [foreignStatic, dropped] with grind

@[spec] theorem foreignItem_keeps (hg : g.Keeps p) : Keeps p (foreignItem g) := by
  mvcgen [foreignItem, dropped] with grind

@[spec] theorem foreignBlock_keeps (hg : g.Keeps p) : Keeps p (foreignBlock g) := by
  mvcgen [foreignBlock] with grind

@[spec] theorem traitMember_keeps (hg : g.Keeps p) : Keeps p (traitMember g) := by
  mvcgen [traitMember, -note] with grind

@[spec] theorem traitItem_keeps (hg : g.Keeps p) : Keeps p (traitItem g) := by
  mvcgen [traitItem] with grind

@[spec] theorem implMember_yields (hg : g.Keeps p) : Yields p (implMember g) (Item.Named p) := by
  mvcgen [implMember] with grind

@[spec] theorem implSubject_keeps (hg : g.Keeps p) : Keeps p (implSubject g) := by
  have hconditions : Keeps p (conditions g) := conditions_keeps hg
  mvcgen [implSubject, hconditions] with grind

@[spec] theorem implementation_yields (hg : g.Keeps p) {x : Preamble} (hx : Expr.AllNamed p x.inner) :
    Yields p (implementation g x) (Item.Named p) := by
  have hmembers := (untilEnd_yields (implMember_yields hg)).imp fun _ => Item.allNamed_iff.mpr
  mvcgen [implementation, hmembers] with grind

@[spec] theorem moduleItem_yields (hg : g.Keeps p) : Yields p (moduleItem g) (Item.Named p) := by
  have hitems := (untilEnd_yields hg.item).imp fun _ => Item.allNamed_iff.mpr
  mvcgen [moduleItem, hitems] with grind

@[spec] theorem itemRest_yields (hg : g.Keeps p) {x : Preamble} (hx : Expr.AllNamed p x.inner) :
    Yields p (itemRest g x) (Item.Named p) := by
  mvcgen [itemRest] with grind

@[spec] theorem item_yields (hg : g.Keeps p) : Yields p (item g) (Item.Named p) := by
  mvcgen [item] with grind

/-! Statements -/

@[spec] theorem localDefinition_keeps (hg : g.Keeps p) : Keeps p (localDefinition g) := by
  mvcgen [localDefinition] with grind

theorem allNamed_of_macroStart {ts rest : List Tree} (hts : Tree.AllNamed p ts)
    (h : macroStart ts = .statement rest) : Tree.AllNamed p rest := by
  rw [macroStart] at h
  split at h
  · rename_i names s hrun
    have hstart : (Reading.mk ts []).Named p := ⟨hts, trivial⟩
    have hs := triple_iff.mp namePath_keeps _ _ _ hstart hrun
    have hrest : s.rest = rest := by
      grind
    exact hrest ▸ hs.rest
  · cases h

@[spec] theorem statement_keeps (hg : g.Keeps p) : Keeps p (statement g) := by
  have hnote {e : Expr} (he : e.Named p) : Keeps p (note e) := note_keeps he
  mvcgen [statement, hnote, -note] with grind [allNamed_of_macroStart]

@[spec] theorem statements_keeps (hg : g.Keeps p) : Keeps p (statements g) := by
  have go (fuel : Nat) : Keeps p (statements.go g fuel) := by
    induction fuel with
    | zero => mvcgen [statements.go]
    | succ fuel ih => mvcgen [statements.go, ih]
  mvcgen [statements, go] with grind

end

/-! Whole texts -/

/-- The grammar keeps every property of names, however deep its texts are nested. -/
theorem grammar_keeps (p : String → Prop) (depth : Nat) : (grammar depth).Keeps p := by
  induction depth with
  | zero =>
    exact
      { expr := fun _ => refuse_keeps
        unary := fun _ => refuse_keeps
        climb := fun _ _ _ _ => refuse_keeps
        trailer := fun _ _ => refuse_keeps
        early := refuse_keeps
        statements := refuse_keeps
        type := fun _ => refuse_keeps
        bound := fun _ _ => refuse_keeps
        pattern := refuse_keeps
        item := refuse_keeps }
  | succ depth ih =>
    exact
      { expr := expr_yields ih
        unary := unary_yields ih
        climb := fun _ structs base => climb_yields ih structs base
        trailer := fun _ => trailer_yields ih
        early := early_yields ih
        statements := statements_keeps ih
        type := type_keeps ih
        bound := bound_keeps ih
        pattern := pattern_keeps ih
        item := item_yields ih }

/-- Functions and paths in the items of a text are named by words. -/
theorem allNamed_of_items? {s : List Char} {is : List Item} (h : items? s = some is) : Item.AllNamed IsWord is := by
  obtain ⟨ts, hts, his⟩ := Option.bind_eq_some_iff.mp h
  have hg : (grammarFor ts).Keeps IsWord := grammar_keeps IsWord (8 * Tree.sizeAll ts + 16)
  have hitems := (untilEnd_yields hg.item).imp fun _ => Item.allNamed_iff.mpr
  have hfile : Yields IsWord (do
      let _ ← innerAttributes (grammarFor ts)
      untilEnd (grammarFor ts).item) (Item.AllNamed IsWord) := by
    mvcgen [hitems]
  exact of_whole? hfile (Tree.allNamed_of_ofText? hts) his

end ApiHandbook.Code
