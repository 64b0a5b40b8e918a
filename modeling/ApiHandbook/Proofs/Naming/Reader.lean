import ApiHandbook.Proofs.Naming.Word
import Mathlib

/-! Readers keep a property of names: from trees in which all words have it, they make values in which all names have it,
and so do the trees that they leave. -/
namespace ApiHandbook.Code
open Std.Do

set_option mvcgen.warning false

/-! Triples about readers -/

/-- Whether all names in what is still to be read and in the expressions met have a property. -/
structure Reading.Named (p : String → Prop) (s : Reading) : Prop where
  rest : Tree.AllNamed p s.rest
  found : Expr.AllNamed p s.found

/-- Whether a reader keeps a property of names, whatever its value. -/
abbrev Reader.Keeps {α : Type} (p : String → Prop) (r : Reader α) : Prop :=
  ⦃fun s => ⌜s.Named p⌝⦄ r ⦃⇓? _ s => ⌜s.Named p⌝⦄

/-- Whether a reader that keeps a property of names has only values of a kind. -/
abbrev Reader.Yields {α : Type} (p : String → Prop) (r : Reader α) (Q : α → Prop) : Prop :=
  ⦃fun s => ⌜s.Named p⌝⦄ r ⦃⇓? a s => ⌜Q a ∧ s.Named p⌝⦄

open Reader

theorem wp_option_iff {α : Type} (x : Option α) (Q : α → Prop) :
    (wp⟦x⟧ (PostCond.mayThrow fun a => ⌜Q a⌝)).down ↔ ∀ a, x = some a → Q a := by
  cases x with
  | none =>
    rw [show (none : Option α) = MonadExceptOf.throw PUnit.unit from rfl, WP.throw_Option]
    exact ⟨fun _ => nofun, fun _ => trivial⟩
  | some a =>
    rw [show some a = pure a from rfl, WPMonad.wp_pure]
    exact ⟨fun h b hb => Option.some.inj hb ▸ h, fun h => h a rfl⟩

/-- What a triple says of the runs of a reader. -/
theorem triple_iff {α : Type} {r : Reader α} {P : Reading → Prop} {Q : α → Reading → Prop} :
    ⦃fun s => ⌜P s⌝⦄ r ⦃⇓? a s => ⌜Q a s⌝⦄ ↔ ∀ s a s', P s → r s = some (a, s') → Q a s' := by
  have hwp (s : Reading) : (wp⟦r⟧ (PostCond.mayThrow fun a s => ⌜Q a s⌝) s).down ↔
      ∀ a s', r s = some (a, s') → Q a s' :=
    (wp_option_iff (r s) fun x => Q x.1 x.2).trans Prod.forall
  constructor
  · intro h s a s' hs
    exact (hwp s).mp (h s hs) a s'
  · intro h s hs
    exact (hwp s).mpr fun a s' => h s a s' hs

section
variable {p : String → Prop} {α : Type}

theorem Reader.Yields.keeps {r : Reader α} {Q : α → Prop} (h : Yields p r Q) : Keeps p r :=
  triple_iff.mpr fun s a s' hs hrun => (triple_iff.mp h s a s' hs hrun).2

theorem Reader.Yields.imp {r : Reader α} {Q Q' : α → Prop} (h : Yields p r Q) (hQ : ∀ a, Q a → Q' a) : Yields p r Q' :=
  triple_iff.mpr fun s a s' hs hrun => (triple_iff.mp h s a s' hs hrun).imp_left (hQ a)

theorem Reader.Keeps.yields {r : Reader α} (h : Keeps p r) : Yields p r fun _ => True :=
  triple_iff.mpr fun s a s' hs hrun => ⟨trivial, triple_iff.mp h s a s' hs hrun⟩

/-! Lists of trees and expressions -/

attribute [grind =] Tree.Named Tree.AllNamed Expr.Named Expr.AllNamed Item.Named

@[grind =] theorem Reading.named_iff {s : Reading} :
    s.Named p ↔ Tree.AllNamed p s.rest ∧ Expr.AllNamed p s.found :=
  ⟨fun h => ⟨h.rest, h.found⟩, fun h => ⟨h.1, h.2⟩⟩

@[grind ←] theorem Tree.AllNamed.drop {ts : List Tree} (h : Tree.AllNamed p ts) (n : Nat) :
    Tree.AllNamed p (ts.drop n) :=
  Tree.allNamed_iff.mpr fun t ht => Tree.allNamed_iff.mp h t (List.mem_of_mem_drop ht)

@[grind =] theorem Expr.allNamed_append {es es' : List Expr} :
    Expr.AllNamed p (es ++ es') ↔ Expr.AllNamed p es ∧ Expr.AllNamed p es' := by
  simp only [Expr.allNamed_iff, List.forall_mem_append]

@[grind =] theorem Expr.allNamed_reverse {es : List Expr} : Expr.AllNamed p es.reverse ↔ Expr.AllNamed p es := by
  simp only [Expr.allNamed_iff, List.mem_reverse]

/-! Looking ahead and taking trees -/

@[spec] theorem ahead_yields : Yields p ahead (Tree.AllNamed p) := by
  mvcgen [ahead] with grind

@[spec] theorem refuse_keeps {P : Assertion (.arg Reading (.except PUnit .pure))}
    {Q : α → Assertion (.arg Reading (.except PUnit .pure))} : ⦃P⦄ (refuse : Reader α) ⦃⇓? a => Q a⦄ :=
  fun _ _ => trivial

@[spec] theorem ensure_keeps (condition : Bool) : Keeps p (ensure condition) := by
  mvcgen [ensure]

@[spec] theorem sees_keeps (condition : List Tree → Bool) : Keeps p (sees condition) := by
  mvcgen [sees] with grind

@[spec] theorem anyTree_yields : Yields p anyTree (Tree.Named p) := by
  refine triple_iff.mpr fun s t s' hs h => ?_
  rw [anyTree] at h
  split at h
  · rename_i hrest
    obtain ⟨rfl, rfl⟩ := Prod.mk.inj (Option.some.inj h)
    grind
  · cases h

@[spec] theorem skip_keeps (n : Nat) : Keeps p (skip n) := by
  mvcgen [skip] with grind

@[spec] theorem word_keeps (name : String) : Keeps p (word name) := by
  mvcgen [word] with grind

@[spec] theorem mark_keeps (c : Char) : Keeps p (mark c) := by
  mvcgen [mark] with grind

@[spec] theorem marks_keeps (cs : List Char) : Keeps p (marks cs) := by
  mvcgen [marks] with grind

@[spec] theorem anyWord_yields : Yields p anyWord p := by
  mvcgen [anyWord]

@[spec] theorem identifier_yields : Yields p identifier p := by
  mvcgen [identifier] with grind

@[spec] theorem lifetime_keeps : Keeps p lifetime := by
  mvcgen [lifetime] with grind

@[spec] theorem word?_keeps (name : String) : Keeps p (word? name) := by
  mvcgen [word?]

@[spec] theorem marks?_keeps (cs : List Char) : Keeps p (marks? cs) := by
  mvcgen [marks?]

@[spec] theorem mark?_keeps (c : Char) : Keeps p (mark? c) := by
  mvcgen [mark?]

@[spec] theorem atEnd_keeps : Keeps p atEnd := by
  mvcgen [atEnd] with grind

theorem note_keeps {e : Expr} (he : e.Named p) : Keeps p (note e) := by
  mvcgen [note] with grind

@[spec] theorem forM_note_keeps {es : List Expr} (hes : Expr.AllNamed p es) : Keeps p (es.forM note) := by
  induction es with
  | nil => mvcgen [List.forM]
  | cons e es ih =>
    have he := note_keeps (hes.1)
    mvcgen [List.forM, he, ih]
    grind

@[spec] theorem anyGroup_yields : Yields p anyGroup fun g => Tree.AllNamed p g.2 := by
  mvcgen [anyGroup]

/-! Repetition -/

theorem untilEnd_yields {reader : Reader α} {Q : α → Prop} (h : Yields p reader Q) :
    Yields p (untilEnd reader) fun as => ∀ a ∈ as, Q a := by
  have go (fuel : Nat) : Yields p (untilEnd.go reader fuel) fun as => ∀ a ∈ as, Q a := by
    induction fuel with
    | zero => mvcgen [untilEnd.go]; grind
    | succ fuel ih => mvcgen [untilEnd.go, h, ih] <;> grind
  mvcgen [untilEnd, go] with grind

theorem separatedUntil_yields {separator : Reader Unit} {reader : Reader α} {Q : α → Prop}
    (stop : List Tree → Bool) (hseparator : Keeps p separator) (h : Yields p reader Q) :
    Yields p (separatedUntil stop separator reader) fun as => ∀ a ∈ as, Q a := by
  have go (fuel : Nat) : Yields p (separatedUntil.go stop separator reader fuel) fun as => ∀ a ∈ as, Q a := by
    induction fuel with
    | zero => mvcgen [separatedUntil.go]; grind
    | succ fuel ih => mvcgen [separatedUntil.go, hseparator, h, ih] <;> grind
  mvcgen [separatedUntil, go] with grind

theorem commaSeparated_yields {reader : Reader α} {Q : α → Prop} (h : Yields p reader Q) :
    Yields p (commaSeparated reader) fun as => ∀ a ∈ as, Q a :=
  separatedUntil_yields List.isEmpty (mark_keeps ',') h

-- Where the values matter, `untilEnd_yields` is given instead and comes first.
@[spec low] theorem untilEnd_keeps {reader : Reader α} (h : Keeps p reader) : Keeps p (untilEnd reader) :=
  (untilEnd_yields h.yields).keeps

@[spec] theorem separatedUntil_keeps {reader : Reader α} (stop : List Tree → Bool) (c : Char) (h : Keeps p reader) :
    Keeps p (separatedUntil stop (mark c) reader) :=
  (separatedUntil_yields stop (mark_keeps c) h.yields).keeps

@[spec] theorem commaSeparated_keeps {reader : Reader α} (h : Keeps p reader) : Keeps p (commaSeparated reader) :=
  (commaSeparated_yields h.yields).keeps

@[spec] theorem joined_keeps {reader : Reader Unit} (separator : Char) (goesOn : List Tree → Bool) (h : Keeps p reader) :
    Keeps p (joined separator goesOn reader) := by
  have go (fuel : Nat) : Keeps p (joined.go separator goesOn reader fuel) := by
    induction fuel with
    | zero => mvcgen [joined.go]
    | succ fuel ih => mvcgen [joined.go, h, ih]
  mvcgen [joined, go] with grind

/-- What a reader makes of a whole text. -/
theorem of_whole? {reader : Reader α} {Q : α → Prop} (h : Yields p reader Q) {ts : List Tree}
    (hts : Tree.AllNamed p ts) {a : α} (ha : reader.whole? ts = some a) : Q a := by
  rw [Reader.whole?] at ha
  split at ha
  · rename_i value s hrun
    split at ha
    · obtain rfl := Option.some.inj ha
      have hstart : (Reading.mk ts []).Named p := ⟨hts, trivial⟩
      exact (triple_iff.mp h _ _ _ hstart hrun).1
    · cases ha
  · cases ha

end

/-! The parts of these readers that are read in place -/

attribute [spec] group when? note collect parts consumed noted dropped

/-- Whether the readers of a grammar keep a property of names. -/
structure Grammar.Keeps (p : String → Prop) (g : Grammar) : Prop where
  expr : ∀ structs, Yields p (g.expr structs) fun o => o.expr.Named p
  unary : ∀ structs, Yields p (g.unary structs) fun o => o.expr.Named p
  climb : ∀ left structs base, left.expr.Named p → Yields p (g.climb left structs base) fun o => o.expr.Named p
  trailer : ∀ e, e.expr.Named p → Yields p (g.trailer e) fun o => o.expr.Named p
  early : Yields p g.early fun o => o.expr.Named p
  statements : Reader.Keeps p g.statements
  type : ∀ plus, Reader.Keeps p (g.type plus)
  bound : ∀ capture constant, Reader.Keeps p (g.bound capture constant)
  pattern : Reader.Keeps p g.pattern
  item : Yields p g.item (Item.Named p)

attribute [spec] Grammar.Keeps.expr Grammar.Keeps.unary Grammar.Keeps.climb Grammar.Keeps.trailer Grammar.Keeps.early
  Grammar.Keeps.statements Grammar.Keeps.type Grammar.Keeps.bound Grammar.Keeps.pattern Grammar.Keeps.item

end ApiHandbook.Code
