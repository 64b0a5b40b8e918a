import ApiHandbook.Proofs.Numbering.Tree
import Mathlib.Tactic

/-! Readers look at the forms of trees only: from tokens that are numbered in another way, they make the same values with the
numbers replaced, and leave the same trees. -/
namespace ApiHandbook.Code

instance : Numbered Reading := ⟨fun f s => ⟨renumber f s.rest, renumber f s.found⟩⟩
instance : Numbered Operand := ⟨fun f o => { o with expr := renumber f o.expr }⟩

section
variable {f : Nat → Nat}

@[simp] theorem rest_renumber (s : Reading) : (renumber f s).rest = renumber f s.rest := rfl
@[simp] theorem found_renumber (s : Reading) : (renumber f s).found = renumber f s.found := rfl
theorem renumber_reading (rest : List Tree) (found : List Expr) :
    renumber f (⟨rest, found⟩ : Reading) = ⟨renumber f rest, renumber f found⟩ := rfl
@[simp] theorem Operand.expr_renumber (o : Operand) : (renumber f o).expr = renumber f o.expr := rfl
@[simp] theorem Operand.form_renumber (o : Operand) : (renumber f o).form = o.form := rfl
@[simp] theorem renumber_operand (e : Expr) (form : Form) : renumber f (⟨e, form⟩ : Operand) = ⟨renumber f e, form⟩ := rfl

/-! Looking ahead -/

@[simp] theorem atWord_renumber (name : String) (ts : List Tree) : atWord name (renumber f ts) = atWord name ts := by
  rcases ts with _ | ⟨_ | _ | _ | _, _⟩ <;> simp [atWord]

@[simp] theorem atAnyWord_renumber (ts : List Tree) : atAnyWord (renumber f ts) = atAnyWord ts := by
  rcases ts with _ | ⟨_ | _ | _ | _, _⟩ <;> simp [atAnyWord]

@[simp] theorem atIdentifier_renumber (ts : List Tree) : atIdentifier (renumber f ts) = atIdentifier ts := by
  rcases ts with _ | ⟨_ | _ | _ | _, _⟩ <;> simp [atIdentifier]

@[simp] theorem atMark_renumber (c : Char) (ts : List Tree) : atMark c (renumber f ts) = atMark c ts := by
  rcases ts with _ | ⟨_ | _ | _ | _, _⟩ <;> simp [atMark]

@[simp] theorem atMarks_renumber (cs : List Char) (ts : List Tree) : atMarks cs (renumber f ts) = atMarks cs ts := by
  induction cs generalizing ts with
  | nil => simp [atMarks]
  | cons c cs ih =>
    cases cs with
    | nil => simp [atMarks]
    | cons d cs => rcases ts with _ | ⟨_ | _ | _ | _, _⟩ <;> simp [atMarks, ih]

@[simp] theorem atGroup_renumber (delimiter : Delimiter) (ts : List Tree) :
    atGroup delimiter (renumber f ts) = atGroup delimiter ts := by
  rcases ts with _ | ⟨_ | _ | _ | _, _⟩ <;> simp [atGroup]

@[simp] theorem atAnyGroup_renumber (ts : List Tree) : atAnyGroup (renumber f ts) = atAnyGroup ts := by
  rcases ts with _ | ⟨_ | _ | _ | _, _⟩ <;> simp [atAnyGroup]

@[simp] theorem atLifetime_renumber (ts : List Tree) : atLifetime (renumber f ts) = atLifetime ts := by
  rcases ts with _ | ⟨_ | ⟨c, _, _⟩ | _ | _, _ | ⟨_ | _ | _ | _, _⟩⟩ <;> simp [atLifetime]
  by_cases hc : c = '\'' <;> simp [hc]

@[simp] theorem atLiteral_renumber (ts : List Tree) : atLiteral (renumber f ts) = atLiteral ts := by
  rcases ts with _ | ⟨_ | ⟨c, _, _⟩ | _ | _, _ | ⟨_ | _ | _ | _, _⟩⟩ <;> simp [atLiteral]
  by_cases hc : c = '-' <;> simp [hc]

@[simp] theorem atTextLiteral_renumber (ts : List Tree) : atTextLiteral (renumber f ts) = atTextLiteral ts := by
  rcases ts with _ | ⟨_ | _ | ⟨_ | _ | _ | _ | _⟩ | _, _⟩ <;> simp [atTextLiteral]

@[simp] theorem beyond_renumber (ts : List Tree) : beyond (renumber f ts) = renumber f (beyond ts) := by
  rcases ts with _ | ⟨_ | ⟨c, _ | _, _⟩ | _ | _, _ | ⟨_ | _ | _ | _, _⟩⟩ <;> simp [beyond]
  by_cases hc : c = '\'' <;> simp [hc]

@[simp] theorem atSignature_renumber (ts : List Tree) : atSignature (renumber f ts) = atSignature ts := by
  simp [atSignature, ← renumber_ite]

@[simp] theorem atPathWord_renumber (ts : List Tree) : atPathWord (renumber f ts) = atPathWord ts := by
  simp [atPathWord]

/-! Taking trees -/

section
variable {α β : Type}

@[simp] theorem Reader.bind_apply (r : Reader α) (k : α → Reader β) (s : Reading) :
    (r >>= k) s = (r s).bind fun p => k p.1 p.2 := rfl

@[simp] theorem Reader.map_apply (g : α → β) (r : Reader α) (s : Reading) :
    (g <$> r) s = (r s).map fun p => (g p.1, p.2) := by
  cases h : r s <;> simp [Functor.map, StateT.map, h]

@[simp] theorem Reader.pure_apply (a : α) (s : Reading) : (pure a : Reader α) s = some (a, s) := rfl

@[simp] theorem Reader.ite_apply (c : Prop) [Decidable c] (x y : Reader α) (s : Reading) :
    (if c then x else y) s = if c then x s else y s := by split <;> rfl

@[simp] theorem Reader.get_apply (s : Reading) : (get : Reader Reading) s = some (s, s) := rfl

@[simp] theorem Reader.modify_apply (g : Reading → Reading) (s : Reading) :
    (modify g : Reader Unit) s = some ((), g s) := rfl

@[simp] theorem refuse_apply (s : Reading) : (refuse : Reader α) s = none := rfl

end

@[simp] theorem ahead_apply (s : Reading) : ahead s = some (s.rest, s) := rfl

@[simp] theorem sees_apply (condition : List Tree → Bool) (s : Reading) : sees condition s = some (condition s.rest, s) := rfl

@[simp] theorem atEnd_apply (s : Reading) : atEnd s = some (s.rest.isEmpty, s) := rfl

@[simp] theorem ensure_apply (condition : Bool) (s : Reading) :
    ensure condition s = if condition then some ((), s) else none := by
  rw [ensure]
  split <;> rfl

@[simp] theorem skip_renumber (n : Nat) (s : Reading) : skip n (renumber f s) = renumber f (skip n s) := by
  simp [skip, renumber_reading]

@[simp] theorem note_renumber (e : Expr) (s : Reading) : note (renumber f e) (renumber f s) = renumber f (note e s) := rfl

@[simp] theorem ite_bind {α β : Type} (c : Prop) [Decidable c] (x y : Option α) (k : α → Option β) :
    (if c then x else y).bind k = if c then x.bind k else y.bind k := by split <;> rfl

@[simp] theorem ahead_renumber (s : Reading) : ahead (renumber f s) = renumber f (ahead s) := rfl

theorem sees_renumber {condition : List Tree → Bool} (h : ∀ ts, condition (renumber f ts) = condition ts) (s : Reading) :
    sees condition (renumber f s) = renumber f (sees condition s) := by
  simp [h]

section
variable {α β : Type} [Numbered α] [Numbered β]

/-- After a reader, only the values and states that it gives matter. -/
theorem bind_renumbers_of {reader reader' : Reader α} {next next' : α → Reader β} {s : Reading}
    (hreader : reader' (renumber f s) = renumber f (reader s))
    (hnext : ∀ a s', reader s = some (a, s') → next' (renumber f a) (renumber f s') = renumber f (next a s')) :
    (reader' >>= next') (renumber f s) = renumber f ((reader >>= next) s) := by
  rw [Reader.bind_apply, Reader.bind_apply, hreader, bind_renumber, renumber_bind]
  exact Option.bind_congr fun p hp => hnext p.1 p.2 hp

theorem bind_renumbers {reader reader' : Reader α} {next next' : α → Reader β}
    (hreader : ∀ s, reader' (renumber f s) = renumber f (reader s))
    (hnext : ∀ a s, next' (renumber f a) (renumber f s) = renumber f (next a s)) (s : Reading) :
    (reader' >>= next') (renumber f s) = renumber f ((reader >>= next) s) :=
  bind_renumbers_of (hreader s) fun a s' _ => hnext a s'

/-- A reader that goes on with `reader` after an option, or at once. -/
theorem choice_renumbers {c c' : Prop} [Decidable c] [Decidable c'] (hc : c' ↔ c) {option option' reader reader' : Reader α}
    (hreader : ∀ s, reader' (renumber f s) = renumber f (reader s))
    (hoption : (∀ s, reader' (renumber f s) = renumber f (reader s)) → ∀ s, option' (renumber f s) = renumber f (option s))
    (s : Reading) :
    (if c' then option' else reader') (renumber f s) = renumber f ((if c then option else reader) s) := by
  by_cases h : c
  · rw [if_pos h, if_pos (hc.mpr h), hoption hreader]
  · rw [if_neg h, if_neg (mt hc.mp h), hreader]

end

theorem ite_renumber {condition : List Tree → Bool} (h : ∀ ts, condition (renumber f ts) = condition ts) (c : Prop)
    [Decidable c] (ts ts' : List Tree) :
    condition (if c then renumber f ts else renumber f ts') = condition (if c then ts else ts') := by
  split <;> exact h _

@[simp] theorem word_renumber (name : String) (s : Reading) : word name (renumber f s) = renumber f (word name s) := by
  simp [word]

@[simp] theorem mark_renumber (c : Char) (s : Reading) : mark c (renumber f s) = renumber f (mark c s) := by
  simp [mark]

@[simp] theorem marks_renumber (cs : List Char) (s : Reading) : marks cs (renumber f s) = renumber f (marks cs s) := by
  simp [marks]

@[simp] theorem anyWord_renumber (s : Reading) : anyWord (renumber f s) = renumber f (anyWord s) := by
  obtain ⟨_ | ⟨_ | _ | _ | _, rest⟩, found⟩ := s <;> rfl

@[simp] theorem identifier_renumber (s : Reading) : identifier (renumber f s) = renumber f (identifier s) := by
  simp [identifier]

@[simp] theorem lifetime_renumber (s : Reading) : lifetime (renumber f s) = renumber f (lifetime s) := by
  simp [lifetime]

@[simp] theorem word?_renumber (name : String) (s : Reading) : word? name (renumber f s) = renumber f (word? name s) := by
  simp [word?]

@[simp] theorem marks?_renumber (cs : List Char) (s : Reading) : marks? cs (renumber f s) = renumber f (marks? cs s) := by
  simp [marks?]

@[simp] theorem mark?_renumber (c : Char) (s : Reading) : mark? c (renumber f s) = renumber f (mark? c s) := by
  simp [mark?]

@[simp] theorem anyGroup_renumber (s : Reading) : anyGroup (renumber f s) = renumber f (anyGroup s) := by
  obtain ⟨_ | ⟨_ | _ | _ | _, rest⟩, found⟩ := s <;> simp [anyGroup, anyTree, renumber_reading]

/-! Readers made of others -/

section
variable {α : Type} [Numbered α]

@[simp] theorem group_renumber (delimiter : Delimiter) {inside : Reader α}
    (h : ∀ s, inside (renumber f s) = renumber f (inside s)) (s : Reading) :
    group delimiter inside (renumber f s) = renumber f (group delimiter inside s) := by
  obtain ⟨_ | ⟨_ | _ | _ | ⟨d, inner, first, last⟩, rest⟩, found⟩ := s <;> simp [group, anyTree]
  have hinside := h ⟨inner, found⟩
  rw [renumber_reading] at hinside
  simp [hinside, renumber_reading]

@[simp] theorem when?_renumber {condition : List Tree → Bool} {reader : Reader Unit}
    (hcondition : ∀ ts, condition (renumber f ts) = condition ts)
    (h : ∀ s, reader (renumber f s) = renumber f (reader s)) (s : Reading) :
    when? condition reader (renumber f s) = renumber f (when? condition reader s) := by
  simp [when?, hcondition, h]

@[simp] theorem collect_renumber {reader : Reader α} (h : ∀ s, reader (renumber f s) = renumber f (reader s)) (s : Reading) :
    collect reader (renumber f s) = renumber f (collect reader s) := by
  have hempty := h { s with found := [] }
  rw [renumber_reading, renumber_nil] at hempty
  simp [collect, hempty, renumber_reading]

@[simp] theorem parts_renumber {reader : Reader α} (h : ∀ s, reader (renumber f s) = renumber f (reader s)) (s : Reading) :
    parts reader (renumber f s) = renumber f (parts reader s) := by
  simp [parts, h]

theorem consumed_renumber {reader reader' : Reader α} (h : ∀ s, reader' (renumber f s) = renumber f (reader s)) (s : Reading) :
    consumed reader' (renumber f s) = renumber f (consumed reader s) := by
  simp [consumed, h]

theorem untilEnd_go_renumber {reader : Reader α} (h : ∀ s, reader (renumber f s) = renumber f (reader s)) (fuel : Nat)
    (s : Reading) : untilEnd.go reader fuel (renumber f s) = renumber f (untilEnd.go reader fuel s) := by
  induction fuel generalizing s with
  | zero => simp [untilEnd.go]
  | succ fuel ih => simp [untilEnd.go, h, ih]

@[simp] theorem untilEnd_renumber {reader : Reader α} (h : ∀ s, reader (renumber f s) = renumber f (reader s)) (s : Reading) :
    untilEnd reader (renumber f s) = renumber f (untilEnd reader s) := by
  simp [untilEnd, untilEnd_go_renumber h]

theorem separatedUntil_go_renumber {stop : List Tree → Bool} {separator : Reader Unit} {reader : Reader α}
    (hstop : ∀ ts, stop (renumber f ts) = stop ts) (hseparator : ∀ s, separator (renumber f s) = renumber f (separator s))
    (h : ∀ s, reader (renumber f s) = renumber f (reader s)) (fuel : Nat) (s : Reading) :
    separatedUntil.go stop separator reader fuel (renumber f s) =
      renumber f (separatedUntil.go stop separator reader fuel s) := by
  induction fuel generalizing s with
  | zero => simp [separatedUntil.go]
  | succ fuel ih => simp [separatedUntil.go, hstop, hseparator, h, ih]

@[simp] theorem separatedUntil_renumber {stop : List Tree → Bool} {separator : Reader Unit} {reader : Reader α}
    (hstop : ∀ ts, stop (renumber f ts) = stop ts) (hseparator : ∀ s, separator (renumber f s) = renumber f (separator s))
    (h : ∀ s, reader (renumber f s) = renumber f (reader s)) (s : Reading) :
    separatedUntil stop separator reader (renumber f s) = renumber f (separatedUntil stop separator reader s) := by
  simp [separatedUntil, separatedUntil_go_renumber hstop hseparator h]

@[simp] theorem commaSeparated_renumber {reader : Reader α} (h : ∀ s, reader (renumber f s) = renumber f (reader s))
    (s : Reading) : commaSeparated reader (renumber f s) = renumber f (commaSeparated reader s) :=
  separatedUntil_renumber (fun _ => isEmpty_renumber _) (mark_renumber ',') h s

end

theorem joined_go_renumber {separator : Char} {goesOn : List Tree → Bool} {reader : Reader Unit}
    (hgoesOn : ∀ ts, goesOn (renumber f ts) = goesOn ts) (h : ∀ s, reader (renumber f s) = renumber f (reader s)) (fuel : Nat)
    (s : Reading) : joined.go separator goesOn reader fuel (renumber f s) =
      renumber f (joined.go separator goesOn reader fuel s) := by
  induction fuel generalizing s with
  | zero => simp [joined.go]
  | succ fuel ih => simp [joined.go, hgoesOn, h, ih]

@[simp] theorem joined_renumber {separator : Char} {goesOn : List Tree → Bool} {reader : Reader Unit}
    (hgoesOn : ∀ ts, goesOn (renumber f ts) = goesOn ts) (h : ∀ s, reader (renumber f s) = renumber f (reader s))
    (s : Reading) : joined separator goesOn reader (renumber f s) = renumber f (joined separator goesOn reader s) := by
  simp [joined, joined_go_renumber hgoesOn h]

theorem whole?_renumber {α : Type} [Numbered α] {reader : Reader α} (h : ∀ s, reader (renumber f s) = renumber f (reader s))
    (ts : List Tree) : reader.whole? (renumber f ts) = renumber f (reader.whole? ts) := by
  have hstart := h ⟨ts, []⟩
  rw [renumber_reading, renumber_nil] at hstart
  rw [Reader.whole?, Reader.whole?, StateT.run, StateT.run, hstart]
  cases reader ⟨ts, []⟩ with
  | none => rfl
  | some p => simp

end

/-- Whether the readers of a grammar make the same of tokens that are numbered in another way. -/
structure Grammar.Renumbers (f : Nat → Nat) (g : Grammar) : Prop where
  expr : ∀ structs s, g.expr structs (renumber f s) = renumber f (g.expr structs s)
  unary : ∀ structs s, g.unary structs (renumber f s) = renumber f (g.unary structs s)
  climb : ∀ left structs base s, g.climb (renumber f left) structs base (renumber f s) = renumber f (g.climb left structs base s)
  trailer : ∀ e s, g.trailer (renumber f e) (renumber f s) = renumber f (g.trailer e s)
  early : ∀ s, g.early (renumber f s) = renumber f (g.early s)
  statements : ∀ s, g.statements (renumber f s) = renumber f (g.statements s)
  type : ∀ plus s, g.type plus (renumber f s) = renumber f (g.type plus s)
  bound : ∀ capture constant s, g.bound capture constant (renumber f s) = renumber f (g.bound capture constant s)
  pattern : ∀ s, g.pattern (renumber f s) = renumber f (g.pattern s)
  item : ∀ s, g.item (renumber f s) = renumber f (g.item s)

end ApiHandbook.Code
