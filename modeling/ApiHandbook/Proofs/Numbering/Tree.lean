import ApiHandbook.Code.Source

/-! The numbers that tokens carry through token trees, expressions and items, and what becomes of them when the tokens are
numbered in another way. -/
namespace ApiHandbook.Code

/-- Values in which numbers of tokens may stand. -/
class Numbered (α : Type) where
  /-- Replaces each number. -/
  renumber : (Nat → Nat) → α → α

export Numbered (renumber)

/-! Values without numbers -/

instance : Numbered Unit := ⟨fun _ => id⟩
instance : Numbered Bool := ⟨fun _ => id⟩
/-- The numbers that readers count with are no numbers of tokens. -/
instance : Numbered Nat := ⟨fun _ => id⟩
instance : Numbered String := ⟨fun _ => id⟩
instance : Numbered Literal := ⟨fun _ => id⟩
instance : Numbered Delimiter := ⟨fun _ => id⟩
instance : Numbered Segment := ⟨fun _ => id⟩
instance : Numbered Path := ⟨fun _ => id⟩
instance : Numbered TypeForm := ⟨fun _ => id⟩

section
variable {f : Nat → Nat}

@[simp] theorem renumber_unit (a : Unit) : renumber f a = a := rfl
@[simp] theorem renumber_bool (a : Bool) : renumber f a = a := rfl
@[simp] theorem renumber_nat (a : Nat) : renumber f a = a := rfl
@[simp] theorem renumber_string (a : String) : renumber f a = a := rfl
@[simp] theorem renumber_literal (a : Literal) : renumber f a = a := rfl
@[simp] theorem renumber_delimiter (a : Delimiter) : renumber f a = a := rfl
@[simp] theorem renumber_segment (a : Segment) : renumber f a = a := rfl
@[simp] theorem renumber_path (a : Path) : renumber f a = a := rfl
@[simp] theorem renumber_typeForm (a : TypeForm) : renumber f a = a := rfl

end

/-! Lists, options and pairs -/

section
variable {α β γ : Type} [Numbered α] [Numbered β] {f : Nat → Nat}

instance : Numbered (List α) := ⟨fun f => List.map (renumber f)⟩
instance : Numbered (Option α) := ⟨fun f => Option.map (renumber f)⟩
instance : Numbered (α × β) := ⟨fun f => Prod.map (renumber f) (renumber f)⟩

@[simp] theorem renumber_nil : renumber f ([] : List α) = [] := rfl
@[simp] theorem renumber_cons (a : α) (as : List α) : renumber f (a :: as) = renumber f a :: renumber f as := rfl
@[simp] theorem renumber_none : renumber f (none : Option α) = none := rfl
@[simp] theorem renumber_some (a : α) : renumber f (some a) = some (renumber f a) := rfl
@[simp] theorem renumber_pair (a : α) (b : β) : renumber f (a, b) = (renumber f a, renumber f b) := rfl
@[simp] theorem fst_renumber (p : α × β) : (renumber f p).1 = renumber f p.1 := rfl
@[simp] theorem snd_renumber (p : α × β) : (renumber f p).2 = renumber f p.2 := rfl

@[simp] theorem renumber_append (as bs : List α) : renumber f (as ++ bs) = renumber f as ++ renumber f bs := List.map_append
@[simp] theorem reverse_renumber (as : List α) : (renumber f as).reverse = renumber f as.reverse := List.map_reverse.symm
@[simp] theorem drop_renumber (n : Nat) (as : List α) : (renumber f as).drop n = renumber f (as.drop n) := List.map_drop.symm
@[simp] theorem tail_renumber (as : List α) : (renumber f as).tail = renumber f as.tail := List.map_tail.symm
@[simp] theorem take_renumber (n : Nat) (as : List α) : (renumber f as).take n = renumber f (as.take n) := List.map_take.symm
@[simp] theorem length_renumber (as : List α) : (renumber f as).length = as.length := List.length_map ..
@[simp] theorem isEmpty_renumber (as : List α) : (renumber f as).isEmpty = as.isEmpty := by cases as <;> rfl
@[simp] theorem renumber_eq_nil (as : List α) : renumber f as = [] ↔ as = [] := List.map_eq_nil_iff
@[simp] theorem head?_renumber (as : List α) : (renumber f as).head? = renumber f as.head? := List.head?_map
@[simp] theorem getLast?_renumber (as : List α) : (renumber f as).getLast? = renumber f as.getLast? := List.getLast?_map

@[simp] theorem bind_renumber (x : Option α) (k : α → Option γ) :
    (renumber f x).bind k = x.bind fun a => k (renumber f a) := Option.bind_map

@[simp] theorem renumber_bind (x : Option γ) (k : γ → Option α) :
    renumber f (x.bind k) = x.bind fun a => renumber f (k a) := Option.map_bind

@[simp] theorem map_renumber (x : Option α) (g : α → γ) : (renumber f x).map g = x.map fun a => g (renumber f a) :=
  Option.map_map ..

@[simp] theorem renumber_map (x : Option γ) (g : γ → α) : renumber f (x.map g) = x.map fun a => renumber f (g a) :=
  Option.map_map ..

@[simp] theorem renumber_ite (c : Prop) [Decidable c] (x y : α) :
    renumber f (if c then x else y) = if c then renumber f x else renumber f y := apply_ite ..

end

section
variable {f : Nat → Nat}

@[simp] theorem renumber_strings (names : List String) : renumber f names = names := List.map_id _
@[simp] theorem renumber_flags (flags : List Bool) : renumber f flags = flags := List.map_id _
@[simp] theorem renumber_segments (segments : List Segment) : renumber f segments = segments := List.map_id _
@[simp] theorem renumber_strings? (names : Option (List String)) : renumber f names = names := by cases names <;> simp

end

/-! Token trees -/

mutual

def Tree.mapNumbers (f : Nat → Nat) : Tree → Tree
  | .word name line => .word name (f line)
  | .mark c joint line => .mark c joint (f line)
  | .literal value first last => .literal value (f first) (f last)
  | .group delimiter inner first last => .group delimiter (Tree.mapAllNumbers f inner) (f first) (f last)

def Tree.mapAllNumbers (f : Nat → Nat) : List Tree → List Tree
  | [] => []
  | t :: rest => t.mapNumbers f :: Tree.mapAllNumbers f rest

end

instance : Numbered Tree := ⟨Tree.mapNumbers⟩

section
variable {f : Nat → Nat}

theorem Tree.mapAllNumbers_eq (ts : List Tree) : Tree.mapAllNumbers f ts = renumber f ts := by
  induction ts with
  | nil => rfl
  | cons t ts ih =>
    rw [Tree.mapAllNumbers, ih]
    rfl

@[simp] theorem renumber_word (name : String) (line : Nat) : renumber f (Tree.word name line) = .word name (f line) := rfl

@[simp] theorem renumber_mark (c : Char) (joint : Bool) (line : Nat) :
    renumber f (Tree.mark c joint line) = .mark c joint (f line) := rfl

@[simp] theorem renumber_literalTree (value : Literal) (first last : Nat) :
    renumber f (Tree.literal value first last) = .literal value (f first) (f last) := rfl

@[simp] theorem renumber_group (delimiter : Delimiter) (inner : List Tree) (first last : Nat) :
    renumber f (Tree.group delimiter inner first last) = .group delimiter (renumber f inner) (f first) (f last) := by
  rw [← Tree.mapAllNumbers_eq]
  rfl

@[simp] theorem first_renumber (t : Tree) : (renumber f t).first = f t.first := by cases t <;> rfl

@[simp] theorem last_renumber (t : Tree) : (renumber f t).last = f t.last := by cases t <;> rfl

mutual

theorem Tree.size_renumber (t : Tree) : (renumber f t).size = t.size := by
  cases t with
  | word | mark | literal => rfl
  | group delimiter inner first last => rw [renumber_group, Tree.size, Tree.size, Tree.sizeAll_renumber inner]

theorem Tree.sizeAll_renumber (ts : List Tree) : Tree.sizeAll (renumber f ts) = Tree.sizeAll ts := by
  cases ts with
  | nil => rfl
  | cons t ts => rw [renumber_cons, Tree.sizeAll, Tree.sizeAll, Tree.size_renumber t, Tree.sizeAll_renumber ts]

end

end

/-! Attributes and headings -/

instance : Numbered AttributeValue where
  renumber f v :=
    match v with
    | .arguments inner => .arguments (renumber f inner)
    | other => other

instance : Numbered Attribute := ⟨fun f a => { a with value := renumber f a.value }⟩

instance : Numbered Heading where
  renumber f h := { h with attributes := renumber f h.attributes, first := f h.first, last := f h.last }

section
variable {f : Nat → Nat}

@[simp] theorem renumber_otherValue : renumber f AttributeValue.value = .value := rfl
@[simp] theorem renumber_argumentsValue (inner : List Tree) :
    renumber f (AttributeValue.arguments inner) = .arguments (renumber f inner) := rfl
@[simp] theorem renumber_attribute (p : Path) (v : AttributeValue) :
    renumber f (⟨p, v⟩ : Attribute) = ⟨p, renumber f v⟩ := rfl
@[simp] theorem renumber_heading (name : String) (attributes : List Attribute) (first last : Nat) :
    renumber f (⟨name, attributes, first, last⟩ : Heading) = ⟨name, renumber f attributes, f first, f last⟩ := rfl

end

/-! Expressions and items -/

mutual

def Expr.mapNumbers (f : Nat → Nat) : Expr → Expr
  | .literal value => .literal value
  | .path qualified p inner => .path qualified p (Expr.mapAllNumbers f inner)
  | .negation operand => .negation (operand.mapNumbers f)
  | .assignment target value => .assignment (target.mapNumbers f) (value.mapNumbers f)
  | .array items => .array (Expr.mapAllNumbers f items)
  | .tuple items => .tuple (Expr.mapAllNumbers f items)
  | .parenthesized inner => .parenthesized (inner.mapNumbers f)
  | .reference inner => .reference (inner.mapNumbers f)
  | .call function arguments => .call (function.mapNumbers f) (Expr.mapAllNumbers f arguments)
  | .methodCall receiver method arguments =>
    .methodCall (receiver.mapNumbers f) method (Expr.mapAllNumbers f arguments)
  | .construction p fields => .construction p (Expr.mapAllNumbers f fields)
  | .vector readable items => .vector readable (Expr.mapAllNumbers f items)
  | .item i => .item (i.mapNumbers f)
  | .other inner => .other (Expr.mapAllNumbers f inner)

def Expr.mapAllNumbers (f : Nat → Nat) : List Expr → List Expr
  | [] => []
  | e :: rest => e.mapNumbers f :: Expr.mapAllNumbers f rest

def Item.mapNumbers (f : Nat → Nat) : Item → Item
  | .function heading body => .function (renumber f heading) (Expr.mapAllNumbers f body)
  | .method heading body => .method (renumber f heading) (Expr.mapAllNumbers f body)
  | .struct heading inner => .struct (renumber f heading) (Expr.mapAllNumbers f inner)
  | .implementation traitName selfName inner members =>
    .implementation traitName selfName (Expr.mapAllNumbers f inner) (Item.mapAllNumbers f members)
  | .module name inline items => .module name inline (Item.mapAllNumbers f items)
  | .imports roots => .imports roots
  | .other inner => .other (Expr.mapAllNumbers f inner)

def Item.mapAllNumbers (f : Nat → Nat) : List Item → List Item
  | [] => []
  | i :: rest => i.mapNumbers f :: Item.mapAllNumbers f rest

end

instance : Numbered Expr := ⟨Expr.mapNumbers⟩
instance : Numbered Item := ⟨Item.mapNumbers⟩

section
variable {f : Nat → Nat}

theorem Expr.mapAllNumbers_eq (es : List Expr) : Expr.mapAllNumbers f es = renumber f es := by
  induction es with
  | nil => rfl
  | cons e es ih =>
    rw [Expr.mapAllNumbers, ih]
    rfl

theorem Item.mapAllNumbers_eq (is : List Item) : Item.mapAllNumbers f is = renumber f is := by
  induction is with
  | nil => rfl
  | cons i is ih =>
    rw [Item.mapAllNumbers, ih]
    rfl

@[simp] theorem renumber_literalExpr (value : Literal) : renumber f (Expr.literal value) = .literal value := rfl

@[simp] theorem renumber_pathExpr (qualified : Bool) (p : Path) (inner : List Expr) :
    renumber f (Expr.path qualified p inner) = .path qualified p (renumber f inner) := by
  rw [← Expr.mapAllNumbers_eq]
  rfl

@[simp] theorem renumber_negation (operand : Expr) :
    renumber f (Expr.negation operand) = .negation (renumber f operand) := rfl

@[simp] theorem renumber_assignment (target value : Expr) :
    renumber f (Expr.assignment target value) = .assignment (renumber f target) (renumber f value) := rfl

@[simp] theorem renumber_array (items : List Expr) : renumber f (Expr.array items) = .array (renumber f items) := by
  rw [← Expr.mapAllNumbers_eq]
  rfl

@[simp] theorem renumber_tuple (items : List Expr) : renumber f (Expr.tuple items) = .tuple (renumber f items) := by
  rw [← Expr.mapAllNumbers_eq]
  rfl

@[simp] theorem renumber_parenthesized (inner : Expr) :
    renumber f (Expr.parenthesized inner) = .parenthesized (renumber f inner) := rfl

@[simp] theorem renumber_reference (inner : Expr) :
    renumber f (Expr.reference inner) = .reference (renumber f inner) := rfl

@[simp] theorem renumber_call (function : Expr) (arguments : List Expr) :
    renumber f (Expr.call function arguments) = .call (renumber f function) (renumber f arguments) := by
  rw [← Expr.mapAllNumbers_eq]
  rfl

@[simp] theorem renumber_methodCall (receiver : Expr) (method : String) (arguments : List Expr) :
    renumber f (Expr.methodCall receiver method arguments) =
      .methodCall (renumber f receiver) method (renumber f arguments) := by
  rw [← Expr.mapAllNumbers_eq]
  rfl

@[simp] theorem renumber_construction (p : Path) (fields : List Expr) :
    renumber f (Expr.construction p fields) = .construction p (renumber f fields) := by
  rw [← Expr.mapAllNumbers_eq]
  rfl

@[simp] theorem renumber_vector (readable : Bool) (items : List Expr) :
    renumber f (Expr.vector readable items) = .vector readable (renumber f items) := by
  rw [← Expr.mapAllNumbers_eq]
  rfl

@[simp] theorem renumber_itemExpr (i : Item) : renumber f (Expr.item i) = .item (renumber f i) := rfl

@[simp] theorem renumber_otherExpr (inner : List Expr) : renumber f (Expr.other inner) = .other (renumber f inner) := by
  rw [← Expr.mapAllNumbers_eq]
  rfl

@[simp] theorem renumber_function (heading : Heading) (body : List Expr) :
    renumber f (Item.function heading body) = .function (renumber f heading) (renumber f body) := by
  rw [← Expr.mapAllNumbers_eq]
  rfl

@[simp] theorem renumber_method (heading : Heading) (body : List Expr) :
    renumber f (Item.method heading body) = .method (renumber f heading) (renumber f body) := by
  rw [← Expr.mapAllNumbers_eq]
  rfl

@[simp] theorem renumber_struct (heading : Heading) (inner : List Expr) :
    renumber f (Item.struct heading inner) = .struct (renumber f heading) (renumber f inner) := by
  rw [← Expr.mapAllNumbers_eq]
  rfl

@[simp] theorem renumber_implementation (traitName selfName : Option String) (inner : List Expr) (members : List Item) :
    renumber f (Item.implementation traitName selfName inner members) =
      .implementation traitName selfName (renumber f inner) (renumber f members) := by
  rw [← Expr.mapAllNumbers_eq, ← Item.mapAllNumbers_eq]
  rfl

@[simp] theorem renumber_module (name : String) (inline : Bool) (items : List Item) :
    renumber f (Item.module name inline items) = .module name inline (renumber f items) := by
  rw [← Item.mapAllNumbers_eq]
  rfl

@[simp] theorem renumber_imports (roots : List String) : renumber f (Item.imports roots) = .imports roots := rfl

@[simp] theorem renumber_otherItem (inner : List Expr) : renumber f (Item.other inner) = .other (renumber f inner) := by
  rw [← Expr.mapAllNumbers_eq]
  rfl

end

end ApiHandbook.Code
