import ApiHandbook.Argument.Value
import Mathlib

/-! Whole numbers in values. No literal is below zero, so that they keep within bounds which are the same on both sides,
and their negation is exact in words of 64 bits. -/
namespace ApiHandbook.Argument
open Code

mutual

/-- The whole numbers in a value, at any depth. -/
def Value.integers : Value → List Int
  | .integer value => [value]
  | .list items => integersOf items
  | _ => []

def integersOf : List Value → List Int
  | [] => []
  | v :: rest => v.integers ++ integersOf rest

end

/-- Whether a whole number and its negation fit into a word of 64 bits. -/
def Balanced (i : Int) : Prop := -(2 ^ 63 - 1) ≤ i ∧ i ≤ 2 ^ 63 - 1

instance (i : Int) : Decidable (Balanced i) := inferInstanceAs (Decidable (_ ∧ _))

namespace Balanced
variable {i : Int}

theorem neg (h : Balanced i) : Balanced (-i) := by
  obtain ⟨hlow, hhigh⟩ := h
  exact ⟨by omega, by omega⟩

/-- A literal that is not too large stays within the bounds under negations. -/
theorem of_negations {n : Nat} (hn : n < 2 ^ 63) (k : Nat) : Balanced ((-1) ^ k * n) := by
  induction k with
  | zero =>
    rw [pow_zero, one_mul]
    exact ⟨by omega, by omega⟩
  | succ k ih =>
    rw [pow_succ, mul_neg_one, neg_mul]
    exact ih.neg

theorem toInt_ofInt (h : Balanced i) : (Int64.ofInt i).toInt = i := by
  obtain ⟨hlow, hhigh⟩ := h
  exact Int64.toInt_ofInt_of_le (by omega) (by omega)

/-- The negation of the word is the word of the negation. -/
theorem toInt_neg (h : Balanced i) : (-Int64.ofInt i).toInt = -i := by
  rw [Int64.neg_ofInt, h.neg.toInt_ofInt]

end Balanced

/-- A literal under a number of negations, seen through what does not change a value. -/
inductive Signed (n : Nat) : Nat → Expr → Prop where
  | literal {suffixed} : Signed n 0 (.literal (.integer n suffixed))
  | negation {k operand} : Signed n k operand → Signed n (k + 1) (.negation operand)
  | reference {k inner} : Signed n k inner → Signed n k (.reference inner)
  | parenthesized {k inner} : Signed n k inner → Signed n k (.parenthesized inner)
  | conversion {k receiver method} : method ∈ conversions → Signed n k receiver →
      Signed n k (.methodCall receiver method [])
  | wrapped {k qualified p inner argument} : pathText p = "Some" ∨ pathText p = "String::from" →
      Signed n k argument → Signed n k (.call (.path qualified p inner) [argument])

/-- The literal that an expression is under negations, and how many there are. -/
def signed? : Expr → Option (Nat × Nat)
  | .literal (.integer n _) => some (n, 0)
  | .negation operand => (signed? operand).map fun (n, k) => (n, k + 1)
  | .reference inner => signed? inner
  | .parenthesized inner => signed? inner
  | .methodCall receiver method [] => if method ∈ conversions then signed? receiver else none
  | .call (.path _ p _) [argument] =>
    if pathText p = "Some" ∨ pathText p = "String::from" then signed? argument else none
  | _ => none

theorem signed_of_signed? {e : Expr} {n k : Nat} (h : signed? e = some (n, k)) : Signed n k e := by
  induction e using signed?.induct generalizing k with
  | case1 m suffixed =>
    obtain ⟨rfl, rfl⟩ := Prod.mk.inj (Option.some.inj h)
    exact .literal
  | case2 operand ih =>
    obtain ⟨⟨m, j⟩, hoperand, heq⟩ := Option.map_eq_some_iff.mp h
    obtain ⟨rfl, rfl⟩ := Prod.mk.inj heq
    exact .negation (ih hoperand)
  | case3 inner ih => exact .reference (ih h)
  | case4 inner ih => exact .parenthesized (ih h)
  | case5 receiver method hmethod ih =>
    rw [signed?, if_pos hmethod] at h
    exact .conversion hmethod (ih h)
  | case6 receiver method hmethod =>
    rw [signed?, if_neg hmethod] at h
    cases h
  | case7 qualified p inner argument hname ih =>
    rw [signed?, if_pos hname] at h
    exact .wrapped hname (ih h)
  | case8 qualified p inner argument hname =>
    rw [signed?, if_neg hname] at h
    cases h
  | case9 e => cases e <;> simp_all [signed?]

/-- A literal that is too large is an error, under negations too. -/
theorem Signed.evaluate_eq {n k : Nat} {e : Expr} (h : Signed n k e) :
    evaluate e = if n < 2 ^ 63 then .ok (.integer ((-1) ^ k * n)) else .error .unreadable := by
  induction h with
  | literal =>
    rw [evaluate, literalValue, pow_zero, one_mul]
    exact if_congr Nat.lt_succ_iff.symm rfl rfl
  | negation _ ih =>
    rw [evaluate, ih]
    split_ifs
    · rw [pow_succ, mul_neg_one, neg_mul]
      rfl
    · rfl
  | reference _ ih => rw [evaluate, ih]
  | parenthesized _ ih => rw [evaluate, ih]
  | conversion hmethod _ ih => rw [evaluate, if_pos (by simpa using hmethod), ih]
  | wrapped hname _ ih => rw [evaluate, if_pos hname, ih]

/-- Where the whole numbers in the value of an expression come from: one is a literal under negations; those in a list
come from the items and only have to keep within the bounds. -/
def Value.Stems (e : Expr) : Value → Prop
  | .integer i => ∃ n k, Signed n k e ∧ n < 2 ^ 63 ∧ i = (-1) ^ k * n
  | .list items => ∀ i ∈ integersOf items, Balanced i
  | _ => True

namespace Value.Stems
variable {e e' : Expr} {v : Value}

theorem balanced (h : v.Stems e) : ∀ i ∈ v.integers, Balanced i := by
  cases v with
  | integer value =>
    obtain ⟨n, k, -, hn, rfl⟩ := h
    intro i hi
    obtain rfl := List.mem_singleton.mp hi
    exact .of_negations hn k
  | list items => exact h
  | _ => exact nofun

theorem imp (himp : ∀ n k, Signed n k e → Signed n k e') (h : v.Stems e) : v.Stems e' := by
  cases v with
  | integer value =>
    obtain ⟨n, k, hsigned, hvalue⟩ := h
    exact ⟨n, k, himp n k hsigned, hvalue⟩
  | list items => exact h
  | _ => trivial

theorem of_literalValue {value : Literal} (h : literalValue value = .ok v) : v.Stems (.literal value) := by
  cases value with
  | integer n suffixed =>
    rw [literalValue] at h
    split_ifs at h with hn
    obtain rfl := Except.ok.inj h
    exact ⟨n, 0, .literal, Nat.lt_succ_iff.mpr hn, by rw [pow_zero, one_mul]⟩
  | other => cases h
  | _ =>
    obtain rfl := Except.ok.inj h
    trivial

theorem of_negated {negated : Value} (hv : v.Stems e) (h : v.negated = .ok negated) : negated.Stems (.negation e) := by
  cases v with
  | integer value =>
    obtain rfl := Except.ok.inj h
    obtain ⟨n, k, hsigned, hn, rfl⟩ := hv
    exact ⟨n, k + 1, .negation hsigned, hn, by rw [pow_succ, mul_neg_one, neg_mul]⟩
  | float negative magnitude =>
    obtain rfl := Except.ok.inj h
    trivial
  | _ => cases h

theorem of_nameValue {p : Path} (h : nameValue p = .ok v) : v.Stems e := by
  rw [nameValue] at h
  split at h
  · cases h
  · dsimp only at h
    split_ifs at h <;>
    · obtain rfl := Except.ok.inj h
      trivial

end Value.Stems

section Except
variable {ε α β : Type} {x : Except ε α} {b : β}

theorem exists_of_map_eq_ok {f : α → β} (h : x.map f = .ok b) : ∃ a, x = .ok a ∧ f a = b := by
  cases x with
  | error fault => cases h
  | ok a => exact ⟨a, rfl, Except.ok.inj h⟩

theorem exists_of_bind_eq_ok {f : α → Except ε β} (h : x.bind f = .ok b) : ∃ a, x = .ok a ∧ f a = .ok b := by
  cases x with
  | error fault => cases h
  | ok a => exact ⟨a, rfl, h⟩

theorem ok_of_toOption {a : α} (h : x.toOption = some a) : x = .ok a := by
  cases x with
  | error fault => cases h
  | ok b => rw [Option.some.inj h]

end Except

mutual

theorem stems_of_evaluate (e : Expr) (v : Value) (h : evaluate e = .ok v) : v.Stems e := by
  cases e with
  | literal value => exact .of_literalValue h
  | negation operand =>
    rw [evaluate] at h
    obtain ⟨value, hvalue, hnegated⟩ := exists_of_bind_eq_ok h
    exact .of_negated (stems_of_evaluate operand value hvalue) hnegated
  | path qualified p inner =>
    cases qualified with
    | false => exact .of_nameValue h
    | true => cases h
  | array items =>
    rw [evaluate] at h
    obtain ⟨values, hvalues, rfl⟩ := exists_of_map_eq_ok h
    exact balanced_of_evaluateAll items values hvalues
  | tuple items =>
    rw [evaluate] at h
    obtain ⟨values, hvalues, rfl⟩ := exists_of_map_eq_ok h
    exact balanced_of_evaluateAll items values hvalues
  | vector readable items =>
    rw [evaluate] at h
    split_ifs at h
    obtain ⟨values, hvalues, rfl⟩ := exists_of_map_eq_ok h
    exact balanced_of_evaluateAll items values hvalues
  | methodCall receiver method arguments =>
    rw [evaluate] at h
    split_ifs at h with hconversion
    rw [Bool.and_eq_true, List.contains_iff_mem, List.isEmpty_iff] at hconversion
    obtain ⟨hmethod, rfl⟩ := hconversion
    exact (stems_of_evaluate receiver v h).imp fun _ _ => .conversion hmethod
  | call function arguments =>
    cases function with
    | path qualified p inner =>
      cases arguments with
      | nil => cases h
      | cons argument rest =>
        cases rest with
        | nil =>
          rw [evaluate] at h
          split_ifs at h with hname
          exact (stems_of_evaluate argument v h).imp fun _ _ => .wrapped hname
        | cons second rest => cases h
    | _ => cases h
  | reference inner => exact (stems_of_evaluate inner v h).imp fun _ _ => .reference
  | parenthesized inner => exact (stems_of_evaluate inner v h).imp fun _ _ => .parenthesized
  | _ => cases h

theorem balanced_of_evaluateAll (es : List Expr) (vs : List Value) (h : evaluateAll es = .ok vs) :
    ∀ i ∈ integersOf vs, Balanced i := by
  cases es with
  | nil =>
    obtain rfl := Except.ok.inj h
    exact nofun
  | cons e rest =>
    rw [evaluateAll] at h
    obtain ⟨v, hv, hrest⟩ := exists_of_bind_eq_ok h
    obtain ⟨values, hvalues, heq⟩ := exists_of_bind_eq_ok hrest
    obtain rfl := Except.ok.inj heq
    rw [integersOf, List.forall_mem_append]
    exact ⟨(stems_of_evaluate e v hv).balanced, balanced_of_evaluateAll rest values hvalues⟩

end

theorem evaluateText_eq (source : String) :
    evaluateText source = (expression? source.toList).elim (.error .unreadable) evaluate := by
  rw [evaluateText]
  cases expression? source.toList <;> rfl

/-- Whole numbers in the value of a text or an expression keep within bounds in which a negation is exact. They are
literals under negations, where a literal that is too large is an error. -/
theorem integers_of_evaluate :
    (∀ source v, evaluateText source = .ok v → ∀ i ∈ v.integers, Balanced i) ∧
    (∀ e v, evaluate e = .ok v → ∀ i ∈ v.integers, Balanced i) ∧
    (∀ operand i, evaluate operand = .ok (.integer i) → (Int64.ofInt i).toInt = i ∧
      evaluate (.negation operand) = .ok (.integer (-Int64.ofInt i).toInt)) ∧
    (∀ n k e, Signed n k e →
      evaluate e = if n < 2 ^ 63 then .ok (.integer ((-1) ^ k * n)) else .error .unreadable) ∧
    (∀ n k source, (∃ e ∈ expression? source.toList, Signed n k e) →
      evaluateText source = if n < 2 ^ 63 then .ok (.integer ((-1) ^ k * n)) else .error .unreadable) ∧
    ∀ e i, evaluate e = .ok (.integer i) → ∃ n k, Signed n k e ∧ n < 2 ^ 63 ∧ i = (-1) ^ k * n := by
  refine ⟨fun source v h => ?_, fun e v h => (stems_of_evaluate e v h).balanced, fun operand i h => ?_,
    fun n k e h => h.evaluate_eq, fun n k source ⟨e, he, h⟩ => ?_, fun e i h => stems_of_evaluate e _ h⟩
  · rw [evaluateText_eq] at h
    cases he : expression? source.toList with
    | none => rw [he] at h; cases h
    | some e =>
      rw [he] at h
      exact (stems_of_evaluate e v h).balanced
  · have hbalanced : Balanced i := (stems_of_evaluate operand _ h).balanced i (List.mem_singleton_self i)
    rw [evaluate, h, hbalanced.toInt_neg]
    exact ⟨hbalanced.toInt_ofInt, rfl⟩
  · rw [evaluateText_eq, Option.mem_def.mp he]
    exact h.evaluate_eq

/-- Three negations of the largest literal, one negation of a larger one, and both ends of the range in a list. -/
theorem integers_of_largest :
    (∃ e ∈ expression? "-(-&-9223372036854775807)".toList, Signed 9223372036854775807 3 e) ∧
    evaluateText "-(-&-9223372036854775807)" = .ok (.integer (-9223372036854775807)) ∧
    (∃ e ∈ expression? "-9223372036854775808i64".toList, Signed 9223372036854775808 1 e) ∧
    evaluateText "-9223372036854775808i64" = .error .unreadable ∧
    ∃ v, evaluateText "vec![Some(9223372036854775807), (-9_223_372_036_854_775_807,)]" = .ok v ∧
      v.integers = [9223372036854775807, -9223372036854775807] ∧ ∀ i ∈ v.integers, Balanced i := by
  obtain ⟨hbounds, -, -, -, htexts, -⟩ := integers_of_evaluate
  have hsigned {s : List Char} {n k : Nat} (h : (expression? s).bind signed? = some (n, k)) :
      ∃ e ∈ expression? s, Signed n k e := by
    obtain ⟨e, he, hsigned⟩ := Option.bind_eq_some_iff.mp h
    exact ⟨e, he, signed_of_signed? hsigned⟩
  have hthree : ∃ e ∈ expression? "-(-&-9223372036854775807)".toList, Signed 9223372036854775807 3 e :=
    hsigned (by decide +kernel)
  have hlarge : ∃ e ∈ expression? "-9223372036854775808i64".toList, Signed 9223372036854775808 1 e :=
    hsigned (by decide +kernel)
  have hlist : (evaluateText "vec![Some(9223372036854775807), (-9_223_372_036_854_775_807,)]").toOption.map
      Value.integers = some [9223372036854775807, -9223372036854775807] := by decide +kernel
  obtain ⟨v, hv, hintegers⟩ := Option.map_eq_some_iff.mp hlist
  have hok := ok_of_toOption hv
  exact ⟨hthree, (htexts _ _ _ hthree).trans (if_pos (by decide)), hlarge, (htexts _ _ _ hlarge).trans (if_neg (by decide)),
    v, hok, hintegers, hbounds _ v hok⟩

end ApiHandbook.Argument
