import ApiHandbook.Proofs.Numbering.Item

/-! Whole lists of trees: the items of a file, from tokens that are numbered in another way. -/
namespace ApiHandbook.Code

section
variable {f : Nat → Nat}

theorem grammar_renumbers (f : Nat → Nat) (depth : Nat) : (grammar depth).Renumbers f := by
  induction depth with
  | zero =>
    exact ⟨fun _ _ => rfl, fun _ _ => rfl, fun _ _ _ _ => rfl, fun _ _ => rfl, fun _ => rfl, fun _ => rfl, fun _ _ => rfl,
      fun _ _ _ => rfl, fun _ => rfl, fun _ => rfl⟩
  | succ depth ih =>
    have hshrinks := grammar_shrinks depth
    exact ⟨expr_renumber ih, unary_renumber ih, climb_renumber ih, trailer_renumber ih, early_renumber ih,
      statements_renumber ih, type_renumber ih, bound_renumber ih, pattern_renumber ih, item_renumber ih⟩

theorem ofTrees?_renumber {α : Type} [Numbered α] {reader : Grammar → Reader α}
    (h : ∀ g, g.Renumbers f → ∀ s, reader g (renumber f s) = renumber f (reader g s)) (ts : List Tree) :
    ofTrees? reader (renumber f ts) = renumber f (ofTrees? reader ts) := by
  rw [ofTrees?, ofTrees?, grammarFor, grammarFor, Tree.sizeAll_renumber]
  exact whole?_renumber (h _ (grammar_renumbers f _)) ts

/-- The reader of all items of a file. -/
def fileItems (g : Grammar) : Reader (List Item) := do
  let _ ← innerAttributes g
  untilEnd g.item

theorem fileItems_renumber (g : Grammar) (hg : g.Renumbers f) (s : Reading) :
    fileItems g (renumber f s) = renumber f (fileItems g s) := by
  refine bind_renumbers (innerAttributes_renumber hg) (fun _ => untilEnd_renumber hg.item) s

end
end ApiHandbook.Code
