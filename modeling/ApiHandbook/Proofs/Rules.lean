import ApiHandbook.Project.Source
import Mathlib.Data.List.DropRight
import Mathlib.Tactic.SplitIfs

/-! Joining rules under mount points is associative as long as the rule in the middle does not only consist of
slashes. -/
namespace ApiHandbook.Text

theorem dropEndWhile_append (p : Char → Bool) (s t : List Char) :
    dropEndWhile p (s ++ t) = if (dropEndWhile p t).isEmpty then dropEndWhile p s else s ++ dropEndWhile p t := by
  simp only [dropEndWhile, List.reverse_append, List.dropWhile_append, List.isEmpty_reverse]
  split_ifs with h
  · rfl
  · rw [List.reverse_append, List.reverse_reverse]

theorem isEmpty_dropWhile (p : Char → Bool) (s : List Char) : (s.dropWhile p).isEmpty = s.all p := by
  rw [Bool.eq_iff_iff, List.isEmpty_iff, List.dropWhile_eq_nil_iff, List.all_eq_true]

theorem isEmpty_dropEndWhile (p : Char → Bool) (s : List Char) : (dropEndWhile p s).isEmpty = s.all p := by
  rw [dropEndWhile, List.isEmpty_reverse, isEmpty_dropWhile, List.all_reverse]

/-- The order in which the two ends are trimmed does not matter. -/
theorem dropWhile_dropEndWhile (p : Char → Bool) (s : List Char) :
    (dropEndWhile p s).dropWhile p = dropEndWhile p (s.dropWhile p) := by
  induction s with
  | nil => rfl
  | cons c s ih =>
    rw [← List.singleton_append, dropEndWhile_append, isEmpty_dropEndWhile]
    by_cases hc : p c
    · rw [List.dropWhile_append_of_pos (by simpa using hc)]
      split_ifs with hs
      · have hs : (dropEndWhile p s) = [] := List.isEmpty_iff.mp (isEmpty_dropEndWhile p s ▸ hs)
        rw [← ih, hs]
        simp [dropEndWhile, hc]
      · rw [List.dropWhile_append_of_pos (by simpa using hc), ih]
    · have hkeep : ([c] ++ s).dropWhile p = [c] ++ s := List.dropWhile_cons_of_neg hc
      rw [hkeep, dropEndWhile_append, isEmpty_dropEndWhile]
      split_ifs with hs
      · simp [dropEndWhile, hc]
      · exact List.dropWhile_cons_of_neg hc

theorem all_dropWhile (p : Char → Bool) (s : List Char) : (s.dropWhile p).all p = s.all p := by
  induction s with
  | nil => rfl
  | cons c s ih =>
    by_cases hc : p c
    · rw [List.dropWhile_cons_of_pos hc, ih, List.all_cons, hc, Bool.true_and]
    · rw [List.dropWhile_cons_of_neg hc]

theorem all_dropEndWhile (p : Char → Bool) (s : List Char) : (dropEndWhile p s).all p = s.all p := by
  rw [dropEndWhile, List.all_reverse, all_dropWhile, List.all_reverse]

theorem dropEndWhile_dropEndWhile (p : Char → Bool) (s : List Char) :
    dropEndWhile p (dropEndWhile p s) = dropEndWhile p s := by
  rw [dropEndWhile, dropEndWhile, List.reverse_reverse, List.dropWhile_idempotent]

theorem exists_dropEndWhile_append (p : Char → Bool) (s : List Char) :
    ∃ t, s = dropEndWhile p s ++ t ∧ ∀ c ∈ t, p c = true := by
  refine ⟨(s.reverse.takeWhile p).reverse, ?_, fun c hc => ?_⟩
  · rw [dropEndWhile, ← List.reverse_append, List.takeWhile_append_dropWhile, List.reverse_reverse]
  · exact List.all_eq_true.mp List.all_takeWhile c (List.mem_reverse.mp hc)

theorem getLast?_dropEndWhile (p : Char → Bool) (s : List Char) {c : Char} (h : (dropEndWhile p s).getLast? = some c) :
    p c = false := by
  rw [dropEndWhile, List.getLast?_reverse] at h
  have hhead := List.head?_dropWhile_not p s.reverse
  rw [h] at hhead
  simpa using hhead

end ApiHandbook.Text

namespace ApiHandbook.Project
open Text

/-- Whether a rule has a character that is no slash. -/
def Solid (rule : String) : Prop := ∃ c ∈ rule.toList, c ≠ '/'

def slashes (s : List Char) : Bool := s.all (· == '/')

theorem solid_iff {rule : String} : Solid rule ↔ slashes rule.toList = false := by
  simp [Solid, slashes]

instance (rule : String) : Decidable (Solid rule) := decidable_of_iff _ solid_iff.symm

theorem Solid.isEmpty_eq_false {rule : String} (h : Solid rule) : rule.isEmpty = false := by
  obtain ⟨c, hc, _⟩ := h
  rw [← Bool.not_eq_true, String.isEmpty_iff]
  rintro rfl
  cases hc

/-- What a rule adds to the mount point in front of it. -/
def addition (rule : List Char) : List Char :=
  if slashes rule then [] else '/' :: rule.dropWhile (· == '/')

theorem slashes_addition (rule : List Char) : slashes (addition rule) = slashes rule := by
  rw [addition]
  split_ifs with h
  · rw [h]
    rfl
  · exact all_dropWhile (· == '/') rule

theorem addition_append {rule : List Char} (h : slashes rule = false) (s : List Char) :
    addition (rule ++ s) = addition rule ++ s := by
  have hs : slashes (rule ++ s) = false := by rw [slashes, List.all_append, show rule.all _ = false from h]; rfl
  rw [addition, addition, h, hs, List.dropWhile_append, isEmpty_dropWhile, show rule.all _ = false from h]
  rfl

theorem dropEndWhile_addition {rule : List Char} (h : slashes rule = false) :
    dropEndWhile (· == '/') (addition rule) = addition (dropEndWhile (· == '/') rule) := by
  have ht : slashes (dropEndWhile (· == '/') rule) = false := (all_dropEndWhile _ rule).trans h
  have hd : (dropEndWhile (· == '/') (rule.dropWhile (· == '/'))).isEmpty = false := by
    rw [isEmpty_dropEndWhile, all_dropWhile]
    exact h
  rw [addition, addition, h, ht, if_neg (by decide), if_neg (by decide), dropWhile_dropEndWhile,
    ← List.singleton_append, dropEndWhile_append, hd]
  rfl

theorem toList_joinRules {mount : String} (h : mount.isEmpty = false) (rule : String) :
    (joinRules mount rule).toList = dropEndWhile (· == '/') mount.toList ++ addition rule.toList := by
  have hd : (rule.toList.dropWhile (· == '/')).isEmpty = slashes rule.toList := isEmpty_dropWhile _ _
  simp only [joinRules, h, hd, addition, Bool.false_eq_true, if_false, String.toList_ofList]
  split_ifs
  · rw [List.append_nil]
  · rfl

theorem slashes_joinRules (mount rule : String) :
    slashes (joinRules mount rule).toList = (slashes mount.toList && slashes rule.toList) := by
  by_cases hm : mount.isEmpty
  · obtain rfl := String.isEmpty_iff.mp hm
    rfl
  · rw [toList_joinRules (Bool.not_eq_true _ ▸ hm), slashes, List.all_append, all_dropEndWhile]
    exact congrArg (_ && ·) (slashes_addition rule.toList)

theorem Solid.joinRules_right {rule : String} (h : Solid rule) (mount : String) : Solid (joinRules mount rule) := by
  rw [solid_iff, slashes_joinRules, solid_iff.mp h, Bool.and_false]

theorem Solid.foldl_joinRules {mount : String} (h : Solid mount) (rules : List String) :
    Solid (rules.foldl joinRules mount) := by
  induction rules generalizing mount with
  | nil => exact h
  | cons rule rules ih =>
    apply ih
    rw [solid_iff, slashes_joinRules, solid_iff.mp h, Bool.false_and]

theorem joinRules_assoc {rule : String} (h : Solid rule) (mount inner : String) :
    joinRules mount (joinRules rule inner) = joinRules (joinRules mount rule) inner := by
  by_cases hm : mount.isEmpty
  · obtain rfl := String.isEmpty_iff.mp hm
    rfl
  · rw [Bool.not_eq_true] at hm
    have hjoin := (h.joinRules_right mount).isEmpty_eq_false
    have ht : slashes (dropEndWhile (· == '/') rule.toList) = false := (all_dropEndWhile _ _).trans (solid_iff.mp h)
    have hadd : (dropEndWhile (· == '/') (addition rule.toList)).isEmpty = false := by
      rw [isEmpty_dropEndWhile]
      exact (slashes_addition _).trans (solid_iff.mp h)
    apply String.toList_injective
    rw [toList_joinRules hm, toList_joinRules hjoin, toList_joinRules hm, toList_joinRules h.isEmpty_eq_false,
      addition_append ht, dropEndWhile_append, hadd, if_neg Bool.false_ne_true, dropEndWhile_addition (solid_iff.mp h),
      List.append_assoc]

/-- An empty rule in the middle takes no part in a join. -/
theorem joinRules_joinRules_empty {mount : String} (h : Solid mount) (rule : String) :
    joinRules (joinRules mount "") rule = joinRules mount rule := by
  have hsolid : Solid (joinRules mount "") := by
    rw [solid_iff, slashes_joinRules, solid_iff.mp h, Bool.false_and]
  have hdrop : dropEndWhile (· == '/') (dropEndWhile (· == '/') mount.toList) = dropEndWhile (· == '/') mount.toList := by
    rw [dropEndWhile, dropEndWhile, List.reverse_reverse, List.dropWhile_idempotent]
  apply String.toList_injective
  rw [toList_joinRules hsolid.isEmpty_eq_false, toList_joinRules h.isEmpty_eq_false, toList_joinRules h.isEmpty_eq_false]
  exact congrArg (· ++ addition rule.toList) ((congrArg _ (List.append_nil _)).trans hdrop)

/-- Rules nested one in another can be joined before they are put under a mount point. -/
theorem joinRules_foldl {rule : String} (h : Solid rule) {rules : List String} (hrules : ∀ r ∈ rules, Solid r)
    (mount : String) : joinRules mount (rules.foldl joinRules rule) = rules.foldl joinRules (joinRules mount rule) := by
  induction rules generalizing rule with
  | nil => rfl
  | cons r rules ih =>
    have hr := hrules r List.mem_cons_self
    rw [List.foldl_cons, List.foldl_cons, ih (hr.joinRules_right rule) fun s hs => hrules s (.tail _ hs),
      joinRules_assoc h]

end ApiHandbook.Project
