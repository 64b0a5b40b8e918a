import ApiHandbook.Proofs.Rules

/-! Rules that start with a slash. A join of two of them starts with one too, unless both consist of slashes only: then the
root is lost, and what is joined next stands under no mount point. Nothing else is in the way of associativity. -/
namespace ApiHandbook.Project
open Text

def Rooted (rule : String) : Prop := rule.toList.head? = some '/'

instance (rule : String) : Decidable (Rooted rule) := inferInstanceAs (Decidable (_ = _))

/-- Whether exactly one slash stands between two parts, neither of which has one at the seam. -/
structure MeetsOnce (front behind joined : List Char) : Prop where
  joined_eq : joined = front ++ '/' :: behind
  front_ends : front.getLast? ≠ some '/'
  behind_starts : behind.head? ≠ some '/'

/-- Whether a rule is written as a join writes what it adds: it is empty, or one slash with more behind it. -/
def Bare (rule : String) : Prop := rule = "" ∨ ∃ first rest, rule.toList = '/' :: first :: rest ∧ first ≠ '/'

section Joined
variable {mount rule : String}

theorem Rooted.isEmpty_eq_false (h : Rooted rule) : rule.isEmpty = false := by
  rw [← Bool.not_eq_true, String.isEmpty_iff]
  rintro rfl
  cases h

theorem dropEndWhile_of_not_solid (h : ¬ Solid mount) : dropEndWhile (· == '/') mount.toList = [] := by
  rw [solid_iff, Bool.not_eq_false] at h
  exact List.isEmpty_iff.mp ((isEmpty_dropEndWhile _ _).trans h)

theorem dropEndWhile_ne_nil (h : Solid mount) : dropEndWhile (· == '/') mount.toList ≠ [] := by
  rw [← List.isEmpty_eq_false_iff, isEmpty_dropEndWhile]
  exact solid_iff.mp h

theorem head?_dropEndWhile (hrooted : Rooted mount) (hsolid : Solid mount) :
    (dropEndWhile (· == '/') mount.toList).head? = some '/' := by
  obtain ⟨trimmed, hsplit, -⟩ := exists_dropEndWhile_append (· == '/') mount.toList
  rw [← hrooted]
  conv_rhs => rw [hsplit]
  exact (List.head?_append_of_ne_nil _ (dropEndWhile_ne_nil hsolid)).symm

theorem addition_of_not_solid (h : ¬ Solid rule) : addition rule.toList = [] := by
  rw [solid_iff, Bool.not_eq_false] at h
  rw [addition, if_pos h]

theorem addition_of_solid (h : Solid rule) : addition rule.toList = '/' :: rule.toList.dropWhile (· == '/') := by
  rw [addition, solid_iff.mp h, if_neg Bool.false_ne_true]

theorem head?_dropWhile_slash (s : List Char) : (s.dropWhile (· == '/')).head? ≠ some '/' := by
  intro h
  have hnot := List.head?_dropWhile_not (· == '/') s
  rw [h] at hnot
  simp at hnot

/-- What is added to a mount point adds the same to another one. -/
theorem addition_addition (s : List Char) : addition (addition s) = addition s := by
  by_cases h : slashes s
  · rw [addition, slashes_addition, if_pos h, addition, if_pos h]
  · rw [addition, slashes_addition, if_neg h]
    rw [addition, if_neg h, List.dropWhile_cons_of_pos (by rfl), List.dropWhile_idempotent]

theorem addition_eq_self_iff : addition rule.toList = rule.toList ↔ Bare rule := by
  constructor
  · intro h
    by_cases hsolid : Solid rule
    · rw [addition_of_solid hsolid] at h
      right
      cases hdrop : rule.toList.dropWhile (· == '/') with
      | nil =>
        have hslashes : slashes rule.toList = true := by rw [slashes, ← isEmpty_dropWhile, hdrop]; rfl
        rw [solid_iff.mp hsolid] at hslashes
        cases hslashes
      | cons first rest =>
        have hfirst := head?_dropWhile_slash rule.toList
        rw [hdrop] at h hfirst
        exact ⟨first, rest, h.symm, fun heq => hfirst (congrArg some heq)⟩
    · rw [addition_of_not_solid hsolid] at h
      exact .inl (String.toList_eq_nil_iff.mp h.symm)
  · rintro (rfl | ⟨first, rest, hrule, hfirst⟩)
    · rfl
    · have hsolid : Solid rule := ⟨first, by simp [hrule], hfirst⟩
      rw [addition_of_solid hsolid, hrule, List.dropWhile_cons_of_pos (by rfl),
        List.dropWhile_cons_of_neg (by simpa using hfirst)]

/-- The root is lost where two rules that only consist of slashes are joined. -/
theorem joinRules_eq_empty (hmount : Rooted mount) : joinRules mount rule = "" ↔ ¬ Solid mount ∧ ¬ Solid rule := by
  rw [← String.toList_eq_nil_iff, toList_joinRules hmount.isEmpty_eq_false, List.append_eq_nil_iff]
  constructor
  · rintro ⟨hfront, hadded⟩
    refine ⟨fun hsolid => dropEndWhile_ne_nil hsolid hfront, fun hsolid => ?_⟩
    rw [addition_of_solid hsolid] at hadded
    cases hadded
  · rintro ⟨hfront, hadded⟩
    exact ⟨dropEndWhile_of_not_solid hfront, addition_of_not_solid hadded⟩

theorem rooted_joinRules_iff (hmount : Rooted mount) : Rooted (joinRules mount rule) ↔ Solid mount ∨ Solid rule := by
  constructor
  · intro hrooted
    by_contra hneither
    rw [not_or] at hneither
    rw [(joinRules_eq_empty hmount).mpr hneither] at hrooted
    cases hrooted
  · intro hsolid
    rw [Rooted, toList_joinRules hmount.isEmpty_eq_false]
    by_cases hfront : Solid mount
    · rw [List.head?_append_of_ne_nil _ (dropEndWhile_ne_nil hfront)]
      exact head?_dropEndWhile hmount hfront
    · rw [dropEndWhile_of_not_solid hfront, addition_of_solid (hsolid.resolve_left hfront)]
      rfl

theorem meetsOnce_joinRules (hmount : Rooted mount) (hrule : Solid rule) :
    MeetsOnce (dropEndWhile (· == '/') mount.toList) (rule.toList.dropWhile (· == '/')) (joinRules mount rule).toList where
  joined_eq := by rw [toList_joinRules hmount.isEmpty_eq_false, addition_of_solid hrule]
  front_ends h := by simpa using getLast?_dropEndWhile _ _ h
  behind_starts := head?_dropWhile_slash _

end Joined

section Associativity
variable {outer middle : String}

/-- A rule in the middle that only consists of slashes adds nothing on its own. -/
theorem toList_joinRules_joinRules (houter : outer.isEmpty = false) (hmiddle : ¬ Solid middle) (inner : String) :
    (joinRules outer (joinRules middle inner)).toList =
      dropEndWhile (· == '/') outer.toList ++ addition inner.toList := by
  rw [toList_joinRules houter]
  congr 1
  by_cases hempty : middle.isEmpty
  · obtain rfl := String.isEmpty_iff.mp hempty
    rfl
  · rw [toList_joinRules (Bool.not_eq_true _ ▸ hempty), dropEndWhile_of_not_solid hmiddle, List.nil_append,
      addition_addition]

theorem joinRules_assoc_of_solid (houter : Solid outer) (hmiddle : ¬ Solid middle) (inner : String) :
    joinRules (joinRules outer middle) inner = joinRules outer (joinRules middle inner) := by
  have hjoin : (joinRules outer middle).toList = dropEndWhile (· == '/') outer.toList := by
    rw [toList_joinRules houter.isEmpty_eq_false, addition_of_not_solid hmiddle, List.append_nil]
  have hsolid : Solid (joinRules outer middle) := by
    rw [solid_iff, slashes_joinRules, solid_iff.mp houter, Bool.false_and]
  apply String.toList_injective
  rw [toList_joinRules hsolid.isEmpty_eq_false, toList_joinRules_joinRules houter.isEmpty_eq_false hmiddle, hjoin,
    dropEndWhile_dropEndWhile]

theorem joinRules_assoc_iff (outer middle inner : String) :
    joinRules (joinRules outer middle) inner = joinRules outer (joinRules middle inner) ↔
      outer = "" ∨ Solid outer ∨ Solid middle ∨ Bare inner := by
  by_cases hmiddle : Solid middle
  · simp [hmiddle, joinRules_assoc hmiddle]
  by_cases houter : Solid outer
  · simp [houter, joinRules_assoc_of_solid houter hmiddle]
  by_cases hempty : outer = ""
  · simp [hempty, joinRules]
  have hnonempty : outer.isEmpty = false := by simpa using hempty
  -- nothing is left of the two mount points, so that the last rule stays as it is on one side only
  have hlost : joinRules outer middle = "" := by
    rw [← String.toList_eq_nil_iff, toList_joinRules hnonempty, dropEndWhile_of_not_solid houter,
      addition_of_not_solid hmiddle, List.append_nil]
  rw [hlost, ← String.toList_inj, toList_joinRules_joinRules hnonempty hmiddle, dropEndWhile_of_not_solid houter,
    List.nil_append, ← addition_eq_self_iff, eq_comm]
  simp [hempty, houter, hmiddle, joinRules]

end Associativity

/-- Joins of rules that start with a slash start with one and meet in one, and are associative, but for joins of slashes
alone. -/
theorem joins_of_rooted (outer middle inner : String) :
    (Rooted outer → Rooted middle →
      (Rooted (joinRules outer middle) ↔ Solid outer ∨ Solid middle) ∧
      (joinRules outer middle = "" ↔ ¬ Solid outer ∧ ¬ Solid middle) ∧
      (Solid middle → MeetsOnce (dropEndWhile (· == '/') outer.toList) (middle.toList.dropWhile (· == '/'))
        (joinRules outer middle).toList)) ∧
    (joinRules (joinRules outer middle) inner = joinRules outer (joinRules middle inner) ↔
      outer = "" ∨ Solid outer ∨ Solid middle ∨ Bare inner) :=
  ⟨fun houter _ => ⟨rooted_joinRules_iff houter, joinRules_eq_empty houter, meetsOnce_joinRules houter⟩,
    joinRules_assoc_iff outer middle inner⟩

theorem joins_of_api : Rooted "/api/" ∧ Rooted "//users" ∧ Rooted (joinRules "/api/" "//users") ∧
    MeetsOnce "/api".toList "users".toList (joinRules "/api/" "//users").toList ∧
    joinRules (joinRules "/api/" "//users") "/" = joinRules "/api/" (joinRules "//users" "/") := by
  have houter : Rooted "/api/" := by decide
  have hmiddle : Rooted "//users" := by decide
  have hsolid : Solid "//users" := by decide
  obtain ⟨hjoined, hassoc⟩ := joins_of_rooted "/api/" "//users" "/"
  obtain ⟨hrooted, -, hmeets⟩ := hjoined houter hmiddle
  exact ⟨houter, hmiddle, hrooted.mpr (.inr hsolid), hmeets hsolid, hassoc.mpr (.inr (.inr (.inl hsolid)))⟩

/-- Two roots join to nothing, and then the two ways to join a third rule differ. -/
theorem root_lost : Rooted "/" ∧ joinRules "/" "/" = "" ∧ ¬ Rooted (joinRules "/" "/") ∧
    joinRules (joinRules "/" "/") "//users" = "//users" ∧ joinRules "/" (joinRules "/" "//users") = "/users" := by
  decide

end ApiHandbook.Project
