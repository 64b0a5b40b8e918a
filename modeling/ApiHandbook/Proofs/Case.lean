import ApiHandbook.Application
import ApiHandbook.Settings
import Mathlib.Tactic.SplitIfs

/-! The case of letters: methods in capitals, and readable names of functions, which are never the names of methods. -/
namespace ApiHandbook.Text

theorem toNat_ofNat {n : Nat} (h : n.isValidChar) : (Char.ofNat n).toNat = n := by
  rw [Char.ofNat, dif_pos h]
  rfl

theorem toNat_toLower (c : Char) :
    c.toLower.toNat = if 65 ≤ c.toNat ∧ c.toNat ≤ 90 then c.toNat + 32 else c.toNat := by
  delta Char.toLower
  split
  · rename_i h
    simp only [ge_iff_le, UInt32.le_iff_toNat_le] at h
    simp only [Char.toNat, UInt32.toNat_add] at h ⊢
    simp at h ⊢
    rw [if_pos h]
    omega
  · rename_i h
    exact (if_neg h).symm

theorem toNat_toUpper (c : Char) :
    c.toUpper.toNat = if 97 ≤ c.toNat ∧ c.toNat ≤ 122 then c.toNat - 32 else c.toNat := by
  delta Char.toUpper
  split
  · rename_i h
    simp only [UInt32.le_iff_toNat_le] at h
    simp only [Char.toNat, UInt32.toNat_add] at h ⊢
    simp at h ⊢
    rw [if_pos h]
    omega
  · rename_i h
    exact (if_neg h).symm

theorem toUpper_toUpper (c : Char) : c.toUpper.toUpper = c.toUpper := by
  rw [← Char.toNat_inj, toNat_toUpper, toNat_toUpper]
  split_ifs <;> omega

theorem toUpper_toLower (c : Char) : c.toLower.toUpper = c.toUpper := by
  rw [← Char.toNat_inj, toNat_toUpper, toNat_toUpper, toNat_toLower]
  split_ifs <;> omega

theorem toLower_toUpper (c : Char) : c.toUpper.toLower = c.toLower := by
  rw [← Char.toNat_inj, toNat_toLower, toNat_toLower, toNat_toUpper]
  split_ifs <;> omega

/-- A method in capitals differs from the method in case only. -/
theorem asciiLower_upperMethod (method : String) : asciiLower (upperMethod method).toList = asciiLower method.toList := by
  simp only [upperMethod, mapped, asciiUpper, asciiLower, String.toList_ofList, List.map_map, Function.comp_def,
    toLower_toUpper]

theorem upperMethod_upperMethod (method : String) : upperMethod (upperMethod method) = upperMethod method := by
  simp only [upperMethod, mapped, asciiUpper, String.toList_ofList, List.map_map, Function.comp_def, toUpper_toUpper]

/-- The 26 letters become capitals, and every other character stays what it is. -/
theorem map_toNat_upperMethod (method : String) :
    (upperMethod method).toList.map Char.toNat =
      method.toList.map fun c => if 'a' ≤ c ∧ c ≤ 'z' then c.toNat - 32 else c.toNat := by
  rw [upperMethod, mapped, String.toList_ofList, asciiUpper, List.map_map]
  exact List.map_congr_left fun c _ => toNat_toUpper c

/-- Methods in capitals are the same as soon as they are the same ignoring case. -/
theorem sameIgnoringCase_iff {a b : String} (ha : upperMethod a = a) (hb : upperMethod b = b) :
    sameIgnoringCase a.toList b.toList = true ↔ a = b := by
  constructor
  · intro h
    rw [← ha, ← hb, upperMethod, upperMethod, mapped, mapped]
    have hl := congrArg asciiUpper (eq_of_beq h)
    simp only [asciiUpper, asciiLower, List.map_map, Function.comp_def, toUpper_toLower] at hl
    simp only [asciiUpper, hl]
  · rintro rfl
    exact beq_self_eq_true _

theorem isUpper_eq_false_iff (c : Char) : c.isUpper = false ↔ ¬ (65 ≤ c.toNat ∧ c.toNat ≤ 90) := by
  delta Char.isUpper
  rw [decide_eq_false_iff_not]
  exact Iff.rfl

theorem isUpper_toLower (c : Char) : c.toLower.isUpper = false := by
  rw [isUpper_eq_false_iff, toNat_toLower]
  split_ifs <;> omega

/-- The runs of the lower-case table lead behind the ASCII capitals. -/
private theorem bounds_lowerRuns : ∀ run ∈ lowerRuns,
    90 < (run.first : Int) + run.offset ∧ (run.last : Int) + run.offset < 0xD800 ∨
      0xDFFF < (run.first : Int) + run.offset ∧ (run.last : Int) + run.offset < 0x110000 := by
  decide +kernel

private theorem isUpper_shifted_lowerRuns (c : Char) (h : ¬ c.toNat < 128) :
    (shifted lowerRuns c).isUpper = false := by
  rw [isUpper_eq_false_iff, shifted]
  split
  · rename_i run hrun
    have hc := List.find?_some hrun
    have hb := bounds_lowerRuns run (List.mem_of_find?_eq_some hrun)
    simp only [CaseRun.contains, Bool.and_eq_true, decide_eq_true_eq] at hc
    have hv : Nat.isValidChar ((c.toNat : Int) + run.offset).toNat := by
      simp only [Nat.isValidChar]
      omega
    rw [toNat_ofNat hv]
    omega
  · omega

/-- No character has an ASCII capital as its lower-case form. -/
theorem isUpper_of_mem_lowerChar {c d : Char} (h : d ∈ lowerChar c) : d.isUpper = false := by
  rw [lowerChar] at h
  split at h
  · obtain rfl := List.mem_singleton.mp h
    exact isUpper_toLower c
  · split at h
    · rcases List.mem_cons.mp h with rfl | h
      · rfl
      · obtain rfl := List.mem_singleton.mp h
        rfl
    · rename_i hc _
      obtain rfl := List.mem_singleton.mp h
      exact isUpper_shifted_lowerRuns c hc

private theorem upperExpansions_ne_method : ∀ verb ∈ Settings.httpMethods, ∀ e ∈ upperExpansions,
    e.2.map Char.ofNat ≠ verb.toList := by
  decide +kernel

private theorem method_letters : ∀ verb ∈ Settings.httpMethods,
    2 ≤ verb.toList.length ∧ verb.toList.all Char.isUpper = true := by
  decide

theorem upperChar_ne_method (c : Char) {verb : String} (h : verb ∈ Settings.httpMethods) :
    upperChar c ≠ verb.toList := by
  have hl := (method_letters verb h).1
  rw [upperChar]
  split
  · exact fun he => absurd hl (by simp [← he])
  · split
    · rename_i hf
      exact upperExpansions_ne_method verb h _ (List.mem_of_find?_eq_some hf)
    · exact fun he => absurd hl (by simp [← he])

/-- The letters after the first one are small, so a capitalized word of several letters is no method. -/
theorem capitalize_ne_method (s : List Char) {verb : String} (h : verb ∈ Settings.httpMethods) :
    capitalize s ≠ verb.toList := by
  obtain ⟨hl, hu⟩ := method_letters verb h
  rw [List.all_eq_true] at hu
  cases s with
  | nil => exact fun he => absurd hl (by simp [← he, capitalize])
  | cons c rest =>
    intro he
    rw [capitalize] at he
    have hrest : rest.flatMap lowerChar = [] := by
      refine List.eq_nil_iff_forall_not_mem.mpr fun d hd => ?_
      obtain ⟨_, _, hc⟩ := List.mem_flatMap.mp hd
      have := hu d (by simp [← he, hd])
      rw [isUpper_of_mem_lowerChar hc] at this
      cases this
    rw [hrest, List.append_nil] at he
    exact upperChar_ne_method c h he

/-- A readable name is never the name of a method. -/
theorem humanize_ne_method (s : String) {verb : String} (h : verb ∈ Settings.httpMethods) :
    mapped humanize s ≠ verb := by
  intro he
  have he : humanize s.toList = verb.toList := by rw [← he, mapped, String.toList_ofList]
  rw [humanize] at he
  cases hp : (s.toList.splitOn '_').map capitalize with
  | nil => simp [List.splitOn_ne_nil] at hp
  | cons first rest =>
    rw [hp] at he
    cases rest with
    | nil =>
      obtain ⟨w, _, rfl⟩ : ∃ w ∈ s.toList.splitOn '_', capitalize w = first :=
        List.mem_map.mp (by simp [hp])
      exact capitalize_ne_method w h (by simpa using he)
    | cons second rest =>
      have := List.all_eq_true.mp (method_letters verb h).2 ' ' (by simp [← he])
      exact absurd this (by decide)

end ApiHandbook.Text
