import Mathlib.Data.String.Basic

/-! The order of texts is that of their bytes: UTF-8 keeps the order of code points. -/
namespace ApiHandbook.Text

/-- The bytes of a text. -/
def bytes (s : String) : List UInt8 := s.toUTF8.data.toList

theorem bytes_eq_flatMap (s : String) : bytes s = s.toList.flatMap String.utf8EncodeChar := by
  rw [bytes, String.toUTF8, ← String.utf8Encode_toList, List.utf8Encode, List.data_toByteArray]

/-- The digits to base 64 of a smaller number come first. -/
private theorem digits_lt {m n : Nat} (h : m < n) :
    m / 262144 < n / 262144 ∨ m / 262144 = n / 262144 ∧
      (m / 4096 % 64 < n / 4096 % 64 ∨ m / 4096 % 64 = n / 4096 % 64 ∧
        (m / 64 % 64 < n / 64 % 64 ∨ m / 64 % 64 = n / 64 % 64 ∧ m % 64 < n % 64)) := by
  have hm := Nat.div_div_eq_div_mul m 4096 64
  have hn := Nat.div_div_eq_div_mul n 4096 64
  have hm' := Nat.div_div_eq_div_mul m 64 64
  have hn' := Nat.div_div_eq_div_mul n 64 64
  omega

/-- The bytes of a smaller character come first, whatever follows. -/
theorem utf8EncodeChar_append_lt {c d : Char} (h : c < d) (s t : List UInt8) :
    String.utf8EncodeChar c ++ s < String.utf8EncodeChar d ++ t := by
  have hv : c.val.toNat < d.val.toNat := h
  have hd : d.val.toNat < 1114112 := by
    have := d.valid
    simp only [UInt32.isValidChar, Nat.isValidChar] at this
    omega
  simp only [String.utf8EncodeChar]
  generalize c.val.toNat = m at hv
  generalize d.val.toNat = n at hv hd
  have hl := digits_lt hv
  split_ifs <;>
    simp only [List.cons_append, List.nil_append, List.cons_lt_cons_iff, UInt8.lt_iff_toNat_lt, ← UInt8.toNat_inj,
      UInt8.toNat_ofNat', Nat.reducePow] <;>
    simp (disch := omega) only [Nat.mod_eq_of_lt] <;>
    omega

theorem flatMap_utf8EncodeChar_lt {s t : List Char} (h : s < t) :
    s.flatMap String.utf8EncodeChar < t.flatMap String.utf8EncodeChar := by
  induction s generalizing t with
  | nil =>
    cases t with
    | nil => exact absurd h (List.not_lt_nil _)
    | cons d t =>
      have hd : (d :: t).flatMap String.utf8EncodeChar ≠ [] := by
        simp
      obtain ⟨b, bs, he⟩ := List.exists_cons_of_ne_nil hd
      rw [he, List.flatMap_nil]
      exact List.nil_lt_cons b bs
  | cons c s ih =>
    cases t with
    | nil => exact absurd h (List.not_lt_nil _)
    | cons d t =>
      rw [List.flatMap_cons, List.flatMap_cons]
      rcases List.cons_lt_cons_iff.mp h with hc | ⟨rfl, hs⟩
      · exact utf8EncodeChar_append_lt hc _ _
      · exact List.append_left_lt (ih hs)

/-- Texts are in the order of their bytes. -/
theorem lt_iff_bytes_lt (s t : String) : s < t ↔ bytes s < bytes t := by
  rw [bytes_eq_flatMap, bytes_eq_flatMap, String.lt_iff_toList_lt]
  refine ⟨flatMap_utf8EncodeChar_lt, fun h => ?_⟩
  rcases lt_trichotomy s.toList t.toList with hs | hs | hs
  · exact hs
  · rw [hs] at h
    exact absurd h (List.lt_irrefl _)
  · exact absurd (flatMap_utf8EncodeChar_lt hs) (List.lt_asymm h)

end ApiHandbook.Text
