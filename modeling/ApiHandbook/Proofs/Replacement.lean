import ApiHandbook.Proofs.Lines
import ApiHandbook.Text.Split

/-! Replacing the occurrences of a text: what an occurrence cannot reach over is replaced part by part. -/
namespace ApiHandbook.Text
variable {key : List Char} (value : List Char)

theorem piecesFrom_eq_drop (key s : List Char) (skip : Nat) : piecesFrom key skip s = piecesFrom key 0 (s.drop skip) := by
  induction s generalizing skip with
  | nil => cases skip <;> rfl
  | cons c s ih =>
    cases skip with
    | zero => rfl
    | succ skip => rw [piecesFrom, ih, List.drop_succ_cons]

theorem splitAtText_append (hkey : key ≠ []) (s : List Char) : splitAtText key (key ++ s) = [] :: splitAtText key s := by
  obtain ⟨c, key, rfl⟩ := List.exists_cons_of_ne_nil hkey
  have hprefix : (c :: key).isPrefixOf (c :: (key ++ s)) = true :=
    List.isPrefixOf_iff_prefix.mpr (List.prefix_append (c :: key) s)
  rw [splitAtText, List.cons_append, piecesFrom, if_pos hprefix, piecesFrom_eq_drop]
  simp [splitAtText]

theorem splitAtText_cons {c : Char} {s : List Char} (h : ¬ key <+: c :: s) :
    splitAtText key (c :: s) = (splitAtText key s).modifyHead (c :: ·) := by
  rw [splitAtText, piecesFrom, if_neg (mt List.isPrefixOf_iff_prefix.mp h)]
  rfl

/-- A text is empty, starts with the key, or starts with a character at which the key does not stand. -/
@[elab_as_elim]
theorem split_induction (hkey : key ≠ []) {motive : List Char → Prop} (nil : motive [])
    (occurrence : ∀ s, motive s → motive (key ++ s))
    (char : ∀ c s, ¬ key <+: c :: s → motive s → motive (c :: s)) (s : List Char) : motive s := by
  match s with
  | [] => exact nil
  | c :: s =>
    by_cases h : key <+: c :: s
    · obtain ⟨rest, hrest⟩ := h
      have hlength : key.length + rest.length = s.length + 1 := by simpa using congrArg List.length hrest
      have hpos := List.length_pos_iff.mpr hkey
      rw [← hrest]
      exact occurrence rest (split_induction hkey nil occurrence char rest)
    · exact char c s h (split_induction hkey nil occurrence char s)
termination_by s.length
decreasing_by all_goals simp only [List.length_cons]; omega

theorem replace_eq_intercalate (hkey : key ≠ []) (s : List Char) :
    replace key value s = value.intercalate (splitAtText key s) := by
  rw [replace, if_neg (by simpa using hkey)]

theorem splitAtText_ne_nil (key s : List Char) : splitAtText key s ≠ [] := List.cons_ne_nil _ _

theorem replace_nil (hkey : key ≠ []) : replace key value [] = [] := by
  rw [replace_eq_intercalate value hkey]
  exact List.intercalate_singleton

theorem replace_append_left (hkey : key ≠ []) (s : List Char) :
    replace key value (key ++ s) = value ++ replace key value s := by
  obtain ⟨piece, pieces, hp⟩ := List.exists_cons_of_ne_nil (splitAtText_ne_nil key s)
  rw [replace_eq_intercalate value hkey, replace_eq_intercalate value hkey, splitAtText_append hkey, hp,
    List.intercalate_cons_cons, List.nil_append]

theorem replace_cons (hkey : key ≠ []) {c : Char} {s : List Char} (h : ¬ key <+: c :: s) :
    replace key value (c :: s) = c :: replace key value s := by
  obtain ⟨piece, pieces, hp⟩ := List.exists_cons_of_ne_nil (splitAtText_ne_nil key s)
  rw [replace_eq_intercalate value hkey, replace_eq_intercalate value hkey, splitAtText_cons h, hp, List.modifyHead_cons]
  cases pieces <;> simp [List.intercalate_cons_cons]

theorem replace_eq_self (hkey : key ≠ []) {s : List Char} (h : ¬ key <:+: s) : replace key value s = s := by
  induction s with
  | nil => exact replace_nil value hkey
  | cons c s ih =>
    rw [replace_cons value hkey (mt List.IsPrefix.isInfix h), ih fun hs => h (hs.trans (List.suffix_cons c s).isInfix)]

theorem intercalate_splitAtText (hkey : key ≠ []) (s : List Char) : key.intercalate (splitAtText key s) = s := by
  rw [← replace_eq_intercalate key hkey]
  induction s using split_induction hkey with
  | nil => exact replace_nil key hkey
  | occurrence s ih => rw [replace_append_left key hkey, ih]
  | char c s h ih => rw [replace_cons key hkey h, ih]

/-- A text is split at the first occurrence of the key. -/
theorem splitAtText_append_append (hkey : key ≠ []) {s : List Char} (h : ¬ key <:+: s ++ key.dropLast)
    (t : List Char) : splitAtText key (s ++ (key ++ t)) = s :: splitAtText key t := by
  induction s with
  | nil => exact splitAtText_append hkey t
  | cons c s ih =>
    rw [List.cons_append, List.infix_cons_iff, not_or] at h
    have hstart : ¬ key <+: c :: (s ++ (key ++ t)) := by
      intro hk
      have hlength : key.length ≤ (c :: (s ++ key.dropLast)).length := by
        simp only [List.length_cons, List.length_append, List.length_dropLast]
        omega
      have hkey' : key.dropLast <+: key ++ t := (List.dropLast_prefix key).trans (List.prefix_append key t)
      have hshort : (c :: s) ++ key.dropLast <+: (c :: s) ++ (key ++ t) := (List.prefix_append_right_inj _).mpr hkey'
      exact h.1 (List.prefix_of_prefix_length_le hk hshort hlength)
    rw [List.cons_append, splitAtText_cons hstart, ih h.2, List.modifyHead_cons]

/-- A text is cut at the first occurrence of the separator. -/
theorem cut?_append_append (hkey : key ≠ []) {s : List Char} (h : ¬ key <:+: s ++ key.dropLast) (t : List Char) :
    cut? key (s ++ (key ++ t)) = some (s, t) := by
  obtain ⟨piece, pieces, hp⟩ := List.exists_cons_of_ne_nil (splitAtText_ne_nil key t)
  rw [cut?, splitAtText_append_append hkey h, hp]
  simp only
  rw [← hp, intercalate_splitAtText hkey]

theorem eq_of_cut? {s before after : List Char} (hkey : key ≠ [])
    (h : cut? key s = some (before, after)) : s = before ++ (key ++ after) := by
  have hjoin := intercalate_splitAtText hkey s
  rw [cut?] at h
  split at h
  · rename_i head next rest hpieces
    obtain ⟨rfl, rfl⟩ := Prod.mk.inj (Option.some.inj h)
    rw [hpieces, List.intercalate_cons_cons] at hjoin
    rw [← hjoin, List.append_assoc]
  · cases h

/-- A text that ends with a character which `t` lacks does not reach into `t`. -/
theorem infix_left_of_notMem {c : Char} {s t : List Char} (hc : c ∉ t) (h : key ++ [c] <:+: s ++ t) :
    key ++ [c] <:+: s := by
  obtain ⟨before, after, h⟩ := h
  rcases List.append_eq_append_iff.mp h with ⟨a, hs, -⟩ | ⟨b, hb, ht⟩
  · exact ⟨before, a, hs.symm⟩
  · rcases List.eq_nil_or_concat b with rfl | ⟨b, d, rfl⟩
    · exact ⟨before, [], by simpa using hb⟩
    · have hd : c = d := by
        have hlast := congrArg List.getLast? hb
        simpa [← List.append_assoc] using hlast
      exact absurd (by simp [ht, hd]) hc

theorem prefix_append_cons_iff {c : Char} (hc : c ∉ key) (s t : List Char) : key <+: s ++ c :: t ↔ key <+: s := by
  refine ⟨fun h => ?_, fun h => h.trans (List.prefix_append s _)⟩
  rcases List.prefix_or_prefix_of_prefix h (List.prefix_append s (c :: t)) with h | ⟨rest, rfl⟩
  · exact h
  · have hrest := (List.prefix_append_right_inj s).mp h
    cases rest with
    | nil => exact (List.append_nil s).symm ▸ List.prefix_refl s
    | cons d rest => exact absurd (by simp [(List.cons_prefix_cons.mp hrest).1]) hc

/-- An occurrence stands on one side of a character that it does not hold. -/
theorem infix_append_cons {c : Char} (hc : c ∉ key) {s t : List Char} (h : key <:+: s ++ c :: t) :
    key <:+: s ∨ key <:+: t := by
  induction s with
  | nil =>
    rw [List.nil_append, List.infix_cons_iff] at h
    exact h.imp_left fun hk => ((prefix_append_cons_iff hc [] t).mp hk).isInfix
  | cons d s ih =>
    rw [List.cons_append, List.infix_cons_iff] at h
    rcases h with hk | hk
    · exact .inl ((prefix_append_cons_iff hc (d :: s) t).mp hk).isInfix
    · exact (ih hk).imp_left fun hs => List.infix_cons hs

theorem exists_infix_of_infix_unlines (hkey : key ≠ []) (hfeed : '\n' ∉ key) {ls : List (List Char)}
    (h : key <:+: unlines ls) : ∃ line ∈ ls, key <:+: line := by
  induction ls with
  | nil => exact absurd (List.infix_nil.mp h) hkey
  | cons line ls ih =>
    rw [unlines_cons] at h
    rcases infix_append_cons hfeed h with hline | hrest
    · exact ⟨line, List.mem_cons_self, hline⟩
    · obtain ⟨other, hother, hk⟩ := ih hrest
      exact ⟨other, List.mem_cons_of_mem _ hother, hk⟩

/-- A text and a closing character occur where the character first stands, or behind it. -/
theorem suffix_or_infix_of_infix {c : Char} {s t : List Char} (hkey : c ∉ key) (hs : c ∉ s)
    (h : key ++ [c] <:+: s ++ c :: t) : key <:+ s ∨ key ++ [c] <:+: t := by
  have hstart {s : List Char} (hs : c ∉ s) (h : key ++ [c] <+: s ++ c :: t) : key = s := by
    obtain ⟨rest, hrest⟩ := h
    have htake {u v : List Char} (hu : c ∉ u) : (u ++ c :: v).takeWhile (· != c) = u := by
      have hne : ∀ d ∈ u, (d != c) = true := fun d hd => bne_iff_ne.mpr (by rintro rfl; exact hu hd)
      rw [List.takeWhile_append_of_pos hne]
      simp
    rw [List.append_assoc] at hrest
    exact (htake hkey).symm.trans ((congrArg _ hrest).trans (htake hs))
  induction s with
  | nil =>
    rw [List.nil_append, List.infix_cons_iff] at h
    rcases h with hk | hk
    · exact .inl (hstart hs hk ▸ List.suffix_refl _)
    · exact .inr hk
  | cons d s ih =>
    rw [List.cons_append, List.infix_cons_iff] at h
    rcases h with hk | hk
    · exact .inl (hstart hs hk ▸ List.suffix_refl _)
    · exact (ih (fun hc => hs (List.mem_cons_of_mem d hc)) hk).imp_left fun hsuffix => hsuffix.trans (List.suffix_cons d s)

/-- An occurrence does not reach over a character that it does not hold. -/
theorem replace_append_cons (hkey : key ≠ []) {c : Char} (hc : c ∉ key) (s t : List Char) :
    replace key value (s ++ c :: t) = replace key value s ++ c :: replace key value t := by
  induction s using split_induction hkey with
  | nil =>
    have h : ¬ key <+: c :: t := fun h => hkey (List.prefix_nil.mp ((prefix_append_cons_iff hc [] t).mp h))
    rw [List.nil_append, replace_cons value hkey h, replace_nil value hkey, List.nil_append]
  | occurrence s ih =>
    rw [List.append_assoc, replace_append_left value hkey, ih, replace_append_left value hkey, List.append_assoc]
  | char d s h ih =>
    have h' : ¬ key <+: d :: (s ++ c :: t) := mt (prefix_append_cons_iff hc (d :: s) t).mp h
    rw [List.cons_append, replace_cons value hkey h', ih, replace_cons value hkey h, List.cons_append]

/-- Where a key does not reach over line feeds, a text is replaced in line by line. -/
theorem replace_unlines (hkey : key ≠ []) (hfeed : '\n' ∉ key) (ls : List (List Char)) :
    replace key value (unlines ls) = unlines (ls.map (replace key value)) := by
  induction ls with
  | nil => exact replace_nil value hkey
  | cons line ls ih => rw [unlines_cons, replace_append_cons value hkey hfeed, ih, List.map_cons, unlines_cons]

theorem one_lt_length_splitAtText (hkey : key ≠ []) {s : List Char} (h : key <:+: s) :
    1 < (splitAtText key s).length := by
  induction s using split_induction hkey with
  | nil => exact absurd (List.infix_nil.mp h) hkey
  | occurrence s ih =>
    rw [splitAtText_append hkey, List.length_cons]
    have := List.length_pos_iff.mpr (splitAtText_ne_nil key s)
    omega
  | char c s hprefix ih =>
    rw [splitAtText_cons hprefix, List.length_modifyHead]
    exact ih ((List.infix_cons_iff.mp h).resolve_left hprefix)

theorem splitAtText_eq_singleton {s : List Char} (h : ¬ key <:+: s) : splitAtText key s = [s] := by
  induction s with
  | nil => rfl
  | cons c s ih =>
    rw [splitAtText_cons (mt List.IsPrefix.isInfix h), ih fun hs => h (hs.trans (List.suffix_cons c s).isInfix),
      List.modifyHead_cons]

theorem head?_eq_some_of_splitAtText {c : Char} (hkey : key ≠ []) (hc : c ∉ key) {s piece : List Char}
    {pieces : List (List Char)} (h : splitAtText key s = piece :: pieces) : piece.head? = some c ↔ s.head? = some c := by
  induction s using split_induction hkey with
  | nil =>
    obtain ⟨rfl, -⟩ := List.cons.inj h
    rfl
  | occurrence s ih =>
    rw [splitAtText_append hkey] at h
    obtain ⟨rfl, -⟩ := List.cons.inj h
    obtain ⟨d, rest, rfl⟩ := List.exists_cons_of_ne_nil hkey
    have hd : d ≠ c := fun heq => hc (heq ▸ List.mem_cons_self)
    simp [hd]
  | char d s hstart ih =>
    obtain ⟨first, more, hfirst⟩ := List.exists_cons_of_ne_nil (splitAtText_ne_nil key s)
    rw [splitAtText_cons hstart, hfirst, List.modifyHead_cons] at h
    obtain ⟨rfl, -⟩ := List.cons.inj h
    rfl

/-- A character that the separator does not end with only makes the last piece longer. -/
theorem splitAtText_concat (hkey : key ≠ []) {c : Char} (hc : key.getLast? ≠ some c) (s : List Char) :
    ∃ front last, splitAtText key s = front ++ [last] ∧ splitAtText key (s ++ [c]) = front ++ [last ++ [c]] := by
  have hshorter {t : List Char} (h : key <+: t ++ [c]) : key <+: t :=
    (List.prefix_concat_iff.mp h).resolve_left fun heq => hc (by rw [heq, List.getLast?_concat])
  induction s using split_induction hkey with
  | nil =>
    have hstart : ¬ key <+: [c] := fun h => hkey (List.prefix_nil.mp (@hshorter [] h))
    exact ⟨[], [], rfl, by rw [List.nil_append, splitAtText_cons hstart]; rfl⟩
  | occurrence s ih =>
    obtain ⟨front, last, hs, hconcat⟩ := ih
    refine ⟨[] :: front, last, ?_, ?_⟩
    · rw [splitAtText_append hkey, hs, List.cons_append]
    · rw [List.append_assoc, splitAtText_append hkey, hconcat, List.cons_append]
  | char d s hstart ih =>
    obtain ⟨front, last, hs, hconcat⟩ := ih
    have hstart' : ¬ key <+: d :: (s ++ [c]) := mt (@hshorter (d :: s)) hstart
    rw [List.cons_append, splitAtText_cons hstart, splitAtText_cons hstart', hs, hconcat]
    cases front with
    | nil => exact ⟨[], d :: last, rfl, rfl⟩
    | cons first front => exact ⟨(d :: first) :: front, last, rfl, rfl⟩

/-- The last piece starts behind the last occurrence, when no two occurrences can overlap. -/
theorem getLast?_tail_splitAtText {c : Char} (hc : c ∉ key) (s : List Char) {t : List Char} (h : ¬ c :: key <:+: t) :
    (splitAtText (c :: key) (s ++ (c :: key ++ t))).tail.getLast? = some t := by
  have hne : c :: key ≠ [] := List.cons_ne_nil c key
  induction s using split_induction hne with
  | nil =>
    rw [List.nil_append, splitAtText_append hne, List.tail_cons, splitAtText_eq_singleton h]
    rfl
  | occurrence s ih =>
    rw [List.append_assoc, splitAtText_append hne, List.tail_cons]
    cases hp : (splitAtText (c :: key) (s ++ (c :: key ++ t))) with
    | nil => exact absurd hp (splitAtText_ne_nil _ _)
    | cons piece pieces =>
      rw [hp, List.tail_cons] at ih
      cases pieces with
      | nil => cases ih
      | cons next pieces => rwa [List.getLast?_cons_of_ne_nil (List.cons_ne_nil next pieces)]
  | char d s hstart ih =>
    have hstart' : ¬ c :: key <+: d :: (s ++ (c :: key ++ t)) := by
      intro hk
      rcases List.prefix_or_prefix_of_prefix hk (List.prefix_append (d :: s) (c :: key ++ t)) with hk' | ⟨rest, hrest⟩
      · exact hstart hk'
      · -- The occurrence would hold the first character of the next one.
        cases rest with
        | nil =>
          rw [List.append_nil] at hrest
          exact hstart ⟨[], by rw [List.append_nil, hrest]⟩
        | cons e rest =>
          have hover : (d :: s) ++ e :: rest <+: (d :: s) ++ c :: (key ++ t) := by
            rw [hrest]
            exact hk
          obtain rfl : e = c := (List.cons_prefix_cons.mp ((List.prefix_append_right_inj _).mp hover)).1
          exact hc (by rw [← (List.cons.inj hrest).2]; simp)
    rw [List.cons_append, splitAtText_cons hstart', List.tail_modifyHead]
    exact ih

theorem mem_replace {c : Char} {s : List Char} (hkey : key ≠ []) (h : c ∈ replace key value s) : c ∈ value ∨ c ∈ s := by
  induction s using split_induction hkey with
  | nil =>
    rw [replace_nil value hkey] at h
    exact .inr h
  | occurrence s ih =>
    rw [replace_append_left value hkey, List.mem_append] at h
    rcases h with h | h
    · exact .inl h
    · exact (ih h).imp_right fun hs => List.mem_append_right key hs
  | char d s hstart ih =>
    rw [replace_cons value hkey hstart, List.mem_cons] at h
    rcases h with rfl | h
    · exact .inr List.mem_cons_self
    · exact (ih h).imp_right (List.mem_cons_of_mem d)

end ApiHandbook.Text
