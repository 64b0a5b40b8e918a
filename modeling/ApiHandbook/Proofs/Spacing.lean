import ApiHandbook.Proofs.Comments
import ApiHandbook.Proofs.Lexing

/-! What stands between the tokens of a text: blanks, ordinary comments, and documentation comments, which stand for tokens of
their own. Ordinary comments may end their lines in either way; what they hold is not looked at. -/
namespace ApiHandbook.Code.Lexical
open Text

/-! Comments -/

theorem isLineDoc_eq (s : List Char) : isLineDoc s =
    ("//!".toList.isPrefixOf s || ("///".toList.isPrefixOf s && !"////".toList.isPrefixOf s)) := by
  match s with
  | [] => rfl
  | [a] => simp [isLineDoc, List.isPrefixOf]
  | [a, b] => simp [isLineDoc]; grind
  | [a, b, c] => simp [isLineDoc]; grind
  | a :: b :: c :: d :: s => simp [isLineDoc]; grind

theorem isBlockDoc_eq (s : List Char) : isBlockDoc s =
    ("/*!".toList.isPrefixOf s ||
      ("/**".toList.isPrefixOf s && !"/***".toList.isPrefixOf s && !"/**/".toList.isPrefixOf s)) := by
  match s with
  | [] => rfl
  | [a] => simp [isBlockDoc, List.isPrefixOf]
  | [a, b] => simp [isBlockDoc]; grind
  | [a, b, c] => simp [isBlockDoc]; grind
  | a :: b :: c :: d :: s => simp [isBlockDoc]; grind

theorem isPrefixOf_settled {key : List Char} (hfeed : '\n' ∉ key) (hreturn : '\r' ∉ key) (s : List Char) :
    key.isPrefixOf (settled s) = key.isPrefixOf s := by
  rw [Bool.eq_iff_iff, List.isPrefixOf_iff_prefix, List.isPrefixOf_iff_prefix]
  exact prefix_settled_iff hfeed hreturn s

theorem isLineDoc_settled (s : List Char) : isLineDoc (settled s) = isLineDoc s := by
  rw [isLineDoc_eq, isLineDoc_eq, isPrefixOf_settled (by decide) (by decide), isPrefixOf_settled (by decide) (by decide),
    isPrefixOf_settled (by decide) (by decide)]

theorem isBlockDoc_settled (s : List Char) : isBlockDoc (settled s) = isBlockDoc s := by
  rw [isBlockDoc_eq, isBlockDoc_eq, isPrefixOf_settled (by decide) (by decide), isPrefixOf_settled (by decide) (by decide),
    isPrefixOf_settled (by decide) (by decide), isPrefixOf_settled (by decide) (by decide)]

/-- What is the same of the content of a comment, however its lines end. -/
structure SameContent (content content' : List Char) : Prop where
  breaks : lineBreaks content' = lineBreaks content
  eq : '\r' ∉ content → content' = content

namespace SameContent
variable {content content' : List Char}

theorem refl (content : List Char) : SameContent content content := ⟨rfl, fun _ => rfl⟩

theorem cons (h : SameContent content content') (c : Char) : SameContent (c :: content) (c :: content') where
  breaks := by
    have := h.breaks
    simp only [lineBreaks, List.count_cons] at this ⊢
    omega
  eq hreturn := by rw [h.eq fun hmem => hreturn (List.mem_cons_of_mem c hmem)]

theorem carriage (h : SameContent content content') : SameContent ('\r' :: content) content' where
  breaks := h.breaks
  eq hreturn := absurd List.mem_cons_self hreturn

end SameContent

/-- A carriage return stays where it is, or stands in front of the end of a line. -/
theorem settled_carriage (s : List Char) : settled ('\r' :: s) = settled s ∨ settled ('\r' :: s) = '\r' :: settled s := by
  cases s with
  | nil => exact .inl rfl
  | cons d s =>
    by_cases hfeed : d = '\n'
    · rw [hfeed, settled_ending, settled_cons (by decide)]
      exact .inl rfl
    · exact .inr (settled_cons_cons hfeed s)

theorem restOfLine_settled (s : List Char) : ∃ content', restOfLine (settled s) = (content', settled (restOfLine s).2) ∧
    SameContent (restOfLine s).1 content' := by
  fun_induction restOfLine s with
  | case1 => exact ⟨[], rfl, .refl []⟩
  | case2 s =>
    rw [settled_cons (by decide)]
    exact ⟨[], rfl, .refl []⟩
  | case3 s =>
    rw [settled_ending, settled_cons (by decide)]
    exact ⟨[], rfl, .refl []⟩
  | case4 c s hfeed hending content rest hrest ih =>
    rw [hrest] at ih
    obtain ⟨content', hread, hsame⟩ := ih
    have hcons {d : Char} (hfeed : d ≠ '\n') (hending : ∀ t, d = '\r' → settled s = '\n' :: t → False) :
        restOfLine (d :: settled s) = (d :: content', settled rest) := by
      rw [restOfLine.eq_4 d _ hfeed hending, hread]
    by_cases hreturn : c = '\r'
    · subst hreturn
      rcases settled_carriage s with heq | heq
      · exact ⟨content', heq ▸ hread, hsame.carriage⟩
      · by_cases hfeed' : ∃ t, settled s = '\n' :: t
        · obtain ⟨t, ht⟩ := hfeed'
          rw [ht] at hread heq
          rw [heq]
          exact ⟨content', hread, hsame.carriage⟩
        · exact ⟨'\r' :: content', heq ▸ hcons (by decide) fun t _ ht => hfeed' ⟨t, ht⟩, hsame.cons '\r'⟩
    · exact ⟨c :: content', settled_cons hreturn s ▸ hcons hfeed fun _ heq => absurd heq hreturn, hsame.cons c⟩

theorem blockComment_settled {depth : Nat} {s content rest : List Char} (h : blockComment depth s = some (content, rest)) :
    ∃ content', blockComment depth (settled s) = some (content', settled rest) ∧ SameContent content content' := by
  fun_induction blockComment depth s generalizing content with
  | case1 => cases h
  | case2 depth s ih =>
    obtain ⟨more, hmore, rfl⟩ := exists_of_map_read (f := ('/' :: '*' :: ·)) h
    obtain ⟨content', hread, hsame⟩ := ih hmore
    refine ⟨'/' :: '*' :: content', ?_, (hsame.cons '*').cons '/'⟩
    rw [settled_cons (by decide), settled_cons (by decide), blockComment, hread]
    rfl
  | case3 s =>
    obtain ⟨rfl, rfl⟩ := Prod.mk.inj (Option.some.inj h)
    refine ⟨[], ?_, .refl []⟩
    rw [settled_cons (by decide), settled_cons (by decide)]
    rfl
  | case4 depth s hdepth ih =>
    obtain ⟨more, hmore, rfl⟩ := exists_of_map_read (f := ('*' :: '/' :: ·)) h
    obtain ⟨content', hread, hsame⟩ := ih hmore
    refine ⟨'*' :: '/' :: content', ?_, (hsame.cons '/').cons '*'⟩
    rw [settled_cons (by decide), settled_cons (by decide), blockComment, if_neg hdepth, hread]
    rfl
  | case5 depth c s hopening hclosing ih =>
    obtain ⟨more, hmore, rfl⟩ := exists_of_map_read h
    obtain ⟨content', hread, hsame⟩ := ih hmore
    have hopening' : ∀ t, c = '/' → settled s = '*' :: t → False := by
      intro t hc ht
      obtain ⟨t, rfl, -⟩ := (settled_eq_cons_iff (by decide) (by decide)).mp ht
      exact hopening t hc rfl
    have hclosing' : ∀ t, c = '*' → settled s = '/' :: t → False := by
      intro t hc ht
      obtain ⟨t, rfl, -⟩ := (settled_eq_cons_iff (by decide) (by decide)).mp ht
      exact hclosing t hc rfl
    have hkept : blockComment depth (c :: settled s) = some (c :: content', settled rest) := by
      rw [blockComment.eq_4 depth c _ hopening' hclosing', hread]
      rfl
    by_cases hreturn : c = '\r'
    · subst hreturn
      rcases settled_carriage s with heq | heq
      · exact ⟨content', heq ▸ hread, hsame.carriage⟩
      · exact ⟨'\r' :: content', heq ▸ hkept, hsame.cons '\r'⟩
    · exact ⟨c :: content', settled_cons hreturn s ▸ hkept, hsame.cons c⟩

/-- An ordinary comment goes to the end of its line, or is a block. -/
theorem cases_of_comment? {s content rest : List Char} (h : comment? s = some (content, rest)) :
    (∃ t, s = '/' :: '/' :: t ∧ isLineDoc s = false ∧ restOfLine t = (content, rest)) ∨
      ∃ t, s = '/' :: '*' :: t ∧ isBlockDoc s = false ∧ blockComment 0 t = some (content, rest) := by
  rw [comment?.eq_def] at h
  split at h
  · rename_i t
    obtain ⟨hdoc, heq⟩ := Option.ite_none_left_eq_some.mp h
    exact .inl ⟨t, rfl, Bool.eq_false_iff.mpr hdoc, Option.some.inj heq⟩
  · rename_i t
    obtain ⟨hdoc, hread⟩ := Option.ite_none_left_eq_some.mp h
    exact .inr ⟨t, rfl, Bool.eq_false_iff.mpr hdoc, hread⟩
  · cases h

/-- A comment ends where it does however its lines end. -/
theorem comment?_settled {s content rest : List Char} (h : comment? s = some (content, rest)) :
    ∃ content', comment? (settled s) = some (content', settled rest) ∧ SameContent content content' := by
  rcases cases_of_comment? h with ⟨t, rfl, hdoc, hread⟩ | ⟨t, rfl, hdoc, hread⟩
  · obtain ⟨content', hread', hsame⟩ := restOfLine_settled t
    rw [hread] at hread' hsame
    rw [← isLineDoc_settled, settled_cons (by decide), settled_cons (by decide)] at hdoc
    rw [settled_cons (by decide), settled_cons (by decide), comment?, if_neg (Bool.eq_false_iff.mp hdoc), hread']
    exact ⟨content', rfl, hsame⟩
  · obtain ⟨content', hread', hsame⟩ := blockComment_settled hread
    rw [← isBlockDoc_settled, settled_cons (by decide), settled_cons (by decide)] at hdoc
    rw [settled_cons (by decide), settled_cons (by decide), comment?, if_neg (Bool.eq_false_iff.mp hdoc), hread']
    exact ⟨content', rfl, hsame⟩

theorem eq_of_blockComment {depth : Nat} {s content rest : List Char} (h : blockComment depth s = some (content, rest)) :
    s = content ++ '*' :: '/' :: rest := by
  fun_induction blockComment depth s generalizing content with
  | case1 => cases h
  | case2 depth s ih =>
    obtain ⟨more, hmore, rfl⟩ := exists_of_map_read (f := ('/' :: '*' :: ·)) h
    rw [ih hmore]
    rfl
  | case3 s =>
    obtain ⟨rfl, rfl⟩ := Prod.mk.inj (Option.some.inj h)
    rfl
  | case4 depth s hdepth ih =>
    obtain ⟨more, hmore, rfl⟩ := exists_of_map_read (f := ('*' :: '/' :: ·)) h
    rw [ih hmore]
    rfl
  | case5 depth c s hopening hclosing ih =>
    obtain ⟨more, hmore, rfl⟩ := exists_of_map_read h
    rw [ih hmore]
    rfl

theorem head?_of_isBlockDoc {s : List Char} (h : isBlockDoc ('/' :: '*' :: s) = true) :
    s.head? = some '!' ∨ s.head? = some '*' := by
  grind [isBlockDoc]

theorem docComment?_slashes (mark : Char) (s : List Char) : docComment? ('/' :: '/' :: mark :: s) =
    (if isLineDoc ('/' :: '/' :: mark :: s) then some (mark == '!', restOfLine s) else none).filter
      fun (_, content, _) => !hasLoneReturn content := rfl

theorem docComment?_block (s : List Char) : docComment? ('/' :: '*' :: s) =
    (if isBlockDoc ('/' :: '*' :: s) then
      (blockComment 0 s).map fun (content, rest) => (s.head? == some '!', content.drop 1, rest)
    else none).filter fun (_, content, _) => !hasLoneReturn content := by
  rw [docComment?.eq_def]
  cases s <;> rfl

/-- A documentation comment goes to the end of its line, or is a block whose first character does not belong to its content. -/
theorem cases_of_docComment? {s content rest : List Char} {inner : Bool}
    (h : docComment? s = some (inner, content, rest)) :
    (∃ mark t, s = '/' :: '/' :: mark :: t ∧ isLineDoc s = true ∧ inner = (mark == '!') ∧ restOfLine t = (content, rest)) ∨
      ∃ t inside, s = '/' :: '*' :: t ∧ isBlockDoc s = true ∧ inner = (t.head? == some '!') ∧
        blockComment 0 t = some (inside, rest) ∧ content = inside.drop 1 := by
  rw [docComment?.eq_def] at h
  obtain ⟨hread, -⟩ := Option.filter_eq_some_iff.mp h
  dsimp only at hread
  split at hread
  · rename_i mark t
    obtain ⟨hdoc, heq⟩ := Option.ite_none_right_eq_some.mp hread
    obtain ⟨hinner, hrest⟩ := Prod.mk.inj (Option.some.inj heq)
    exact .inl ⟨mark, t, rfl, hdoc, hinner.symm, hrest⟩
  · rename_i t
    obtain ⟨hdoc, heq⟩ := Option.ite_none_right_eq_some.mp hread
    obtain ⟨⟨inside, after⟩, hinside, heq⟩ := Option.map_eq_some_iff.mp heq
    obtain ⟨hinner, hrest⟩ := Prod.mk.inj heq
    obtain ⟨hcontent, rfl⟩ := Prod.mk.inj hrest
    exact .inr ⟨t, inside, rfl, hdoc, hinner.symm, hinside, hcontent.symm⟩
  · cases hread

/-- A documentation comment without carriage returns does not depend on how the lines around it end. -/
theorem docComment?_settled {s content rest : List Char} {inner : Bool} (h : docComment? s = some (inner, content, rest))
    (hreturn : '\r' ∉ content) : docComment? (settled s) = some (inner, content, settled rest) := by
  have hlone : hasLoneReturn content = false := hasLoneReturn_eq_false hreturn
  rcases cases_of_docComment? h with ⟨mark, t, rfl, hdoc, rfl, hread⟩ | ⟨t, inside, rfl, hdoc, rfl, hread, rfl⟩
  · obtain ⟨content', hread', hsame⟩ := restOfLine_settled t
    rw [hread] at hread' hsame
    rw [hsame.eq hreturn] at hread'
    have hmark : mark ≠ '\r' := by
      rintro rfl
      cases hdoc
    rw [← isLineDoc_settled, settled_cons (by decide), settled_cons (by decide), settled_cons hmark] at hdoc
    rw [settled_cons (by decide), settled_cons (by decide), settled_cons hmark, docComment?_slashes, if_pos hdoc, hread']
    simpa using hlone
  · obtain ⟨inside', hread', hsame⟩ := blockComment_settled hread
    have hreturn' : '\r' ∉ inside := by
      intro hmem
      cases inside with
      | nil => cases hmem
      | cons c inside =>
        have hhead := head?_of_isBlockDoc hdoc
        rw [eq_of_blockComment hread] at hhead
        rcases List.mem_cons.mp hmem with rfl | hmem
        · simp at hhead
        · exact hreturn hmem
    rw [hsame.eq hreturn'] at hread'
    have hinner : ((settled t).head? == some '!') = (t.head? == some '!') := by
      rw [Bool.eq_iff_iff, beq_iff_eq, beq_iff_eq]
      exact head?_settled (by decide) (by decide) t
    rw [← isBlockDoc_settled, settled_cons (by decide), settled_cons (by decide)] at hdoc
    rw [settled_cons (by decide), settled_cons (by decide), docComment?_block, if_pos hdoc, hread', hinner]
    simpa using hlone

/-! Lengths -/

theorem length_restOfLine_le (s : List Char) : (restOfLine s).2.length ≤ s.length := by
  fun_induction restOfLine s with
  | case1 => exact Nat.le_refl 0
  | case2 s => exact Nat.le_refl _
  | case3 s => exact Nat.le_succ _
  | case4 c s hfeed hending content rest hrest ih =>
    rw [hrest] at ih
    exact Nat.le_succ_of_le ih

theorem length_lt_of_blockComment {depth : Nat} {s content rest : List Char}
    (h : blockComment depth s = some (content, rest)) : rest.length < s.length := by
  rw [eq_of_blockComment h]
  simp only [List.length_append, List.length_cons]
  omega

theorem length_lt_of_comment? {s content rest : List Char} (h : comment? s = some (content, rest)) :
    rest.length < s.length := by
  rcases cases_of_comment? h with ⟨t, rfl, -, hread⟩ | ⟨t, rfl, -, hread⟩
  · have hle := length_restOfLine_le t
    rw [hread] at hle
    exact Nat.lt_succ_of_le (Nat.le_succ_of_le hle)
  · have hlt := length_lt_of_blockComment hread
    simp only [List.length_cons]
    omega

theorem length_lt_of_docComment? {s content rest : List Char} {inner : Bool}
    (h : docComment? s = some (inner, content, rest)) : rest.length < s.length := by
  rcases cases_of_docComment? h with ⟨mark, t, rfl, -, -, hread⟩ | ⟨t, inside, rfl, -, -, hread, -⟩
  · have hle := length_restOfLine_le t
    rw [hread] at hle
    exact Nat.lt_succ_of_le (Nat.le_succ_of_le (Nat.le_succ_of_le hle))
  · have hlt := length_lt_of_blockComment hread
    simp only [List.length_cons]
    omega

/-! Where separators and tokens start -/

/-- The code points of separators. -/
def separatorPoints : List Nat :=
  List.range' 9 5 ++ [0x20, 0x85, 0xA0, 0x1680] ++ List.range' 0x2000 11 ++
    [0x200e, 0x200f, 0x2028, 0x2029, 0x202F, 0x205F, 0x3000]

theorem mem_separatorPoints {c : Char} (h : isSeparator c = true) : c.toNat ∈ separatorPoints := by
  simp only [isSeparator, isBlank, Bool.or_eq_true, Bool.and_eq_true, decide_eq_true_eq, beq_iff_eq] at h
  simp only [separatorPoints, List.mem_append, List.mem_range'_1, List.mem_cons, List.not_mem_nil, or_false]
  rcases h with (h | rfl) | rfl
  · omega
  · decide
  · decide

/-- A character that starts no token, but maybe a punctuation mark. -/
def isTokenless (c : Char) : Bool :=
  (delimiter? c).isNone && !isIdentifierStart c && !c.isDigit && c != '"' && c != '\''

theorem tokenless_of_isSeparator {c : Char} (h : isSeparator c = true) :
    isTokenless c = true ∧ marks.contains c = false := by
  have hall : ∀ n ∈ separatorPoints, isTokenless (Char.ofNat n) = true ∧ marks.contains (Char.ofNat n) = false := by
    decide +kernel
  have hc := hall c.toNat (mem_separatorPoints h)
  rwa [Char.ofNat_toNat] at hc

theorem token?_eq_none {c : Char} {s : List Char} (hc : isTokenless c = true) (hmark : startsMark (c :: s) = false) :
    token? (c :: s) = none := by
  simp only [isTokenless, Bool.and_eq_true, Option.isNone_iff_eq_none, Bool.not_eq_true', bne_iff_ne] at hc
  obtain ⟨⟨⟨⟨hdelimiter, hstart⟩, hdigit⟩, hquote⟩, hquote'⟩ := hc
  have hunshown : unshownLiteral.isPrefixOf (c :: s) = false := by
    refine Bool.eq_false_iff.mpr fun h => ?_
    obtain ⟨t, ht⟩ := List.isPrefixOf_iff_prefix.mp h
    rw [← (List.cons.inj ht).1] at hdelimiter
    cases hdelimiter
  -- Quotations start with a quote or a letter.
  have hquotation : startsWith (["\"", "'"] ++ quotationStarts) (c :: s) = false := by
    refine @startsWith_cons _ (fun d => !(d == '"' || d == '\'' || isIdentifierStart d)) (by decide) c ?_ s
    simp [hquote, hquote', hstart]
  have hliteral : literal? (c :: s) = none := literal?_eq_none hquotation hdigit
  have hnomark : mark? (c :: s) = none := by rw [mark?, hmark]; rfl
  have hraw : isRaw (c :: s) = false := by
    refine Bool.eq_false_iff.mpr fun h => ?_
    obtain ⟨t, ht⟩ := List.isPrefixOf_iff_prefix.mp h
    rw [← (List.cons.inj ht).1] at hstart
    cases hstart
  have hword : word? (c :: s) = none := by simp [word?, hraw, identifier?, hstart]
  rw [token?, hunshown, hdelimiter]
  change leaf? (c :: s) = none
  rw [leaf?, hliteral, hnomark, hword]
  exact ite_self none

/-- A token starts where no separator and no comment does. -/
theorem starts_of_token? {s rest : List Char} {token : Token} (h : token? s = some (token, rest)) :
    s.head?.any isSeparator = false ∧ comment? s = none ∧ docComment? s = none := by
  have hslash (t : List Char) : s ≠ '/' :: '/' :: t := by
    rintro rfl
    rw [token?_eq_none (by decide) (by rfl)] at h
    cases h
  have hstar (t : List Char) : s ≠ '/' :: '*' :: t := by
    rintro rfl
    rw [token?_eq_none (by decide) (by rfl)] at h
    cases h
  refine ⟨?_, ?_, ?_⟩
  · cases s with
    | nil => rfl
    | cons c s =>
      refine Bool.eq_false_iff.mpr fun hc => ?_
      obtain ⟨htokenless, hmark⟩ := tokenless_of_isSeparator hc
      have hnomark : startsMark (c :: s) = false := by rw [startsMark, hmark]; rfl
      rw [token?_eq_none htokenless hnomark] at h
      cases h
  · refine Option.eq_none_iff_forall_ne_some.mpr fun found hcomment => ?_
    rcases cases_of_comment? hcomment with ⟨t, heq, -⟩ | ⟨t, heq, -⟩
    · exact hslash t heq
    · exact hstar t heq
  · refine Option.eq_none_iff_forall_ne_some.mpr fun found hdoc => ?_
    rcases cases_of_docComment? hdoc with ⟨mark, t, heq, -⟩ | ⟨t, inside, heq, -⟩
    · exact hslash _ heq
    · exact hstar t heq

/-- A documentation comment starts where no separator and no ordinary comment does. -/
theorem starts_of_docComment? {s : List Char} {found : Bool × List Char × List Char} (h : docComment? s = some found) :
    s.head?.any isSeparator = false ∧ comment? s = none := by
  rcases cases_of_docComment? h with ⟨mark, t, rfl, hdoc, -, -⟩ | ⟨t, inside, rfl, hdoc, -, -, -⟩
  · exact ⟨rfl, by rw [comment?, if_pos hdoc]⟩
  · exact ⟨rfl, by rw [comment?, if_pos hdoc]⟩

end ApiHandbook.Code.Lexical
