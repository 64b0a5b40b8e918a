import ApiHandbook.Proofs.Lexemes
import ApiHandbook.Proofs.Numbering.Source

/-! Tokens numbered by places rather than lines: how many characters of the text are left where they start and behind them. The
places tell the lines, so that the items of a text are those read off its places, with the places replaced by lines. -/
namespace ApiHandbook.Code
open Text

theorem exists_withoutMark (s : List Char) : ∃ mark, s = mark ++ withoutMark s ∧ '\n' ∉ mark := by
  rw [withoutMark]
  split
  · rename_i hhead
    obtain ⟨t, rfl⟩ := List.head?_eq_some_iff.mp hhead
    exact ⟨['\ufeff'], rfl, by decide⟩
  · exact ⟨[], rfl, List.not_mem_nil⟩

namespace Lexical

/-- The tokens of a text with their places: the numbers of characters left where they start and behind them. -/
def placesFrom : Nat → List Char → Option (List Located)
  | 0, _ => none
  | fuel + 1, s =>
    match (skipSeparators fuel 0 s).2 with
    | [] => some []
    | s =>
      match docComment? s with
      | some (inner, content, rest) =>
        (placesFrom fuel rest).map ((docTokens inner content).map (⟨·, s.length, rest.length⟩) ++ ·)
      | none => do
        let (token, rest) ← token? s
        (placesFrom fuel rest).map (⟨token, s.length, rest.length⟩ :: ·)

/-- The tokens of a text with their places, after a byte order mark if it starts with one. -/
def places? (s : List Char) : Option (List Located) :=
  let s := withoutMark s
  placesFrom (s.length + 1) s

/-- What stands in front of a place. -/
def before (source : List Char) (place : Nat) : List Char := source.take (source.length - place)

/-- The line of a place. -/
def lineAt (source : List Char) (place : Nat) : Nat := 1 + lineBreaks (before source place)

theorem before_append (front s : List Char) : before (front ++ s) s.length = front := by
  rw [before, List.length_append, Nat.add_sub_cancel, List.take_left]

theorem lineAt_append (front s : List Char) : lineAt (front ++ s) s.length = 1 + lineBreaks front := by
  rw [lineAt, before_append]

/-! What the tokens of a text use of it -/

theorem past_of_word? {s rest : List Char} {name : String} (h : word? s = some (name, rest)) : Past (· ≠ '\n') s rest := by
  have hfeed {p : Char → Bool} (hp : p '\n' = false) (c : Char) (hc : p c = true) : c ≠ '\n' := by
    rintro rfl
    simp [hp] at hc
  obtain ⟨c, t, rfl, hstart, hpast⟩ := exists_of_word? (hfeed (by decide)) (hfeed (by decide)) (by decide) h
  exact hpast.cons (hfeed (by decide) c hstart)

theorem past_of_leaf? {s rest : List Char} {token : Token} (h : leaf? s = some (token, rest))
    (hspans : token.spansLines = false) : Past (· ≠ '\n') s rest := by
  rw [leaf?] at h
  split at h
  · obtain ⟨rfl, -⟩ := Prod.mk.inj (Option.some.inj h)
    cases hspans
  · split at h
    · rename_i found hmark
      obtain ⟨c, joint, rfl, hc, -⟩ := exists_of_mark? (hmark.trans h)
      refine (Past.refl rest).cons ?_
      rintro rfl
      exact absurd hc (by decide)
    · obtain ⟨-, h⟩ := Option.ite_none_left_eq_some.mp h
      obtain ⟨⟨name, after⟩, hword, heq⟩ := Option.map_eq_some_iff.mp h
      obtain ⟨-, rfl⟩ := Prod.mk.inj heq
      exact past_of_word? hword

/-- A token other than a literal stands on one line. -/
theorem past_of_token? {s rest : List Char} {token : Token} (h : token? s = some (token, rest))
    (hspans : token.spansLines = false) : Past (· ≠ '\n') s rest := by
  rw [token?_eq] at h
  split at h
  · obtain ⟨rfl, -⟩ := Prod.mk.inj (Option.some.inj h)
    cases hspans
  · split at h
    · rename_i found hdelimiter
      obtain ⟨rfl, rfl⟩ := Prod.mk.inj (Option.some.inj h)
      obtain ⟨c, hc, hfound⟩ := Option.bind_eq_some_iff.mp hdelimiter
      obtain ⟨t, rfl⟩ := List.head?_eq_some_iff.mp hc
      refine (Past.refl t).cons ?_
      rintro rfl
      cases hfound
    · exact past_of_leaf? h hspans

theorem lineBreaks_eq_zero {s : List Char} (h : ∀ c ∈ s, c ≠ '\n') : lineBreaks s = 0 :=
  List.count_eq_zero.mpr fun hmem => h _ hmem rfl

theorem exists_of_restOfLine (s : List Char) :
    ∃ used, s = used ++ (restOfLine s).2 ∧ lineBreaks used = lineBreaks (restOfLine s).1 := by
  fun_induction restOfLine s with
  | case1 => exact ⟨[], rfl, rfl⟩
  | case2 s => exact ⟨[], rfl, rfl⟩
  | case3 s => exact ⟨['\r'], rfl, rfl⟩
  | case4 c s hfeed hending content rest hrest ih =>
    rw [hrest] at ih
    obtain ⟨used, hs, hbreaks⟩ := ih
    refine ⟨c :: used, by rw [hs]; rfl, ?_⟩
    rw [lineBreaks, lineBreaks] at hbreaks ⊢
    rw [List.count_cons, List.count_cons, hbreaks]

theorem exists_of_blockComment {depth : Nat} {s content rest : List Char} (h : blockComment depth s = some (content, rest)) :
    ∃ used, s = used ++ rest ∧ lineBreaks used = lineBreaks content :=
  ⟨content ++ ['*', '/'], by rw [eq_of_blockComment h, List.append_assoc]; rfl, lineBreaks_append content ['*', '/']⟩

theorem exists_of_comment? {s content rest : List Char} (h : comment? s = some (content, rest)) :
    ∃ used, s = used ++ rest ∧ lineBreaks used = lineBreaks content := by
  rcases cases_of_comment? h with ⟨t, rfl, -, hrest⟩ | ⟨t, rfl, -, hrest⟩
  · obtain ⟨used, ht, hbreaks⟩ := exists_of_restOfLine t
    rw [hrest] at ht hbreaks
    exact ⟨'/' :: '/' :: used, by rw [ht]; rfl, (lineBreaks_append ['/', '/'] used).trans ((Nat.zero_add _).trans hbreaks)⟩
  · obtain ⟨used, rfl, hbreaks⟩ := exists_of_blockComment hrest
    exact ⟨'/' :: '*' :: used, rfl, (lineBreaks_append ['/', '*'] used).trans ((Nat.zero_add _).trans hbreaks)⟩

theorem exists_of_docComment? {s content rest : List Char} {inner : Bool} (h : docComment? s = some (inner, content, rest)) :
    ∃ used, s = used ++ rest ∧ lineBreaks used = lineBreaks content := by
  rcases cases_of_docComment? h with ⟨mark, t, rfl, hdoc, -, hrest⟩ | ⟨t, inside, rfl, hdoc, -, hrest, rfl⟩
  · obtain ⟨used, ht, hbreaks⟩ := exists_of_restOfLine t
    rw [hrest] at ht hbreaks
    have hmark : mark ≠ '\n' := by
      rintro rfl
      exact absurd hdoc (by simp [isLineDoc])
    refine ⟨'/' :: '/' :: mark :: used, by rw [ht]; rfl, ?_⟩
    rw [← hbreaks]
    refine (lineBreaks_append ['/', '/', mark] used).trans ?_
    rw [lineBreaks_eq_zero (by simp [hmark]), Nat.zero_add]
  · obtain ⟨used, ht, hbreaks⟩ := exists_of_blockComment hrest
    refine ⟨'/' :: '*' :: used, by rw [ht]; rfl, (lineBreaks_append ['/', '*'] used).trans ((Nat.zero_add _).trans ?_)⟩
    rw [hbreaks]
    have hhead := head?_of_isBlockDoc hdoc
    rw [eq_of_blockComment hrest] at hhead
    cases inside with
    | nil => rfl
    | cons c inside =>
      have hc : ∀ d ∈ [c], d ≠ '\n' := by
        rintro d hd rfl
        obtain rfl := List.mem_singleton.mp hd
        simp at hhead
      refine (lineBreaks_append [c] inside).trans ?_
      rw [lineBreaks_eq_zero hc, Nat.zero_add]
      rfl

theorem skipSeparators_eq (fuel : Nat) (s : List Char) :
    ∃ skipped, s = skipped ++ (skipSeparators fuel 0 s).2 ∧
      ∀ line, skipSeparators fuel line s = (line + lineBreaks skipped, (skipSeparators fuel 0 s).2) := by
  induction fuel generalizing s with
  | zero => exact ⟨[], rfl, fun line => rfl⟩
  | succ fuel ih =>
    cases s with
    | nil => exact ⟨[], rfl, fun line => rfl⟩
    | cons c s =>
      cases hcomment : comment? (c :: s) with
      | some found =>
        obtain ⟨content, after⟩ := found
        obtain ⟨used, hused, hbreaks⟩ := exists_of_comment? hcomment
        obtain ⟨skipped, hskipped, hlines⟩ := ih after
        have hstep (line : Nat) : skipSeparators (fuel + 1) line (c :: s) =
            skipSeparators fuel (line + lineBreaks content) after := by rw [skipSeparators, hcomment]
        have hend : (skipSeparators (fuel + 1) 0 (c :: s)).2 = (skipSeparators fuel 0 after).2 := by rw [hstep, hlines]
        refine ⟨used ++ skipped, ?_, fun line => ?_⟩
        · rw [hend, List.append_assoc, ← hskipped, hused]
        · rw [hend, hstep, hlines, lineBreaks_append, hbreaks, Nat.add_assoc]
      | none =>
        have hstep (line : Nat) : skipSeparators (fuel + 1) line (c :: s) =
            if isSeparator c then skipSeparators fuel (if c = '\n' then line + 1 else line) s else (line, c :: s) := by
          rw [skipSeparators, hcomment]
        by_cases hc : isSeparator c
        · obtain ⟨skipped, hskipped, hlines⟩ := ih s
          have hend : (skipSeparators (fuel + 1) 0 (c :: s)).2 = (skipSeparators fuel 0 s).2 := by rw [hstep, if_pos hc, hlines]
          refine ⟨c :: skipped, ?_, fun line => ?_⟩
          · rw [hend, List.cons_append, ← hskipped]
          · rw [hend, hstep, if_pos hc, hlines, lineBreaks, lineBreaks, List.count_cons]
            by_cases hbreak : c = '\n'
            · subst hbreak
              simp
              omega
            · simp [hbreak]
        · refine ⟨[], ?_, fun line => ?_⟩
          · rw [hstep, if_neg hc]
            rfl
          · rw [hstep, hstep, if_neg hc, if_neg hc]
            rfl

end Lexical

instance : Numbered Located := ⟨fun f t => { t with first := f t.first, last := f t.last }⟩

@[simp] theorem renumber_located {f : Nat → Nat} (token : Token) (first last : Nat) :
    renumber f (⟨token, first, last⟩ : Located) = ⟨token, f first, f last⟩ := rfl

theorem renumber_map_located {f : Nat → Nat} (tokens : List Token) (first last : Nat) :
    renumber f (tokens.map fun token => (⟨token, first, last⟩ : Located)) =
      tokens.map fun token => ⟨token, f first, f last⟩ := List.map_map

namespace Lexical

/-- The tokens of a text are those with places, on the lines of the places. -/
theorem tokensFrom_eq (fuel : Nat) {source front s : List Char} (hsource : source = front ++ s) :
    tokensFrom fuel (1 + lineBreaks front) s = renumber (lineAt source) (placesFrom fuel s) := by
  induction fuel generalizing front s with
  | zero => rfl
  | succ fuel ih =>
    obtain ⟨skipped, hs, hlines⟩ := skipSeparators_eq fuel s
    rw [tokensFrom, placesFrom, hlines]
    generalize (skipSeparators fuel 0 s).2 = t at hs
    subst hs
    cases t with
    | nil => rfl
    | cons c t =>
      have hstart : lineAt source (c :: t).length = 1 + lineBreaks front + lineBreaks skipped := by
        rw [hsource, ← List.append_assoc, lineAt_append, lineBreaks_append, Nat.add_assoc]
      have hbehind {used rest : List Char} (hused : c :: t = used ++ rest) :
          lineAt source rest.length = 1 + lineBreaks front + lineBreaks skipped + lineBreaks used := by
        rw [hsource, hused, ← List.append_assoc, ← List.append_assoc, lineAt_append, lineBreaks_append, lineBreaks_append,
          Nat.add_assoc, Nat.add_assoc, Nat.add_assoc]
      have hrest {used rest : List Char} (hused : c :: t = used ++ rest) :
          tokensFrom fuel (1 + lineBreaks front + lineBreaks skipped + lineBreaks used) rest =
            renumber (lineAt source) (placesFrom fuel rest) := by
        have hsource' : source = front ++ skipped ++ used ++ rest := by
          rw [hsource, hused, List.append_assoc, List.append_assoc]
        rw [← ih hsource', lineBreaks_append, lineBreaks_append, Nat.add_assoc, Nat.add_assoc, Nat.add_assoc]
      dsimp only
      cases hdoc : docComment? (c :: t) with
      | some found =>
        obtain ⟨inner, content, rest⟩ := found
        obtain ⟨used, hused, hbreaks⟩ := exists_of_docComment? hdoc
        dsimp only
        rw [← hbreaks, hrest hused, renumber_map, map_renumber, ← hbehind hused, ← hstart]
        simp only [renumber_append, renumber_map_located]
      | none =>
        dsimp only
        cases htoken : token? (c :: t) with
        | none => rfl
        | some found =>
          obtain ⟨token, rest⟩ := found
          obtain ⟨used, hused, -⟩ := reads_of_token? htoken
          have htake : (c :: t).take ((c :: t).length - rest.length) = used := by
            rw [hused, List.length_append, Nat.add_sub_cancel, List.take_left]
          have hbreaks (line : Nat) : (if token.spansLines then line + lineBreaks used else line) = line + lineBreaks used := by
            split
            · rfl
            · rename_i hspans
              obtain ⟨used', hused', hfeed⟩ := past_of_token? htoken (Bool.not_eq_true _ ▸ hspans)
              obtain rfl := List.append_cancel_right (hused.symm.trans hused')
              rw [lineBreaks_eq_zero hfeed, Nat.add_zero]
          simp only [Option.bind_eq_bind, Option.bind_some]
          rw [htake, hbreaks, hrest hused, renumber_map, map_renumber, ← hbehind hused, ← hstart]
          rfl

/-- The tokens of a text, from those with places in any text that ends with it. -/
theorem tokens?_eq {source front s : List Char} (hsource : source = front ++ s) (hfront : '\n' ∉ front) :
    tokens? s = renumber (lineAt source) (places? s) := by
  obtain ⟨mark, hs, hmark⟩ := exists_withoutMark s
  have hzero : lineBreaks (front ++ mark) = 0 :=
    List.count_eq_zero.mpr fun hmem => (List.mem_append.mp hmem).elim hfront hmark
  change tokensFrom ((withoutMark s).length + 1) 1 (withoutMark s) = _
  have hwhole : source = (front ++ mark) ++ withoutMark s := by rw [List.append_assoc, ← hs, hsource]
  have heq := tokensFrom_eq ((withoutMark s).length + 1) hwhole
  rwa [hzero] at heq

end Lexical

/-! Trees and items -/

namespace Tree

instance : Numbered Opening := ⟨fun f o => ⟨o.delimiter, f o.first, renumber f o.before⟩⟩

theorem gather_renumber {f : Nat → Nat} (opened : List Opening) (done : List Tree) (tokens : List Located) :
    gather (renumber f opened) (renumber f done) (renumber f tokens) = renumber f (gather opened done tokens) := by
  induction tokens generalizing opened done with
  | nil => simp [gather]
  | cons t tokens ih =>
    obtain ⟨token, first, last⟩ := t
    rw [renumber_cons, renumber_located]
    cases token with
    | opening delimiter => exact ih (⟨delimiter, first, done⟩ :: opened) []
    | word name => exact ih opened (.word name first :: done)
    | mark c joint => exact ih opened (.mark c joint first :: done)
    | literal value => exact ih opened (.literal value first last :: done)
    | closing delimiter =>
      cases opened with
      | nil => rfl
      | cons o opened =>
        rw [renumber_cons, gather, gather]
        by_cases hsame : o.delimiter = delimiter
        · have hgroup := ih opened (.group delimiter done.reverse o.first last :: o.before)
          rw [renumber_cons, renumber_group, ← reverse_renumber] at hgroup
          exact (if_pos hsame).trans (hgroup.trans (congrArg (renumber f) (if_pos hsame).symm))
        · rw [if_neg hsame]
          exact if_neg hsame

/-- The trees of a text with their places. -/
def placed? (s : List Char) : Option (List Tree) := (Lexical.places? s).bind (gather [] [])

end Tree

theorem exists_withoutInterpreter (s : List Char) : ∃ line, s = line ++ withoutInterpreter s ∧ '\n' ∉ line := by
  rw [withoutInterpreter.eq_def]
  split
  · dsimp only
    split
    · exact ⟨[], rfl, List.not_mem_nil⟩
    · refine ⟨_, List.takeWhile_append_dropWhile.symm, fun hmem => ?_⟩
      exact absurd (List.mem_takeWhile_imp hmem) (by decide)
  · exact ⟨[], rfl, List.not_mem_nil⟩

/-- The items of a file with their places. -/
def placedItems? (source : List Char) : Option (List Item) :=
  (Tree.placed? (withoutInterpreter (withoutMark source))).bind (ofTrees? fileItems)

/-- The items of a file are those with places, on the lines of the places. -/
theorem items?_eq (source : List Char) : items? source = renumber (Lexical.lineAt source) (placedItems? source) := by
  obtain ⟨mark, hmark, hmarkFeed⟩ := exists_withoutMark source
  obtain ⟨line, hline, hlineFeed⟩ := exists_withoutInterpreter (withoutMark source)
  have hsource : source = (mark ++ line) ++ withoutInterpreter (withoutMark source) := by
    rw [List.append_assoc, ← hline, ← hmark]
  have hfront : '\n' ∉ mark ++ line := fun hmem => (List.mem_append.mp hmem).elim hmarkFeed hlineFeed
  change (Tree.ofText? (withoutInterpreter (withoutMark source))).bind (ofTrees? fileItems) = _
  rw [Tree.ofText?, Lexical.tokens?_eq hsource hfront, placedItems?, Tree.placed?]
  cases Lexical.places? (withoutInterpreter (withoutMark source)) with
  | none => rfl
  | some tokens =>
    rw [renumber_some, Option.bind_some, Option.bind_some]
    have hgather := Tree.gather_renumber (f := Lexical.lineAt source) [] [] tokens
    rw [renumber_nil, renumber_nil] at hgather
    rw [hgather, bind_renumber, renumber_bind]
    exact Option.bind_congr fun ts _ => ofTrees?_renumber fileItems_renumber ts

end ApiHandbook.Code
