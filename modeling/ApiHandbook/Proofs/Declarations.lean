import ApiHandbook.Argument.Scrape
import ApiHandbook.Proofs.LineEndings
import Mathlib.Data.List.Basic

/-! Declarations scraped one by one: the record of a declaration comes from the text up to the next declaration alone, and
from what stands between its parentheses alone when they are closed. -/
namespace ApiHandbook.Argument
open Text

/-! Closing brackets -/

section Brackets
variable {q : Quoting} {depth : Nat} {c : Char} {rest : List Char}

theorem argumentsFrom_kept (h : q = .outside → isOpening c = false ∧ isClosing c = false) :
    argumentsFrom q depth (c :: rest) = (argumentsFrom (q.step c) depth rest).map (c :: ·) := by
  have hopening : ¬ (q = .outside ∧ isOpening c = true) := fun hboth => by simp [h hboth.1] at hboth
  have hclosing : ¬ (q = .outside ∧ isClosing c = true) := fun hboth => by simp [h hboth.1] at hboth
  exact (if_neg hopening).trans (if_neg hclosing)

theorem argumentsFrom_opening (h : isOpening c = true) : argumentsFrom .outside depth (c :: rest) =
    (argumentsFrom (Quoting.outside.step c) (depth + 1) rest).map (c :: ·) :=
  if_pos ⟨rfl, h⟩

theorem argumentsFrom_closing (hopening : isOpening c = false) (hclosing : isClosing c = true) :
    argumentsFrom .outside (depth + 1) (c :: rest) =
      (argumentsFrom (Quoting.outside.step c) depth rest).map (c :: ·) := by
  have hopening' : ¬ (Quoting.outside = .outside ∧ isOpening c = true) := by simp [hopening]
  exact (if_neg hopening').trans (if_pos ⟨rfl, hclosing⟩)

theorem argumentsText?_closing : argumentsText? (')' :: rest) = some [] := rfl

/-- A character that is no closing bracket closes nothing. -/
theorem argumentsFrom_concat (hc : isClosing c = false) (s : List Char) (q : Quoting) (depth : Nat) :
    argumentsFrom q depth (s ++ [c]) = argumentsFrom q depth s := by
  induction s generalizing q depth with
  | nil =>
    have hclosing : ¬ (q = .outside ∧ isClosing c = true) := fun hboth => by simp [hc] at hboth
    exact (if_congr Iff.rfl rfl (if_neg hclosing)).trans (ite_self none)
  | cons d s ih => simp only [List.cons_append, argumentsFrom, ih]

end Brackets

/-- The inside of a literal between two occurrences of a quote, in which a backslash stands before any character. -/
inductive Quoted (quote : Char) : List Char → Prop where
  | nil : Quoted quote []
  | plain {c : Char} {inside : List Char} (hescape : c ≠ '\\') (hquote : c ≠ quote) (hinside : Quoted quote inside) :
    Quoted quote (c :: inside)
  | escaped {c : Char} {inside : List Char} (hinside : Quoted quote inside) : Quoted quote ('\\' :: c :: inside)

/-- The brackets with the ones that close them. -/
def brackets : List (Char × Char) := [('(', ')'), ('[', ']'), ('\x7b', '\x7d')]

/-- Texts of plain characters, closed literals and closed brackets around such texts. -/
inductive Nested : List Char → Prop where
  | nil : Nested []
  | plain {c : Char} {s : List Char} (hquote : c ≠ '"' ∧ c ≠ '\'') (hopening : isOpening c = false)
    (hclosing : isClosing c = false) (hs : Nested s) : Nested (c :: s)
  | literal {quote : Char} {inside s : List Char} (hquote : quote = '"' ∨ quote = '\'') (hinside : Quoted quote inside)
    (hs : Nested s) : Nested (quote :: inside ++ quote :: s)
  | group {left right : Char} {inside s : List Char} (hbrackets : (left, right) ∈ brackets) (hinside : Nested inside)
    (hs : Nested s) : Nested (left :: inside ++ right :: s)

theorem Quoted.plains {quote : Char} {inside : List Char} (h : ∀ c ∈ inside, c ≠ '\\' ∧ c ≠ quote) :
    Quoted quote inside := by
  induction inside with
  | nil => exact .nil
  | cons c inside ih =>
    obtain ⟨⟨hescape, hquote⟩, hrest⟩ := List.forall_mem_cons.mp h
    exact .plain hescape hquote (ih hrest)

theorem Nested.plains {plain s : List Char} (hs : Nested s)
    (h : ∀ c ∈ plain, (c ≠ '"' ∧ c ≠ '\'') ∧ isOpening c = false ∧ isClosing c = false) : Nested (plain ++ s) := by
  induction plain with
  | nil => exact hs
  | cons c plain ih =>
    obtain ⟨⟨hquote, hopening, hclosing⟩, hrest⟩ := List.forall_mem_cons.mp h
    exact .plain hquote hopening hclosing (ih hrest)

theorem Quoted.append {quote : Char} {s t : List Char} (hs : Quoted quote s) (ht : Quoted quote t) :
    Quoted quote (s ++ t) := by
  induction hs with
  | nil => exact ht
  | plain hescape hquote hs ih => exact .plain hescape hquote ih
  | escaped hs ih => exact .escaped ih

theorem Nested.append {s t : List Char} (hs : Nested s) (ht : Nested t) : Nested (s ++ t) := by
  induction hs with
  | nil => exact ht
  | plain hquote hopening hclosing hs ih => exact .plain hquote hopening hclosing ih
  | literal hquote hinside hs ih =>
    rw [List.append_assoc]
    exact .literal hquote hinside ih
  | group hbrackets hinside hs ihinside ih =>
    rw [List.append_assoc]
    exact .group hbrackets hinside ih

/-- A literal is passed over, whatever stands in it. -/
theorem argumentsFrom_quoted {quote : Char} {inside : List Char} (h : Quoted quote inside) (hquote : quote ≠ '\\')
    (depth : Nat) (rest : List Char) : argumentsFrom (.inside quote false) depth (inside ++ quote :: rest) =
      (argumentsFrom .outside depth rest).map (inside ++ quote :: ·) := by
  have hkept (escaped : Bool) (c : Char) (s : List Char) : argumentsFrom (.inside quote escaped) depth (c :: s) =
      (argumentsFrom (Quoting.step (.inside quote escaped) c) depth s).map (c :: ·) := argumentsFrom_kept nofun
  induction h with
  | nil =>
    have hstep : Quoting.step (.inside quote false) quote = .outside := by rw [Quoting.step, if_neg hquote, if_pos rfl]
    rw [List.nil_append, hkept, hstep]
    rfl
  | @plain c inside hescape hother hinside ih =>
    have hstep : Quoting.step (.inside quote false) c = .inside quote false := by
      rw [Quoting.step, if_neg hescape, if_neg hother]
    rw [List.cons_append, hkept, hstep, ih, Option.map_map]
    rfl
  | @escaped c inside hinside ih =>
    have hstep : Quoting.step (.inside quote false) '\\' = .inside quote true := by rw [Quoting.step, if_pos rfl]
    rw [List.cons_append, List.cons_append, hkept, hstep, hkept, Quoting.step, ih, Option.map_map, Option.map_map]
    rfl

theorem step_outside {c : Char} (h : c ≠ '"' ∧ c ≠ '\'') : Quoting.outside.step c = .outside := by
  rw [Quoting.step, if_neg (not_or.mpr h)]

theorem brackets_spec : ∀ pair ∈ brackets, (isOpening pair.1 = true ∧ pair.1 ≠ '"' ∧ pair.1 ≠ '\'') ∧
    isOpening pair.2 = false ∧ isClosing pair.2 = true ∧ pair.2 ≠ '"' ∧ pair.2 ≠ '\'' := by
  decide

/-- A text whose literals and brackets are closed is passed over, at any depth. -/
theorem argumentsFrom_nested {s : List Char} (h : Nested s) (depth : Nat) (rest : List Char) :
    argumentsFrom .outside depth (s ++ rest) = (argumentsFrom .outside depth rest).map (s ++ ·) := by
  -- The inside of a group is read with one bracket more open, and what follows it is part of the rest.
  induction h generalizing depth rest with
  | nil => simp
  | plain hquote hopening hclosing hs ih =>
    rw [List.cons_append, argumentsFrom_kept fun _ => ⟨hopening, hclosing⟩, step_outside hquote, ih, Option.map_map]
    rfl
  | @literal quote inside s hquote hinside hs ih =>
    have hstep : Quoting.outside.step quote = .inside quote false := by rw [Quoting.step, if_pos hquote]
    have hkept : argumentsFrom .outside depth (quote :: (inside ++ quote :: (s ++ rest))) =
        (argumentsFrom (Quoting.outside.step quote) depth (inside ++ quote :: (s ++ rest))).map (quote :: ·) := by
      apply argumentsFrom_kept
      rcases hquote with rfl | rfl
      · exact fun _ => ⟨rfl, rfl⟩
      · exact fun _ => ⟨rfl, rfl⟩
    have hescape : quote ≠ '\\' := by
      rcases hquote with rfl | rfl
      · decide
      · decide
    rw [List.append_assoc, List.cons_append, List.cons_append, hkept, hstep, argumentsFrom_quoted hinside hescape, ih,
      Option.map_map, Option.map_map]
    simp [Function.comp_def]
  | @group left right inside s hbrackets hinside hs ihinside ih =>
    obtain ⟨⟨hleft, hquote⟩, hright, hclosing, hquote'⟩ := brackets_spec _ hbrackets
    rw [List.append_assoc, List.cons_append, List.cons_append, argumentsFrom_opening hleft, step_outside hquote, ihinside,
      argumentsFrom_closing hright hclosing, step_outside hquote', ih, Option.map_map, Option.map_map, Option.map_map]
    simp [Function.comp_def]

/-- The text between the parentheses of a closed declaration is found, whatever follows. -/
theorem argumentsText?_nested {s : List Char} (h : Nested s) (rest : List Char) :
    argumentsText? (s ++ ')' :: rest) = some s := by
  rw [argumentsText?, argumentsFrom_nested h, ← argumentsText?, argumentsText?_closing, Option.map_some, List.append_nil]

/-! The declarations of a function -/

/-- The record of the declaration that a text goes on with behind its opening. -/
def recordAt (s : List Char) : Option Record := (argumentsText? s).bind readDeclaration

/-- The text of a function with a declaration in front of each of the texts behind the first. -/
def declaring (ahead : List Char) (sites : List (List Char)) : List Char := ahead ++ sites.flatMap (opening ++ ·)

theorem recordAt_concat {c : Char} (hc : isClosing c = false) (s : List Char) : recordAt (s ++ [c]) = recordAt s := by
  rw [recordAt, argumentsText?, argumentsFrom_concat hc, ← argumentsText?, ← recordAt]

/-- Each declaration is read from the text up to the next one, whatever line endings the text has. -/
theorem scrapeDeclarations_eq {source : String} (hdoc : ∀ line ∈ lines source.toList, isDocLine line = false) :
    scrapeDeclarations source none =
      ((splitAtText opening source.toList).drop 1).filterMap fun site => recordAt (withoutReturns site) := by
  have hcode : codeOf source.toList none = joinLines (lines source.toList) := by
    rw [codeOf, List.filter_eq_self.mpr fun line hline => by rw [hdoc line hline]; rfl]
  have hpieces := @splitAtText_withoutReturns opening (by decide) (by decide) (by decide) source.toList
  rw [scrapeDeclarations, Option.map_none, hcode]
  change ((splitAtText opening _).drop 1).filterMap recordAt = _
  rw [← Function.comp_def, ← List.filterMap_map, List.map_drop, ← hpieces]
  obtain ⟨ending, rfl | rfl, hending⟩ := exists_withoutReturns_eq source.toList
  · rw [hending, List.append_nil]
  · -- The line feed that joining drops stands at the end of the last piece, where it closes nothing.
    obtain ⟨front, last, hcode, hconcat⟩ :=
      @splitAtText_concat opening (by decide) '\n' (by decide) (joinLines (lines source.toList))
    rw [hending, hcode, hconcat]
    cases front with
    | nil => rfl
    | cons first front =>
      simp only [List.cons_append, List.drop_succ_cons, List.drop_zero, List.filterMap_append, List.filterMap_cons,
        List.filterMap_nil, @recordAt_concat '\n' rfl]

theorem splitAtText_declaring {ahead : List Char} {sites : List (List Char)} (hahead : ¬ opening <:+: ahead)
    (hsites : ∀ site ∈ sites, ¬ opening <:+: site) : splitAtText opening (declaring ahead sites) = ahead :: sites := by
  induction sites generalizing ahead with
  | nil => rw [declaring, List.flatMap_nil, List.append_nil, splitAtText_eq_singleton hahead]
  | cons site sites ih =>
    obtain ⟨hsite, hsites⟩ := List.forall_mem_cons.mp hsites
    -- Only the end of an opening is a parenthesis, so that none reaches into the next one.
    have hcut : ¬ opening <:+: ahead ++ opening.dropLast := fun h =>
      hahead (@infix_left_of_notMem opening.dropLast '(' ahead opening.dropLast (by decide) h)
    have hnext : declaring ahead (site :: sites) = ahead ++ (opening ++ declaring site sites) := by
      rw [declaring, declaring, List.flatMap_cons, List.append_assoc]
    rw [hnext, splitAtText_append_append (by decide) hcut, ih hsite hsites]

/-- Each text behind an opening gives its own record, whatever the other texts are. -/
theorem scrapeDeclarations_declaring {ahead : List Char} {sites : List (List Char)} (hahead : ¬ opening <:+: ahead)
    (hsites : ∀ site ∈ sites, ¬ opening <:+: site)
    (hdoc : ∀ line ∈ lines (declaring ahead sites), isDocLine line = false) :
    scrapeDeclarations (String.ofList (declaring ahead sites)) none =
      sites.filterMap fun site => recordAt (withoutReturns site) := by
  rw [scrapeDeclarations_eq (by rwa [String.toList_ofList]), String.toList_ofList, splitAtText_declaring hahead hsites]
  rfl

/-- A declaration that is closed, with the code behind it. -/
structure Call where
  arguments : List Char
  behind : List Char
  nested : Nested arguments
  opening_arguments : ¬ opening <:+: arguments
  opening_behind : ¬ opening <:+: behind

namespace Call

/-- What stands behind the opening of the declaration. -/
def text (c : Call) : List Char := c.arguments ++ ')' :: c.behind

theorem opening_text (c : Call) : ¬ opening <:+: c.text := by
  intro h
  rcases infix_append_cons (by decide) h with harguments | hbehind
  · exact c.opening_arguments harguments
  · exact c.opening_behind hbehind

theorem recordAt_text (c : Call) (hreturn : '\r' ∉ c.text) :
    recordAt (withoutReturns c.text) = readDeclaration c.arguments := by
  rw [withoutReturns_eq_self hreturn, recordAt, text, argumentsText?_nested c.nested, Option.bind_some]

end Call

/-- The records that are read of closed declarations. -/
def records (calls : List Call) : List Record := calls.filterMap fun c => readDeclaration c.arguments

theorem filterMap_text {calls : List Call} (h : ∀ c ∈ calls, '\r' ∉ c.text) :
    (calls.map Call.text).filterMap (fun site => recordAt (withoutReturns site)) = records calls := by
  rw [List.filterMap_map, records]
  exact List.filterMap_congr fun c hc => c.recordAt_text (h c hc)

/-- A declaration with brackets and quotes in its literals, before code that opens others. -/
def orderCall : Call where
  arguments := '"' :: "order".toList ++ '"' :: (", default=".toList ++
    ('[' :: ('\'' :: [']'] ++ '\'' :: (", ".toList ++ ('"' :: ['\\', '"', '('] ++ ['"']))) ++ [']']))
  behind := "; let mark = '\\''; // don't (\n    list".toList
  nested := by
    refine .literal (.inl rfl) (.plains (forall_mem_of_all (by decide))) (.plains ?_ (forall_mem_of_all (by decide)))
    refine .group (by decide) ?_ .nil
    refine .literal (.inr rfl) (.plains (forall_mem_of_all (by decide))) (.plains ?_ (forall_mem_of_all (by decide)))
    exact .literal (.inl rfl) (.escaped (.plains (forall_mem_of_all (by decide)))) .nil
  opening_arguments := by decide +kernel
  opening_behind := by decide +kernel

/-- A declaration without a name. -/
def namelessCall : Call where
  arguments := "limit + 1".toList
  behind := "\n    list".toList
  nested := by
    rw [← List.append_nil "limit + 1".toList]
    exact .plains .nil (forall_mem_of_all (by decide))
  opening_arguments := by decide +kernel
  opening_behind := by decide +kernel

def limitCall : Call where
  arguments := '"' :: "limit".toList ++ '"' :: ", kind=i64".toList
  behind := "\n\x7d\n".toList
  nested := by
    refine .literal (.inl rfl) (.plains (forall_mem_of_all (by decide))) ?_
    rw [← List.append_nil ", kind=i64".toList]
    exact .plains .nil (forall_mem_of_all (by decide))
  opening_arguments := by decide +kernel
  opening_behind := by decide +kernel

end ApiHandbook.Argument
