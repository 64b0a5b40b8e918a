import ApiHandbook.Proofs.Declarations
import ApiHandbook.Proofs.Keywords
import ApiHandbook.Proofs.Lexemes

/-! Declarations that are cut out of a text as they are read: the search for the parenthesis that closes a declaration tells
literals from code by their quotes alone, and finds it where it takes each token for what it is. -/
namespace ApiHandbook.Argument
open Text
open Code (Located Token Tree withoutMark)
open Code.Lexical

/-! Line endings -/

/-- A state of the search in which a literal, if one is open, ends with a quote. -/
def Quoting.Quotes : Quoting → Prop
  | .outside => True
  | .inside quote _ => quote = '"' ∨ quote = '\''

theorem Quoting.Quotes.step {q : Quoting} (h : q.Quotes) (c : Char) : (q.step c).Quotes := by
  cases q with
  | outside =>
    rw [Quoting.step]
    split
    · rename_i hquote
      exact hquote
    · trivial
  | inside quote escaped =>
    cases escaped with
    | true => exact h
    | false =>
      rw [Quoting.step]
      split
      · exact h
      · split
        · trivial
        · exact h

/-- A carriage return in front of a line feed makes no difference to the search. -/
theorem step_ending {q : Quoting} (h : q.Quotes) : (q.step '\r').step '\n' = q.step '\n' := by
  cases q with
  | outside => rfl
  | inside quote escaped =>
    rcases h with rfl | rfl
    · cases escaped <;> rfl
    · cases escaped <;> rfl

theorem prefix_of_argumentsFrom {s text : List Char} {q : Quoting} {depth : Nat} (h : argumentsFrom q depth s = some text) :
    text <+: s := by
  induction s generalizing q depth text with
  | nil => cases h
  | cons c s ih =>
    have hkept {depth : Nat} (h : (argumentsFrom (q.step c) depth s).map (c :: ·) = some text) : text <+: c :: s := by
      obtain ⟨text, htext, rfl⟩ := Option.map_eq_some_iff.mp h
      exact List.cons_prefix_cons.mpr ⟨rfl, ih htext⟩
    rw [argumentsFrom.eq_def] at h
    dsimp only at h
    split at h
    · exact hkept h
    · split at h
      · cases depth with
        | zero => exact Option.some.inj h ▸ List.nil_prefix
        | succ depth => exact hkept h
      · exact hkept h

/-- A declaration ends in the same place whatever line endings it has. -/
theorem argumentsFrom_withoutReturns (s : List Char) {q : Quoting} (hq : q.Quotes) (depth : Nat) :
    argumentsFrom q depth (withoutReturns s) = (argumentsFrom q depth s).map withoutReturns := by
  have hplain (q : Quoting) (depth : Nat) {c : Char} (hc : c = '\r' ∨ c = '\n') (s : List Char) :
      argumentsFrom q depth (c :: s) = (argumentsFrom (q.step c) depth s).map (c :: ·) :=
    argumentsFrom_kept fun _ => by rcases hc with rfl | rfl <;> exact ⟨rfl, rfl⟩
  induction s generalizing q depth with
  | nil => rfl
  | cons c s ih =>
    by_cases hends : c = '\r' ∧ s.head? = some '\n'
    · obtain ⟨rfl, hhead⟩ := hends
      obtain ⟨s, rfl⟩ := List.head?_eq_some_iff.mp hhead
      have ih' := ih (hq.step '\r') depth
      have hfeed (s : List Char) : withoutReturns ('\n' :: s) = '\n' :: withoutReturns s :=
        withoutReturns_cons fun heq => absurd heq (by decide)
      have hreturn (s : List Char) : withoutReturns ('\r' :: '\n' :: s) = withoutReturns ('\n' :: s) := if_pos ⟨rfl, rfl⟩
      rw [hfeed, hplain _ _ (.inr rfl), step_ending hq, hplain _ _ (.inr rfl), step_ending hq] at ih'
      rw [hreturn, hfeed, hplain _ _ (.inr rfl), ih', hplain _ _ (.inl rfl), hplain _ _ (.inr rfl), step_ending hq,
        Option.map_map, Option.map_map, Option.map_map]
      exact congrArg (Option.map · _) (funext fun text => (hreturn text).symm)
    · -- What is kept of the rest starts as the rest does, so that the character does not end a line there either.
      have hkept (depth : Nat) : (argumentsFrom (q.step c) depth (withoutReturns s)).map (c :: ·) =
          ((argumentsFrom (q.step c) depth s).map (c :: ·)).map withoutReturns := by
        rw [ih (hq.step c)]
        cases htext : argumentsFrom (q.step c) depth s with
        | none => rfl
        | some text =>
          have hnot : c = '\r' → text.head? ≠ some '\n' := by
            intro hreturn hhead
            obtain ⟨text, rfl⟩ := List.head?_eq_some_iff.mp hhead
            obtain ⟨rest, rfl⟩ := prefix_of_argumentsFrom htext
            exact hends ⟨hreturn, rfl⟩
          exact congrArg some (withoutReturns_cons hnot).symm
      rw [withoutReturns, if_neg hends, argumentsFrom.eq_def, argumentsFrom.eq_def]
      dsimp only
      split
      · exact hkept _
      · split
        · cases depth with
          | zero => rfl
          | succ depth => exact hkept depth
        · exact hkept _

/-! Brackets -/

/-- Whether the search keeps count of the brackets of a text with the given tokens: where the tokens close the groups that are
open, the search comes out of the text with no bracket open. -/
def Tracks (tokens : List Located) (s : List Char) : Prop :=
  ∀ opened done ts, Tree.gather opened done tokens = some ts → ∀ rest,
    argumentsFrom .outside opened.length (s ++ rest) = (argumentsFrom .outside 0 rest).map (s ++ ·)

namespace Tracks
variable {tokens : List Located} {s text : List Char}

theorem nil : Tracks [] [] := by
  intro opened done ts hgather rest
  have hopened : opened = [] := by
    by_contra hne
    rw [Tree.gather, if_neg (by simp [hne])] at hgather
    cases hgather
  rw [hopened]
  simp

theorem nested (htext : Nested text) (h : Tracks tokens s) : Tracks tokens (text ++ s) := by
  intro opened done ts hgather rest
  rw [List.append_assoc, argumentsFrom_nested htext, h opened done ts hgather, Option.map_map]
  simp [Function.comp_def]

theorem documentation {inner : Bool} {content : List Char} {first last : Nat} (htext : Nested text) (h : Tracks tokens s) :
    Tracks ((docTokens inner content).map (⟨·, first, last⟩) ++ tokens) (text ++ s) := by
  intro opened done ts hgather
  -- The attribute is a group of its own.
  have hrest : ∃ done, Tree.gather opened done tokens = some ts := by
    cases inner with
    | true => exact ⟨_, hgather⟩
    | false => exact ⟨_, hgather⟩
  obtain ⟨done, hgather⟩ := hrest
  exact nested htext h opened done ts hgather

theorem token {token : Token} {first last : Nat} (htext : Passes token text) (h : Tracks tokens s) :
    Tracks (⟨token, first, last⟩ :: tokens) (text ++ s) := by
  intro opened done ts hgather
  cases htext with
  | opening delimiter hopening hquote =>
    intro rest
    have hrest := h _ _ ts hgather rest
    rw [List.cons_append, List.nil_append, List.cons_append, argumentsFrom_opening hopening, step_outside hquote]
    rw [List.length_cons] at hrest
    rw [hrest, Option.map_map]
    rfl
  | closing delimiter hopening hclosing hquote =>
    intro rest
    cases opened with
    | nil => cases hgather
    | cons o opened =>
      rw [Tree.gather] at hgather
      obtain ⟨-, hgather⟩ := Option.ite_none_right_eq_some.mp hgather
      rw [List.cons_append, List.nil_append, List.cons_append, List.length_cons, argumentsFrom_closing hopening hclosing,
        step_outside hquote, h _ _ ts hgather rest, Option.map_map]
      rfl
  | literal value hnested => exact nested hnested h _ _ ts hgather
  | word name hnested => exact nested hnested h _ _ ts hgather
  | mark c joint hnested => exact nested hnested h _ _ ts hgather

end Tracks

/-! Legible texts -/

theorem nested_of_isSeparator {c : Char} (h : isSeparator c = true) : Nested [c] := by
  have hnot {d : Char} (hd : isTokenless d = false) : c ≠ d := by
    rintro rfl
    rw [(tokenless_of_isSeparator h).1] at hd
    cases hd
  have hopening : isOpening c = false := by
    simp [isOpening, @hnot '(' rfl, @hnot '[' rfl, @hnot '\x7b' rfl]
  have hclosing : isClosing c = false := by
    simp [isClosing, @hnot ')' rfl, @hnot ']' rfl, @hnot '\x7d' rfl]
  exact .plain ⟨@hnot '"' rfl, @hnot '\'' rfl⟩ hopening hclosing .nil

/-- Texts in which the search takes every token for what it is: literals are quoted as the search expects, and what it reads
in comments is closed. -/
inductive Legible : List Char → Prop where
  | nil : Legible []
  | blank {c : Char} {s : List Char} (hc : isSeparator c = true) (hs : Legible s) : Legible (c :: s)
  | comment {text content s : List Char} (hcomment : comment? (text ++ s) = some (content, s)) (htext : Nested text)
    (hs : Legible s) : Legible (text ++ s)
  | documentation {inner : Bool} {text content s : List Char} (hdoc : docComment? (text ++ s) = some (inner, content, s))
    (hreturn : '\r' ∉ content) (htext : Nested text) (hs : Legible s) : Legible (text ++ s)
  | token {token : Token} {text s : List Char} (htoken : token? (text ++ s) = some (token, s))
    (hodd : Odd text → Nested text ∧ '\r' ∉ text) (hs : Legible s) : Legible (text ++ s)

theorem Legible.blanks {blanks s : List Char} (h : ∀ c ∈ blanks, isSeparator c = true) (hs : Legible s) :
    Legible (blanks ++ s) := by
  induction blanks with
  | nil => exact hs
  | cons c blanks ih =>
    obtain ⟨hc, hblanks⟩ := List.forall_mem_cons.mp h
    exact .blank hc (ih hblanks)

/-- A legible text has tokens, the same ones whatever line endings it has, and the search keeps count of their brackets. -/
theorem Legible.lexes {s : List Char} (h : Legible s) (line : Nat) :
    ∃ tokens, Lexes line s tokens ∧ Lexes line (settled s) tokens ∧ Tracks tokens s := by
  induction h generalizing line with
  | nil => exact ⟨[], .nil line, Lexes.blank rfl (.nil _), .nil⟩
  | @blank c s hc hs ih =>
    obtain ⟨tokens, hlexes, hsettled, htracks⟩ := ih (if c = '\n' then line + 1 else line)
    refine ⟨tokens, hlexes.blank hc, ?_, htracks.nested (nested_of_isSeparator hc)⟩
    by_cases hreturn : c = '\r'
    · subst hreturn
      rcases settled_carriage s with heq | heq
      · exact heq ▸ hsettled
      · exact heq ▸ Lexes.blank rfl hsettled
    · exact settled_cons hreturn s ▸ hsettled.blank hc
  | @comment text content s hcomment htext hs ih =>
    obtain ⟨tokens, hlexes, hsettled, htracks⟩ := ih (line + lineBreaks content)
    obtain ⟨content', hcomment', hsame⟩ := comment?_settled hcomment
    exact ⟨tokens, hlexes.comment hcomment, Lexes.comment hcomment' (hsame.breaks ▸ hsettled), htracks.nested htext⟩
  | @documentation inner text content s hdoc hreturn htext hs ih =>
    obtain ⟨tokens, hlexes, hsettled, htracks⟩ := ih (line + lineBreaks content)
    exact ⟨_, hlexes.documentation hdoc, hsettled.documentation (docComment?_settled hdoc hreturn),
      htracks.documentation htext⟩
  | @token token text s htoken hodd hs ih =>
    obtain ⟨used, hused, hreads⟩ := reads_of_token? htoken
    obtain rfl : text = used := List.append_cancel_right hused
    have hsettle := hreads.settle hodd
    obtain ⟨text', htext', hreads'⟩ := reads_of_token? hsettle
    rw [htext'] at hsettle
    have hbreaks : lineBreaks text' = lineBreaks text := by
      have hcount := lineBreaks_settled (text ++ s)
      rw [htext', lineBreaks_append, lineBreaks_append, lineBreaks_settled] at hcount
      omega
    obtain ⟨tokens, hlexes, hsettled, htracks⟩ := ih (if token.spansLines then line + lineBreaks text else line)
    refine ⟨_, hlexes.token htoken hreads.ne_nil, ?_, htracks.token (hreads.passes fun h => (hodd h).1)⟩
    rw [← hbreaks] at hsettled ⊢
    exact htext' ▸ hsettled.token hsettle hreads'.ne_nil

/-! Declarations -/

theorem withoutMark_settled (s : List Char) : withoutMark (settled s) = settled (withoutMark s) := by
  rw [withoutMark, withoutMark]
  simp only [head?_settled (by decide : '\ufeff' ≠ '\n') (by decide)]
  split
  · rename_i hmark
    obtain ⟨s, rfl⟩ := List.head?_eq_some_iff.mp hmark
    rw [settled_cons (by decide)]
    rfl
  · rfl

section Arguments
variable {s : List Char} (h : Legible (withoutMark s))
include h

theorem ofText?_settled : Tree.ofText? (settled s) = Tree.ofText? s := by
  obtain ⟨tokens, hlexes, hsettled, -⟩ := h.lexes 1
  have htokens {s : List Char} (hlexes : Lexes 1 (withoutMark s) tokens) : tokens? s = some tokens :=
    hlexes _ (Nat.lt_succ_self _)
  rw [Tree.ofText?, Tree.ofText?, htokens hlexes, htokens (withoutMark_settled s ▸ hsettled)]

theorem argumentsText?_legible {ts : List Tree} (hts : Tree.ofText? s = some ts) (rest : List Char) :
    argumentsText? (s ++ rest) = (argumentsText? rest).map (s ++ ·) := by
  obtain ⟨tokens, hlexes, -, htracks⟩ := h.lexes 1
  have htokens : tokens? s = some tokens := hlexes _ (Nat.lt_succ_self _)
  rw [Tree.ofText?, htokens, Option.bind_some] at hts
  have hwithout := htracks [] [] ts hts rest
  rw [withoutMark] at hwithout
  split at hwithout
  · rename_i hmark
    obtain ⟨s, rfl⟩ := List.head?_eq_some_iff.mp hmark
    have hplain : Nested ['\ufeff'] := .plain (by decide) rfl rfl .nil
    change argumentsFrom .outside 0 (s ++ rest) = (argumentsFrom .outside 0 rest).map (s ++ ·) at hwithout
    rw [argumentsText?]
    change argumentsFrom .outside 0 (['\ufeff'] ++ (s ++ rest)) = _
    rw [argumentsFrom_nested hplain, hwithout, Option.map_map]
    rfl
  · exact hwithout

/-- A legible declaration is read from the text between its parentheses, whatever line endings it has. -/
theorem recordAt_legible {ts : List Tree} (hts : Tree.ofText? s = some ts) :
    recordAt (withoutReturns (s ++ ['\n', ')'])) = readDeclaration s := by
  have hread : readDeclaration (settled s) = readDeclaration s := by
    simp only [readDeclaration, Arguments.ofText, Code.expressions?, Code.ofText?, ofText?_settled h]
  have htext : argumentsText? (withoutReturns (s ++ ['\n', ')'])) = some (settled s) := by
    rw [argumentsText?, @argumentsFrom_withoutReturns _ .outside trivial, ← argumentsText?, argumentsText?_legible h hts]
    rfl
  rw [recordAt, htext, Option.bind_some, hread]

end Arguments

theorem exists_ofText? {s : List Char} {arguments : Arguments} (h : Arguments.ofText s = .ok arguments) :
    ∃ ts, Tree.ofText? s = some ts := by
  by_contra hnone
  have hts : Tree.ofText? s = none := by
    rw [Option.eq_none_iff_forall_ne_some]
    exact fun ts hts => hnone ⟨ts, hts⟩
  rw [Arguments.ofText, Code.expressions?, Code.ofText?, hts] at h
  cases h

/-- A declaration with the given text between its parentheses, the last of which stands on a line of its own. -/
def callOf (source : List Char) : List Char := declaring ['p'] [source ++ ['\n', ')']]

/-- A declaration with closed quotes and brackets in a comment, and a raw literal that ends where the search expects it. -/
def commented : List (List Char) :=
  ["\"page\"".toList, ",".toList, "\r\n    ".toList, "/* (\"one\" ['x']) */".toList, " ".toList, "help".toList, "=".toList,
    "r#\"(\\d)\"#".toList]

def commentedKeywords : List (String × (Code.Literal ⊕ Code.Path)) := [("help", .inl (.text "(\\d)"))]

theorem legible_commented : Legible commented.flatten := by
  have hinside : Nested ('"' :: "one".toList ++ '"' :: (" ".toList ++ ('[' :: ('\'' :: ['x'] ++ ['\'']) ++ [']']))) := by
    refine .literal (.inl rfl) (.plains (forall_mem_of_all (by decide))) (.plains ?_ (forall_mem_of_all (by decide)))
    exact .group (by decide) (.literal (.inr rfl) (.plains (forall_mem_of_all (by decide))) .nil) .nil
  have hcomment : Nested "/* (\"one\" ['x']) */".toList :=
    .plains (.group (by decide) hinside (.plains .nil (forall_mem_of_all (by decide)) : Nested (" */".toList ++ [])))
      (forall_mem_of_all (by decide) : ∀ c ∈ "/* ".toList, _)
  have hraw : Nested "r#\"(\\d)\"#".toList := by
    refine .plain (by decide) rfl rfl (.plain (by decide) rfl rfl ?_)
    have hquoted : Quoted '"' "(\\d)".toList := .plain (by decide) (by decide) (.escaped (.plain (by decide) (by decide) .nil))
    exact .literal (.inl rfl) hquoted (.plain (by decide) rfl rfl .nil)
  have hordinary (token : Token) {text s : List Char} (htoken : token? (text ++ s) = some (token, s)) (hodd : ¬ Odd text)
      (hs : Legible s) : Legible (text ++ s) := .token htoken (fun h => absurd h hodd) hs
  refine hordinary (.literal (.text "page")) (by decide +kernel) (by decide) ?_
  refine hordinary (.mark ',' false) (by decide +kernel) (by decide) ?_
  refine .blanks (forall_mem_of_all (by decide)) ?_
  refine @Legible.comment _ " (\"one\" ['x']) ".toList _ (by decide +kernel) hcomment ?_
  refine .blanks (forall_mem_of_all (by decide)) ?_
  refine hordinary (.word "help") (by decide +kernel) (by decide) ?_
  refine hordinary (.mark '=' false) (by decide +kernel) (by decide) ?_
  exact @Legible.token (.literal (.text "(\\d)")) _ [] (by decide +kernel) (fun _ => ⟨hraw, by decide⟩) .nil

/-- Whether a text declares an argument with one keyword, which has a value, and yet no record is scraped. -/
structure Lost (source : List Char) (keyword : String) (value : Code.Literal) : Prop where
  declares : Declares source "page" (pageName.map leaf) [(keyword, .literal value)]
  value : ∃ v, evaluate (.literal value) = .ok v
  read : ∃ r, readDeclaration source = some r
  scrape : scrapeDeclarations (String.ofList (callOf source)) none = []

end ApiHandbook.Argument
