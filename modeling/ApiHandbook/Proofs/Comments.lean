import ApiHandbook.Project.Source
import ApiHandbook.Proofs.Lines
import ApiHandbook.Proofs.Naming.Item
import Mathlib

/-! The lines of a text, written as documentation comments in front of a function, are read back from the function's
attributes: the comments are tokens, the tokens are trees, the trees are attributes, and their values give the text. -/
namespace ApiHandbook.Code
open Text

/-- Lines as documentation comments behind an indentation. -/
def commentsOf (indent : List Char) (lines : List (List Char)) : List Char :=
  lines.flatMap fun line => indent ++ ['/', '/', '/', ' '] ++ line ++ ['\n']

/-! Tokens -/

namespace Lexical

/-- The tokens of the comments that hold the given lines, the first of which stands on the given line. -/
def lineTokens (first : Nat) : List (List Char) → List Located
  | [] => []
  | line :: rest => (docTokens false (' ' :: line)).map (⟨·, first, first⟩) ++ lineTokens (first + 1) rest

theorem restOfLine_append {content : List Char} (h : ∀ c ∈ content, c ≠ '\n' ∧ c ≠ '\r') (rest : List Char) :
    restOfLine (content ++ '\n' :: rest) = (content, '\n' :: rest) := by
  induction content with
  | nil => rfl
  | cons c content ih =>
    obtain ⟨⟨hbreak, hreturn⟩, hcontent⟩ := List.forall_mem_cons.mp h
    have hcons : restOfLine (c :: (content ++ '\n' :: rest)) =
        (c :: (restOfLine (content ++ '\n' :: rest)).1, (restOfLine (content ++ '\n' :: rest)).2) :=
      restOfLine.eq_4 c _ hbreak fun _ hc _ => hreturn hc
    rw [List.cons_append, hcons, ih hcontent]

theorem hasLoneReturn_eq_false {content : List Char} (h : '\r' ∉ content) : hasLoneReturn content = false := by
  induction content with
  | nil => rfl
  | cons c content ih =>
    obtain ⟨hne, hmem⟩ := List.ne_and_not_mem_of_not_mem_cons h
    rw [hasLoneReturn.eq_3 c content hne.symm, ih hmem]

theorem comment?_eq_none {c : Char} (h : c ≠ '/') (s : List Char) : comment? (c :: s) = none := by
  rw [comment?]
  all_goals exact fun _ hs => h (List.cons.inj hs).1

/-- Blanks in front of a documentation comment are passed over. -/
theorem skipSeparators_doc {blanks : List Char} (hblanks : ∀ c ∈ blanks, isBlank c) (s : List Char) {fuel : Nat}
    (hfuel : blanks.length ≤ fuel) (line : Nat) :
    skipSeparators fuel line (blanks ++ '/' :: '/' :: '/' :: ' ' :: s) =
      (line + lineBreaks blanks, '/' :: '/' :: '/' :: ' ' :: s) := by
  induction blanks generalizing fuel line with
  | nil => cases fuel <;> rfl
  | cons c blanks ih =>
    obtain ⟨hc, hblanks⟩ := List.forall_mem_cons.mp hblanks
    obtain ⟨fuel, rfl⟩ := Nat.exists_eq_add_one.mpr (Nat.lt_of_lt_of_le (Nat.succ_pos blanks.length) hfuel)
    have hne : c ≠ '/' := by
      rintro rfl
      exact absurd hc (by decide)
    have hseparator : isSeparator c = true := by simp [isSeparator, hc]
    rw [List.cons_append, skipSeparators, comment?_eq_none hne]
    dsimp only
    rw [if_pos hseparator, ih hblanks (Nat.le_of_succ_le_succ hfuel)]
    by_cases hbreak : c = '\n'
    · subst hbreak
      simp [lineBreaks]
      omega
    · simp [lineBreaks, hbreak]

theorem docComment?_line {line : List Char} (h : ∀ c ∈ line, c ≠ '\n' ∧ c ≠ '\r') (s : List Char) :
    docComment? ('/' :: '/' :: '/' :: ' ' :: (line ++ '\n' :: s)) = some (false, ' ' :: line, '\n' :: s) := by
  have hcontent : ∀ c ∈ ' ' :: line, c ≠ '\n' ∧ c ≠ '\r' := List.forall_mem_cons.mpr ⟨by decide, h⟩
  have hreturn : hasLoneReturn (' ' :: line) = false := hasLoneReturn_eq_false fun hmem => (hcontent _ hmem).2 rfl
  have hread : restOfLine (' ' :: (line ++ '\n' :: s)) = (' ' :: line, '\n' :: s) := restOfLine_append hcontent s
  have hdoc : isLineDoc ('/' :: '/' :: '/' :: ' ' :: (line ++ '\n' :: s)) = true := rfl
  rw [docComment?]
  dsimp only
  rw [if_pos hdoc, hread]
  simp [hreturn]

/-- The tokens of a text that starts with comments are those of their lines, and further ones. -/
theorem lineTokens_prefix_of_tokensFrom {indent : List Char} (hindent : ∀ c ∈ indent, isBlank c ∧ c ≠ '\n')
    {lines : List (List Char)} (hlines : ∀ line ∈ lines, ∀ c ∈ line, c ≠ '\n' ∧ c ≠ '\r') {blanks : List Char}
    (hblanks : ∀ c ∈ blanks, isBlank c) {s : List Char} {fuel first : Nat} (hfuel : (blanks ++ (commentsOf indent lines ++ s)).length < fuel)
    {tokens : List Located} (h : tokensFrom fuel first (blanks ++ (commentsOf indent lines ++ s)) = some tokens) :
    lineTokens (first + lineBreaks blanks) lines <+: tokens := by
  induction lines generalizing blanks fuel first tokens with
  | nil => exact List.nil_prefix
  | cons line lines ih =>
    obtain ⟨hline, hlines⟩ := List.forall_mem_cons.mp hlines
    obtain ⟨fuel, rfl⟩ := Nat.exists_eq_add_one.mpr (Nat.zero_lt_of_lt hfuel)
    -- The indentation belongs to the blanks in front of the comment, the line break to those in front of the next one.
    have htext : blanks ++ (commentsOf indent (line :: lines) ++ s) =
        (blanks ++ indent) ++ '/' :: '/' :: '/' :: ' ' :: (line ++ '\n' :: (commentsOf indent lines ++ s)) := by
      simp [commentsOf]
    have hskipped : ∀ c ∈ blanks ++ indent, isBlank c :=
      List.forall_mem_append.mpr ⟨hblanks, fun c hc => (hindent c hc).1⟩
    have hbreaks : lineBreaks (blanks ++ indent) = lineBreaks blanks := by
      rw [lineBreaks, List.count_append, List.count_eq_zero.mpr fun hmem => (hindent _ hmem).2 rfl]
      rfl
    have hcontent : lineBreaks (' ' :: line) = 0 :=
      List.count_eq_zero.mpr fun hmem => (hline _ ((List.mem_cons.mp hmem).resolve_left (by decide))).1 rfl
    rw [htext] at h hfuel
    simp only [List.length_append, List.length_cons] at hfuel
    have hlength : (blanks ++ indent).length ≤ fuel := by
      rw [List.length_append]
      omega
    rw [tokensFrom, skipSeparators_doc hskipped _ hlength, hbreaks] at h
    dsimp only at h
    rw [docComment?_line hline] at h
    dsimp only at h
    rw [hcontent] at h
    obtain ⟨more, hmore, rfl⟩ := Option.map_eq_some_iff.mp h
    have hrest : lineTokens (first + lineBreaks blanks + 1) lines <+: more := by
      refine ih hlines (List.forall_mem_singleton.mpr rfl) ?_ hmore
      simp only [List.length_append, List.length_cons, List.length_nil]
      omega
    rw [lineTokens, Nat.add_zero]
    exact (List.prefix_append_right_inj _).mpr hrest

end Lexical

/-! Trees -/

namespace Tree

/-- The trees outside all groups, last first, when `done` are those of the innermost open group. -/
def outermost (done : List Tree) : List Opening → List Tree
  | [] => done
  | o :: opened => outermost o.before opened

theorem outermost_suffix (done : List Tree) (t : Tree) (opened : List Opening) :
    outermost done opened <:+ outermost (t :: done) opened := by
  cases opened with
  | nil => exact List.suffix_cons t done
  | cons o opened => exact List.suffix_rfl

/-- What has been gathered outside all groups stays in front. -/
theorem outermost_prefix_of_gather {tokens : List Located} {opened : List Opening} {done ts : List Tree}
    (h : gather opened done tokens = some ts) : (outermost done opened).reverse <+: ts := by
  have grow {t : Tree} {opened : List Opening} {done : List Tree} (h : (outermost (t :: done) opened).reverse <+: ts) :
      (outermost done opened).reverse <+: ts :=
    (List.reverse_prefix.mpr (outermost_suffix done t opened)).trans h
  induction tokens generalizing opened done with
  | nil =>
    cases opened with
    | nil => exact Option.some.inj h ▸ List.prefix_rfl
    | cons o opened => cases h
  | cons token tokens ih =>
    obtain ⟨token, first, last⟩ := token
    cases token with
    | opening delimiter =>
      have hopened : (outermost [] (⟨delimiter, first, done⟩ :: opened)).reverse <+: ts := ih h
      exact hopened
    | closing delimiter =>
      cases opened with
      | nil => cases h
      | cons o opened =>
        rw [gather] at h
        split at h
        · change (outermost o.before opened).reverse <+: ts
          exact grow (ih h)
        · cases h
    | word name => exact grow (ih h)
    | mark c joint => exact grow (ih h)
    | literal value => exact grow (ih h)

/-- The trees of the comments that hold the given lines, the first of which stands on the given line. -/
def lineTrees (first : Nat) : List (List Char) → List Tree
  | [] => []
  | line :: rest =>
    .mark '#' false first ::
      .group .bracket
        [.word "doc" first, .mark '=' false first, .literal (.text (String.ofList (' ' :: line))) first first]
        first first ::
      lineTrees (first + 1) rest

theorem length_lineTrees (first : Nat) (lines : List (List Char)) :
    (lineTrees first lines).length = 2 * lines.length := by
  induction lines generalizing first with
  | nil => rfl
  | cons line lines ih =>
    rw [lineTrees, List.length_cons, List.length_cons, ih, List.length_cons]
    omega

theorem gather_lineTokens (lines : List (List Char)) (first : Nat) (done : List Tree) (tokens : List Located) :
    gather [] done (Lexical.lineTokens first lines ++ tokens) =
      gather [] ((lineTrees first lines).reverse ++ done) tokens := by
  induction lines generalizing first done with
  | nil => rfl
  | cons line lines ih =>
    change gather [] (.group .bracket _ first first :: .mark '#' false first :: done)
      (Lexical.lineTokens (first + 1) lines ++ tokens) = _
    rw [ih, lineTrees]
    simp

end Tree

/-- The trees of a part of a text that stands on the given line and behind it. -/
def treesFrom? (first : Nat) (s : List Char) : Option (List Tree) :=
  (Lexical.tokensFrom (s.length + 1) first s).bind (Tree.gather [] [])

/-- The trees of a text that starts with comments are those of their lines, and further ones. -/
theorem lineTrees_prefix_of_treesFrom? {indent : List Char} (hindent : ∀ c ∈ indent, isBlank c ∧ c ≠ '\n')
    {lines : List (List Char)} (hlines : ∀ line ∈ lines, ∀ c ∈ line, c ≠ '\n' ∧ c ≠ '\r') {s : List Char} {first : Nat}
    {ts : List Tree} (h : treesFrom? first (commentsOf indent lines ++ s) = some ts) : Tree.lineTrees first lines <+: ts := by
  obtain ⟨tokens, htokens, hts⟩ := Option.bind_eq_some_iff.mp h
  obtain ⟨more, rfl⟩ :=
    Lexical.lineTokens_prefix_of_tokensFrom hindent hlines (List.forall_mem_nil _) (Nat.lt_succ_self _) htokens
  rw [show first + Lexical.lineBreaks [] = first from rfl, Tree.gather_lineTokens, List.append_nil] at hts
  have hprefix := Tree.outermost_prefix_of_gather hts
  rwa [Tree.outermost, List.reverse_reverse] at hprefix

/-! Attributes -/

/-- The attribute that the comment of a line abbreviates. -/
def lineAttribute (line : List Char) : Attribute :=
  ⟨⟨false, [⟨"doc", true⟩]⟩, .text (String.ofList (' ' :: line))⟩

theorem outerAttributes_lineTrees (g : Grammar) (lines : List (List Char)) (first fuel : Nat) (ts : List Tree)
    (found : List Expr) :
    outerAttributes.go g (lines.length + fuel) ⟨Tree.lineTrees first lines ++ ts, found⟩ =
      (outerAttributes.go g fuel ⟨ts, found⟩).map fun (attributes, s) => (lines.map lineAttribute ++ attributes, s) := by
  induction lines generalizing first with
  | nil => simp [Tree.lineTrees]
  | cons line lines ih =>
    rw [List.length_cons, Nat.add_right_comm]
    have hstep : outerAttributes.go g (lines.length + fuel + 1) ⟨Tree.lineTrees first (line :: lines) ++ ts, found⟩ =
        (outerAttributes.go g (lines.length + fuel) ⟨Tree.lineTrees (first + 1) lines ++ ts, found⟩).bind
          fun x => some (lineAttribute line :: x.1, x.2) := rfl
    rw [hstep, ih]
    cases outerAttributes.go g fuel ⟨ts, found⟩ <;> rfl

/-- Whether all values of a reader are of a kind, wherever it reads. -/
def Reader.Makes {α : Type} (r : Reader α) (Q : α → Prop) : Prop := ∀ s a s', r s = some (a, s') → Q a

namespace Reader.Makes
variable {α β : Type} {P : α → Prop} {Q : β → Prop}

theorem pure {b : β} (h : Q b) : Makes (Pure.pure b) Q := by
  rintro s a s' hrun
  obtain ⟨rfl, -⟩ := Prod.mk.inj (Option.some.inj hrun)
  exact h

theorem bind {r : Reader α} {f : α → Reader β} (hr : r.Makes P) (hf : ∀ a, P a → (f a).Makes Q) : (r >>= f).Makes Q := by
  rintro s b s' hrun
  obtain ⟨⟨a, t⟩, ha, hb⟩ := Option.bind_eq_some_iff.mp hrun
  exact hf a (hr s a t ha) t b s' hb

/-- The kind of a value that is not looked at does not matter. -/
theorem after {r : Reader α} {f : α → Reader β} (hf : ∀ a, (f a).Makes Q) : (r >>= f).Makes Q :=
  bind (fun _ _ _ _ => trivial) fun a _ => hf a

theorem ite {c : Prop} [Decidable c] {r r' : Reader β} (h : r.Makes Q) (h' : r'.Makes Q) :
    (if c then r else r').Makes Q := by
  split
  · exact h
  · exact h'

end Reader.Makes

/-- Whether an item, if it is a function, has some attributes first. -/
def Item.StartsWith (attributes : List Attribute) : Item → Prop
  | .function h _ => attributes <+: h.attributes
  | _ => True

section
open Reader (Makes)
variable (g : Grammar) (attributes : List Attribute)

theorem functionItem_makes (x : Preamble) : Makes (functionItem g x .function) (Item.StartsWith x.attributes) := by
  refine .after fun (read, inner) => ?_
  cases read with
  | none => exact .pure trivial
  | some found =>
    have hheading : Makes (heading x found.1 found.2) fun h => x.attributes <+: h.attributes :=
      .after fun _ => .pure (List.prefix_append _ _)
    exact .bind hheading fun _ h => .pure h

theorem structItem_makes (x : Preamble) : Makes (structItem g x) (Item.StartsWith attributes) :=
  .after fun _ => .after fun _ => .pure trivial

theorem staticItem_makes : Makes (staticItem g) (Item.StartsWith attributes) := by
  refine .after fun _ => .after fun _ => .after fun _ => .after fun _ => .after fun _ => .ite ?_ ?_
  · exact .after fun _ => .after fun _ => .pure trivial
  · exact .after fun _ => .after fun _ => .after fun _ => .pure trivial

theorem constantRest_makes (valueless : Bool) : Makes (constantRest g valueless) (Item.StartsWith attributes) := by
  refine .after fun _ => .after fun _ => .after fun _ => .after fun _ => .after fun _ => .after fun _ => ?_
  exact .after fun _ => .after fun _ => .after fun _ => .pure trivial

theorem importItem_makes : Makes importItem (Item.StartsWith attributes) := by
  refine .after fun _ => .after fun _ => .after fun _ => .after fun _ => .after fun roots => .after fun _ => ?_
  cases roots <;> exact .pure trivial

theorem implementation_makes (x : Preamble) : Makes (implementation g x) (Item.StartsWith attributes) := by
  refine .after fun (subject, inner) => .after fun (members, more) => ?_
  cases subject <;> exact .pure trivial

theorem moduleItem_makes : Makes (moduleItem g) (Item.StartsWith attributes) := by
  refine .after fun _ => .after fun _ => .after fun _ => .after fun _ => .ite (.after fun _ => ?_) (.after fun _ => ?_)
  all_goals exact .after fun _ => .ite (.pure trivial) (.after fun _ => .pure trivial)

/-- A function has the attributes in front of it, and those of its body behind them. -/
theorem itemRest_makes (x : Preamble) : Makes (itemRest g x) (Item.StartsWith x.attributes) := by
  have other (reader : Reader Unit) :
      Makes (do return Item.other (x.inner ++ (← parts reader))) (Item.StartsWith x.attributes) :=
    .after fun _ => .pure trivial
  refine .after fun _ => .after fun _ => ?_
  dsimp only
  refine .ite (functionItem_makes g x) (.ite (.ite (other _) (other _)) (.ite (importItem_makes _) ?_))
  refine .ite (staticItem_makes g _) (.ite (.after fun _ => .after fun _ => constantRest_makes g _ _) ?_)
  refine .ite (.ite (other _) (.ite (implementation_makes g _ x) (.ite (other _) (moduleItem_makes g _)))) ?_
  refine .ite (moduleItem_makes g _) (.ite (other _) (.ite (structItem_makes g _ x) (.ite (other _) ?_)))
  refine .ite (other _) (.ite (other _) (.ite (implementation_makes g _ x) (.ite (.after fun _ => .pure trivial) ?_)))
  exact .after fun _ => .after fun _ => .pure trivial

end

theorem outerAttributes_of_preamble {g : Grammar} {s s' : Reading} {x : Preamble} (h : preamble g s = some (x, s')) :
    ∃ t, outerAttributes g { s with found := [] } = some (x.attributes, t) := by
  obtain ⟨⟨⟨attributes, inner⟩, after⟩, hcollect, hx⟩ := Option.bind_eq_some_iff.mp h
  obtain ⟨rfl, -⟩ := Prod.mk.inj (Option.some.inj hx)
  obtain ⟨⟨read, t⟩, hread, hvalue⟩ := Option.bind_eq_some_iff.mp hcollect
  obtain ⟨hread', -⟩ := Prod.mk.inj (Option.some.inj hvalue)
  obtain ⟨rfl, -⟩ := Prod.mk.inj hread'
  exact ⟨t, hread⟩

theorem prefix_of_outerAttributes {g : Grammar} {lines : List (List Char)} {first : Nat} {ts : List Tree}
    {found : List Expr} {attributes : List Attribute} {s : Reading}
    (h : outerAttributes g ⟨Tree.lineTrees first lines ++ ts, found⟩ = some (attributes, s)) :
    lines.map lineAttribute <+: attributes := by
  have hfuel : (Tree.lineTrees first lines ++ ts).length + 1 =
      lines.length + ((Tree.lineTrees first lines ++ ts).length + 1 - lines.length) := by
    have := Tree.length_lineTrees first lines
    rw [List.length_append]
    omega
  change outerAttributes.go g ((Tree.lineTrees first lines ++ ts).length + 1) _ = _ at h
  rw [hfuel, outerAttributes_lineTrees] at h
  obtain ⟨⟨later, t⟩, -, hlater⟩ := Option.map_eq_some_iff.mp h
  exact ⟨later, (Prod.mk.inj hlater).1⟩

/-- A function read from trees that start with the comments of some lines has these as its first attributes. -/
theorem startsWith_of_item {g : Grammar} {lines : List (List Char)} {first : Nat} {ts : List Tree} {i : Item}
    (h : (item g).whole? (Tree.lineTrees first lines ++ ts) = some i) : i.StartsWith (lines.map lineAttribute) := by
  rw [Reader.whole?] at h
  split at h
  · rename_i value s hrun
    split at h
    · obtain rfl := Option.some.inj h
      obtain ⟨⟨x, t⟩, hx, hi⟩ := Option.bind_eq_some_iff.mp hrun
      obtain ⟨t', hattributes⟩ := outerAttributes_of_preamble hx
      have hx := prefix_of_outerAttributes hattributes
      have hvalue := itemRest_makes g x t value s hi
      cases value with
      | function h body => exact hx.trans hvalue
      | _ => trivial
    · cases h
  · cases h

/-- A function in a text, behind comments that hold the lines of `doc` and are all the documentation that it has. -/
structure Commented (s doc : List Char) (h : Heading) where
  ahead : List Char
  indent : List Char
  /-- What belongs to the function behind the comments. -/
  own : List Char
  behind : List Char
  text_eq : s = ahead ++ (commentsOf indent (doc.splitOn '\n') ++ own) ++ behind
  indent_blank : ∀ c ∈ indent, isBlank c ∧ c ≠ '\n'
  /-- The function as it reads from the comments on. -/
  read : Heading
  body : List Expr
  depth : Nat
  item_eq : (treesFrom? (1 + Lexical.lineBreaks ahead) (commentsOf indent (doc.splitOn '\n') ++ own)).bind
    (item (grammar depth)).whole? = some (.function read body)
  /-- The attributes in front of the comments. -/
  earlier : List Attribute
  first : Nat
  heading_eq : h = { read with attributes := earlier ++ read.attributes, first := first }
  only : Project.docComment? (earlier ++ read.attributes.drop (doc.splitOn '\n').length) = none

end ApiHandbook.Code

namespace ApiHandbook.Project
open Code Text

/-- The text that an attribute documents. -/
def docText? (a : Attribute) : Option (List Char) :=
  match a.value with
  | .text value => if a.path.word? = some "doc" then some value.toList else none
  | _ => none

theorem docComment?_eq (attributes : List Attribute) :
    docComment? attributes =
      let docLines := (attributes.filterMap docText?).map fun line => if line.head? = some ' ' then line.drop 1 else line
      if docLines.isEmpty then none else some (String.ofList (joinLines docLines)) := rfl

theorem filterMap_docText?_lineAttribute (lines : List (List Char)) :
    (lines.map lineAttribute).filterMap docText? = lines.map (' ' :: ·) := by
  rw [List.filterMap_map, ← List.filterMap_eq_map]
  exact List.filterMap_congr fun line _ => congrArg some String.toList_ofList

/-- Attributes without documentation around the comments of some lines do not change what the lines say. -/
theorem docComment?_append {lines : List (List Char)} (hlines : lines ≠ []) {before after : List Attribute}
    (h : docComment? (before ++ after) = none) :
    docComment? (before ++ (lines.map lineAttribute ++ after)) = some (String.ofList (joinLines lines)) := by
  have hnone : before.filterMap docText? = [] ∧ after.filterMap docText? = [] := by
    rw [docComment?_eq, List.filterMap_append] at h
    simpa using h
  rw [docComment?_eq, List.filterMap_append, List.filterMap_append, hnone.1, hnone.2, filterMap_docText?_lineAttribute,
    List.nil_append, List.append_nil, List.map_map]
  simp [Function.comp_def, hlines]

/-- The comments in front of a function give back the text that was written as comments. -/
theorem docComment?_of_commented {s doc : List Char} {h : Heading} (hdoc : '\r' ∉ doc) (c : Commented s doc h) :
    docComment? h.attributes = some (String.ofList doc) := by
  have hjoin : joinLines (doc.splitOn '\n') = doc := List.intercalate_splitOn '\n'
  have hlines : ∀ line ∈ doc.splitOn '\n', ∀ c ∈ line, c ≠ '\n' ∧ c ≠ '\r' := by
    refine fun line hline c hc => ⟨?_, ?_⟩
    · rintro rfl
      exact notMem_of_mem_splitOn hline hc
    · rintro rfl
      exact hdoc (hjoin ▸ (infix_joinLines hline).subset hc)
  obtain ⟨ts, hts, hitem⟩ := Option.bind_eq_some_iff.mp c.item_eq
  obtain ⟨later, rfl⟩ := lineTrees_prefix_of_treesFrom? c.indent_blank hlines hts
  obtain ⟨more, hmore⟩ := startsWith_of_item hitem
  have honly := c.only
  rw [← hmore, List.drop_left' (List.length_map ..)] at honly
  rw [c.heading_eq, ← hmore, docComment?_append (List.splitOn_ne_nil _ _) honly, hjoin]

end ApiHandbook.Project
