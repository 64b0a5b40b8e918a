import ApiHandbook.Code.Source

/-! The names in a syntax tree, by what is said of each of them, and the words of a text, from which they come. A word is
an identifier, raw or not, so no dot stands in it. -/
namespace ApiHandbook.Code
open Text

/-! Names in trees -/

mutual

/-- Whether all words in a tree have a property. -/
def Tree.Named (p : String → Prop) : Tree → Prop
  | .word name _ => p name
  | .group _ inner _ _ => Tree.AllNamed p inner
  | _ => True

def Tree.AllNamed (p : String → Prop) : List Tree → Prop
  | [] => True
  | t :: rest => t.Named p ∧ Tree.AllNamed p rest

end

/-- Whether all names in a path have a property. -/
def Path.Named (p : String → Prop) (q : Path) : Prop := ∀ s ∈ q.segments, p s.name

mutual

/-- Whether all names by which functions are defined and referred to in an expression have a property. -/
def Expr.Named (p : String → Prop) : Expr → Prop
  | .literal _ => True
  | .path _ q inner => q.Named p ∧ Expr.AllNamed p inner
  | .negation operand => operand.Named p
  | .assignment target value => target.Named p ∧ value.Named p
  | .array items => Expr.AllNamed p items
  | .tuple items => Expr.AllNamed p items
  | .parenthesized inner => inner.Named p
  | .reference inner => inner.Named p
  | .call function arguments => function.Named p ∧ Expr.AllNamed p arguments
  | .methodCall receiver _ arguments => receiver.Named p ∧ Expr.AllNamed p arguments
  | .construction _ fields => Expr.AllNamed p fields
  | .vector _ items => Expr.AllNamed p items
  | .item i => i.Named p
  | .other inner => Expr.AllNamed p inner

def Expr.AllNamed (p : String → Prop) : List Expr → Prop
  | [] => True
  | e :: rest => e.Named p ∧ Expr.AllNamed p rest

/-- Whether all names by which functions are defined and referred to in an item have a property. -/
def Item.Named (p : String → Prop) : Item → Prop
  | .function heading body => p heading.name ∧ Expr.AllNamed p body
  | .method _ body => Expr.AllNamed p body
  | .struct _ inner => Expr.AllNamed p inner
  | .implementation _ _ inner members => Expr.AllNamed p inner ∧ Item.AllNamed p members
  | .module _ _ items => Item.AllNamed p items
  | .imports _ => True
  | .other inner => Expr.AllNamed p inner

def Item.AllNamed (p : String → Prop) : List Item → Prop
  | [] => True
  | i :: rest => i.Named p ∧ Item.AllNamed p rest

end

section Lists
variable {p : String → Prop}

theorem Tree.allNamed_iff {ts : List Tree} : Tree.AllNamed p ts ↔ ∀ t ∈ ts, t.Named p := by
  induction ts with
  | nil => simp [Tree.AllNamed]
  | cons t ts ih => rw [Tree.AllNamed, ih, List.forall_mem_cons]

theorem Expr.allNamed_iff {es : List Expr} : Expr.AllNamed p es ↔ ∀ e ∈ es, e.Named p := by
  induction es with
  | nil => simp [Expr.AllNamed]
  | cons e es ih => rw [Expr.AllNamed, ih, List.forall_mem_cons]

theorem Item.allNamed_iff {is : List Item} : Item.AllNamed p is ↔ ∀ i ∈ is, i.Named p := by
  induction is with
  | nil => simp [Item.AllNamed]
  | cons i is ih => rw [Item.AllNamed, ih, List.forall_mem_cons]

end Lists

/-! Words of a text -/

/-- What the text of a word can be. -/
def IsWord (name : String) : Prop := ∃ s rest, Lexical.word? s = some (name, rest)

theorem dot_notMem_of_identifier? {s name rest : List Char} (h : identifier? s = some (name, rest)) : '.' ∉ name := by
  cases s with
  | nil => cases h
  | cons c s =>
    rw [identifier?] at h
    split at h
    · rename_i hstart
      obtain ⟨rfl, -⟩ := Prod.mk.inj (Option.some.inj h)
      rw [List.mem_cons, not_or]
      refine ⟨fun heq => absurd (heq ▸ hstart) (by decide), fun hmem => ?_⟩
      exact absurd (List.all_eq_true.mp List.all_takeWhile '.' hmem) (by decide)
    · cases h

theorem IsWord.dot_notMem {name : String} (h : IsWord name) : '.' ∉ name.toList := by
  obtain ⟨s, rest, h⟩ := h
  rw [Lexical.word?] at h
  split at h
  · obtain ⟨⟨letters, after⟩, hletters, hname⟩ := Option.bind_eq_some_iff.mp h
    simp only [Option.ite_none_left_eq_some, Option.some_inj, Prod.mk.injEq] at hname
    obtain ⟨-, rfl, -⟩ := hname
    simpa using dot_notMem_of_identifier? hletters
  · obtain ⟨⟨letters, after⟩, hletters, hname⟩ := Option.map_eq_some_iff.mp h
    obtain ⟨rfl, -⟩ := Prod.mk.inj hname
    simpa using dot_notMem_of_identifier? hletters

namespace Lexical

/-- Whether a token that is a word has the text of a word. -/
def Worded (token : Token) : Prop := ∀ name, token = .word name → IsWord name

theorem worded_of_mark? {s rest : List Char} {token : Token} (h : mark? s = some (token, rest)) : Worded token := by
  rintro name rfl
  cases s with
  | nil => cases h
  | cons c s =>
    rw [mark?] at h
    split at h
    · cases h
    · split at h
      · obtain ⟨⟨letters, after⟩, -, hmark⟩ := Option.bind_eq_some_iff.mp h
        simp at hmark
      · cases h

theorem worded_of_leaf? {s rest : List Char} {token : Token} (h : leaf? s = some (token, rest)) : Worded token := by
  rintro name rfl
  rw [leaf?] at h
  split at h
  · cases h
  · split at h
    · rename_i hmark
      exact worded_of_mark? (hmark.trans h) name rfl
    · split at h
      · cases h
      · obtain ⟨⟨word, after⟩, hword, heq⟩ := Option.map_eq_some_iff.mp h
        obtain ⟨⟨⟩, -⟩ := Prod.mk.inj heq
        exact ⟨s, after, hword⟩

theorem worded_of_delimiter? {c : Char} {token : Token} (h : delimiter? c = some token) : Worded token := by
  rintro name rfl
  revert h
  fun_cases delimiter? c <;> exact nofun

theorem worded_of_token? {s rest : List Char} {token : Token} (h : token? s = some (token, rest)) : Worded token := by
  cases s with
  | nil => cases h
  | cons c s =>
    rw [token?] at h
    split at h
    · obtain ⟨rfl, -⟩ := Prod.mk.inj (Option.some.inj h)
      exact nofun
    · split at h
      · rename_i hdelimiter
        obtain ⟨rfl, -⟩ := Prod.mk.inj (Option.some.inj h)
        exact worded_of_delimiter? hdelimiter
      · exact worded_of_leaf? h

theorem worded_of_mem_docTokens {inner : Bool} {content : List Char} {token : Token}
    (h : token ∈ docTokens inner content) : Worded token := by
  rintro name rfl
  have hname : name = "doc" := by
    cases inner <;> simpa [docTokens] using h
  exact hname ▸ ⟨"doc".toList, [], by decide⟩

/-- The words among the tokens of a text are words of it. -/
theorem worded_of_mem_tokensFrom {fuel line : Nat} {s : List Char} {tokens : List Located}
    (h : tokensFrom fuel line s = some tokens) : ∀ t ∈ tokens, Worded t.token := by
  induction fuel generalizing line s tokens with
  | zero => cases h
  | succ fuel ih =>
    rw [tokensFrom] at h
    split at h
    · obtain rfl := Option.some.inj h
      exact nofun
    · split at h
      · obtain ⟨more, hmore, rfl⟩ := Option.map_eq_some_iff.mp h
        intro t ht
        rcases List.mem_append.mp ht with hdoc | ht
        · obtain ⟨token, htoken, rfl⟩ := List.mem_map.mp hdoc
          exact worded_of_mem_docTokens htoken
        · exact ih hmore t ht
      · obtain ⟨⟨token, rest⟩, htoken, htokens⟩ := Option.bind_eq_some_iff.mp h
        obtain ⟨more, hmore, rfl⟩ := Option.map_eq_some_iff.mp htokens
        intro t ht
        rcases List.mem_cons.mp ht with rfl | ht
        · exact worded_of_token? htoken
        · exact ih hmore t ht

end Lexical

theorem Tree.allNamed_of_gather {tokens : List Located} (htokens : ∀ t ∈ tokens, Lexical.Worded t.token)
    {opened : List Tree.Opening} {done ts : List Tree} (h : Tree.gather opened done tokens = some ts)
    (hopened : ∀ o ∈ opened, ∀ t ∈ o.before, t.Named IsWord) (hdone : ∀ t ∈ done, t.Named IsWord) :
    ∀ t ∈ ts, t.Named IsWord := by
  induction tokens generalizing opened done with
  | nil =>
    rw [Tree.gather] at h
    split at h
    · obtain rfl := Option.some.inj h
      simpa using hdone
    · cases h
  | cons located tokens ih =>
    obtain ⟨token, first, last⟩ := located
    have hrest := fun t ht => htokens t (List.mem_cons_of_mem _ ht)
    have htoken : Lexical.Worded token := htokens _ List.mem_cons_self
    cases token with
    | opening delimiter =>
      rw [Tree.gather] at h
      exact ih hrest h (List.forall_mem_cons.mpr ⟨hdone, hopened⟩) nofun
    | closing delimiter =>
      cases opened with
      | nil => cases h
      | cons o opened =>
        rw [Tree.gather] at h
        split at h
        · obtain ⟨hbefore, houter⟩ := List.forall_mem_cons.mp hopened
          refine ih hrest h houter (List.forall_mem_cons.mpr ⟨?_, hbefore⟩)
          rw [Tree.Named, Tree.allNamed_iff]
          simpa using hdone
        · cases h
    | word name =>
      rw [Tree.gather] at h
      refine ih hrest h hopened (List.forall_mem_cons.mpr ⟨?_, hdone⟩)
      exact htoken name rfl
    | mark c joint =>
      rw [Tree.gather] at h
      exact ih hrest h hopened (List.forall_mem_cons.mpr ⟨trivial, hdone⟩)
    | literal value =>
      rw [Tree.gather] at h
      exact ih hrest h hopened (List.forall_mem_cons.mpr ⟨trivial, hdone⟩)

/-- The words in the trees of a text are words of it. -/
theorem Tree.allNamed_of_ofText? {s : List Char} {ts : List Tree} (h : Tree.ofText? s = some ts) :
    Tree.AllNamed IsWord ts := by
  obtain ⟨tokens, htokens, hgather⟩ := Option.bind_eq_some_iff.mp h
  exact Tree.allNamed_iff.mpr
    (Tree.allNamed_of_gather (Lexical.worded_of_mem_tokensFrom htokens) hgather nofun nofun)

end ApiHandbook.Code
