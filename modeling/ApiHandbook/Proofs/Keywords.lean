import ApiHandbook.Argument.Scrape
import ApiHandbook.Proofs.Entries

/-! The record of a declaration as its keyword arguments determine it: what the keywords with a documented name and a value
say of the fields, the last word on each of them. A keyword that names something unknown says nothing; one with any other
fault spoils the declaration, whatever its name. -/
namespace ApiHandbook.Argument
open Code

/-! The fields of a record -/

theorem keys_setField (field : Field) (value : String) (fields : List (Field × String)) :
    (setField field value fields).map Prod.fst =
      if (fields.map Prod.fst).contains field then fields.map Prod.fst else fields.map Prod.fst ++ [field] := by
  induction fields with
  | nil => rfl
  | cons entry fields ih =>
    obtain ⟨f, v⟩ := entry
    rw [setField]
    by_cases h : f = field
    · simp [h]
    · have hne : (field == f) = false := beq_eq_false_iff_ne.mpr (Ne.symm h)
      simp only [if_neg h, List.map_cons, ih, List.contains_cons, hne, Bool.false_or, List.cons_append]
      split <;> rfl

theorem mem_setField {field f : Field} {value v : String} {fields : List (Field × String)}
    (hnodup : (fields.map Prod.fst).Nodup) (h : (f, v) ∈ setField field value fields) :
    (f, v) = (field, value) ∨ f ≠ field ∧ (f, v) ∈ fields := by
  induction fields with
  | nil => exact .inl (List.mem_singleton.mp h)
  | cons entry fields ih =>
    obtain ⟨g, w⟩ := entry
    obtain ⟨hg, hfields⟩ := List.nodup_cons.mp hnodup
    rw [setField] at h
    split at h
    · rename_i hfield
      subst hfield
      refine (List.mem_cons.mp h).imp_right fun hmem => ⟨fun heq => ?_, List.mem_cons_of_mem _ hmem⟩
      have hkey : f ∈ fields.map Prod.fst := List.mem_map_of_mem hmem
      exact hg (heq ▸ hkey)
    · rename_i hfield
      rcases List.mem_cons.mp h with heq | hmem
      · obtain ⟨rfl, rfl⟩ := Prod.mk.inj heq
        exact .inr ⟨hfield, List.mem_cons_self⟩
      · exact (ih hfields hmem).imp_right fun hold => ⟨hold.1, List.mem_cons_of_mem _ hold.2⟩

/-- The fields after a list of settings. -/
def fieldsOf (settings : List (Field × String)) : List (Field × String) :=
  settings.foldl (fun fields (field, value) => setField field value fields) []

/-- Fields stand in the order in which they are first set. -/
theorem keys_fieldsOf (settings : List (Field × String)) :
    (fieldsOf settings).map Prod.fst = (settings.map Prod.fst).eraseDups := by
  have hfold (fields : List (Field × String)) :
      (settings.foldl (fun fields (field, value) => setField field value fields) fields).map Prod.fst =
        (settings.map Prod.fst).foldl (fun seen field => if seen.contains field then seen else seen ++ [field])
          (fields.map Prod.fst) := by
    induction settings generalizing fields with
    | nil => rfl
    | cons setting settings ih => rw [List.foldl_cons, ih, keys_setField, List.map_cons, List.foldl_cons]
  rw [fieldsOf, hfold, List.map_nil, foldl_missing]
  simp [List.removeAll]

theorem nodup_keys_fieldsOf (settings : List (Field × String)) : ((fieldsOf settings).map Prod.fst).Nodup :=
  keys_fieldsOf settings ▸ nodup_eraseDups _

/-- A field has the value that it was last set to. -/
theorem exists_last_of_mem_fieldsOf {settings : List (Field × String)} {field : Field} {value : String}
    (h : (field, value) ∈ fieldsOf settings) :
    ∃ before after, settings = before ++ (field, value) :: after ∧ ∀ later ∈ after, later.1 ≠ field := by
  induction settings using List.reverseRecOn with
  | nil => cases h
  | append_singleton settings setting ih =>
    have hconcat : fieldsOf (settings ++ [setting]) = setField setting.1 setting.2 (fieldsOf settings) := by
      simp [fieldsOf]
    rw [hconcat] at h
    rcases mem_setField (nodup_keys_fieldsOf settings) h with heq | ⟨hne, hold⟩
    · exact ⟨settings, [], by rw [heq], nofun⟩
    · obtain ⟨before, after, rfl, hafter⟩ := ih hold
      refine ⟨before, after ++ [setting], by simp, ?_⟩
      exact List.forall_mem_append.mpr ⟨hafter, List.forall_mem_singleton.mpr hne.symm⟩

theorem fieldsOf_eq_nil_iff {settings : List (Field × String)} : fieldsOf settings = [] ↔ settings = [] := by
  constructor
  · intro h
    cases settings with
    | nil => rfl
    | cons setting settings =>
      have hkeys := keys_fieldsOf (setting :: settings)
      rw [h, List.map_cons, List.eraseDups_cons] at hkeys
      cases hkeys
  · rintro rfl
    rfl

/-! Keyword arguments -/

/-- The field that a keyword argument sets, and its text: the name must be documented and the value known. -/
def setting? (keyword : String × Expr) : Option (Field × String) := do
  let field ← Field.ofKeyword? keyword.1
  let value ← (evaluate keyword.2).toOption
  return (field, fieldText field value)

/-- The names of the keywords that set a field. -/
def documentedNames : List String := ["location", "type", "ty", "kind", "required", "nullable", "default", "help"]

theorem ofKeyword?_eq_none_iff {keyword : String} : Field.ofKeyword? keyword = none ↔ keyword ∉ documentedNames := by
  simp [Field.ofKeyword?, documentedNames]
  grind

/-- Whether the value of a keyword argument has a fault other than a name that cannot be resolved. -/
def Spoils (keyword : String × Expr) : Prop :=
  ∃ fault, evaluate keyword.2 = .error fault ∧ ∀ name, fault ≠ .undefinedName name

/-- Whether a fault is other than a name that cannot be resolved. -/
def isSpoiling : Except Fault Value → Bool
  | .ok _ => false
  | .error (.undefinedName _) => false
  | .error _ => true

theorem spoils_iff {keyword : String × Expr} : Spoils keyword ↔ isSpoiling (evaluate keyword.2) = true := by
  rw [Spoils]
  cases evaluate keyword.2 with
  | ok value => exact ⟨nofun, nofun⟩
  | error fault =>
    have hfault : isSpoiling (.error fault) = true ↔ ∀ name, fault ≠ .undefinedName name := by
      cases fault <;> simp [isSpoiling]
    rw [hfault]
    exact ⟨fun ⟨_, heq, hother⟩ => Except.error.inj heq ▸ hother, fun hother => ⟨fault, rfl, hother⟩⟩

instance (keyword : String × Expr) : Decidable (Spoils keyword) := decidable_of_iff _ spoils_iff.symm

/-- Whether a keyword argument names something unknown, by its value or by its own name. -/
def Inert (keyword : String × Expr) : Prop :=
  (∃ name, evaluate keyword.2 = .error (.undefinedName name)) ∨ Field.ofKeyword? keyword.1 = none

theorem setting?_of_inert {keyword : String × Expr} (h : Inert keyword) : setting? keyword = none := by
  rcases h with ⟨name, hvalue⟩ | hkeyword
  · rw [setting?, hvalue]
    cases Field.ofKeyword? keyword.1 <;> rfl
  · rw [setting?, hkeyword]
    rfl

/-- What is looked at of a keyword argument: its name, and its value. The line that it stands on does not count. -/
def valued (keyword : String × Expr) : String × Except Fault Value := (keyword.1, evaluate keyword.2)

section Valued
variable {keywords keywords' : List (String × Expr)} (h : keywords'.map valued = keywords.map valued)
include h

theorem filterMap_setting?_congr : keywords'.filterMap setting? = keywords.filterMap setting? := by
  have hsetting : setting? = (fun k : String × Except Fault Value => do
      let field ← Field.ofKeyword? k.1
      let value ← k.2.toOption
      return (field, fieldText field value)) ∘ valued := rfl
  rw [hsetting, ← List.filterMap_map, h, List.filterMap_map]

theorem not_spoils_congr (hkeywords : ∀ k ∈ keywords, ¬ Spoils k) : ∀ k ∈ keywords', ¬ Spoils k := by
  intro k' hk' hspoils
  obtain ⟨k, hk, heq⟩ := List.mem_map.mp (h ▸ List.mem_map_of_mem (f := valued) hk')
  rw [spoils_iff, ← (Prod.mk.inj heq).2, ← spoils_iff] at hspoils
  exact hkeywords k hk hspoils

end Valued

theorem applyKeyword_of_spoils {keyword : String × Expr} (h : Spoils keyword) (r : Record) :
    applyKeyword r keyword = none := by
  obtain ⟨fault, hvalue, hfault⟩ := h
  rw [applyKeyword, hvalue]
  cases fault with
  | undefinedName name => exact absurd rfl (hfault name)
  | _ => rfl

theorem applyKeyword_of_not_spoils {keyword : String × Expr} (h : ¬ Spoils keyword) (name : String)
    (fields : List (Field × String)) : applyKeyword ⟨name, fields⟩ keyword =
      some ⟨name, (setting? keyword).toList.foldl (fun fields (field, value) => setField field value fields) fields⟩ := by
  rw [applyKeyword, setting?]
  cases hvalue : evaluate keyword.2 with
  | ok value =>
    cases Field.ofKeyword? keyword.1 with
    | none => rfl
    | some field => rfl
  | error fault =>
    have hname : ∃ unknown, fault = .undefinedName unknown := by
      by_contra hother
      exact h ⟨fault, hvalue, fun unknown heq => hother ⟨unknown, heq⟩⟩
    obtain ⟨unknown, rfl⟩ := hname
    cases Field.ofKeyword? keyword.1 <;> rfl

/-- Where no keyword spoils the declaration, its fields are those of the settings. -/
theorem foldlM_applyKeyword {keywords : List (String × Expr)} (h : ∀ k ∈ keywords, ¬ Spoils k) (name : String)
    (fields : List (Field × String)) : keywords.foldlM applyKeyword ⟨name, fields⟩ =
      some ⟨name, (keywords.filterMap setting?).foldl (fun fields (field, value) => setField field value fields) fields⟩ := by
  induction keywords generalizing fields with
  | nil => rfl
  | cons k keywords ih =>
    obtain ⟨hk, hkeywords⟩ := List.forall_mem_cons.mp h
    rw [List.foldlM_cons, applyKeyword_of_not_spoils hk, Option.bind_eq_bind, Option.bind_some, ih hkeywords,
      ← List.foldl_append]
    cases hsetting : setting? k with
    | none => rw [List.filterMap_cons_none hsetting]; rfl
    | some setting => rw [List.filterMap_cons_some hsetting]; rfl

theorem foldlM_applyKeyword_of_spoils {keywords : List (String × Expr)} (h : ∃ k ∈ keywords, Spoils k) (r : Record) :
    keywords.foldlM applyKeyword r = none := by
  obtain ⟨k, hk, hspoils⟩ := h
  obtain ⟨before, after, rfl⟩ := List.append_of_mem hk
  have hrest (r : Record) : (k :: after).foldlM applyKeyword r = none := by
    rw [List.foldlM_cons, applyKeyword_of_spoils hspoils]
    rfl
  rw [List.foldlM_append, funext hrest]
  cases before.foldlM applyKeyword r <;> rfl

/-! Declarations -/

/-- Whether a text declares an argument: its arguments can be read, and the first of them is a name. -/
structure Declares (source : List Char) (name : String) (positional : List Expr) (keywords : List (String × Expr)) :
    Prop where
  read : Arguments.ofText source = .ok ⟨positional, keywords⟩
  first : ∃ e ∈ positional.head?, evaluate e = .ok (.text name)
  name_ne : name ≠ ""

/-- Whether a record has the given name, and its fields are those of the settings. -/
structure Determined (name : String) (settings : List (Field × String)) (r : Record) : Prop where
  name_eq : r.name = name
  nodup : (r.fields.map Prod.fst).Nodup
  /-- Fields stand in the order in which they are first set. -/
  order : settings ≠ [] → r.fields.map Prod.fst = (settings.map Prod.fst).eraseDups
  /-- The last setting of a field counts. -/
  value : settings ≠ [] → ∀ field text, (field, text) ∈ r.fields →
    ∃ before after, settings = before ++ (field, text) :: after ∧ ∀ later ∈ after, later.1 ≠ field
  bare : settings = [] → r.fields = [(.required, "false"), (.nullable, "true")]

/-- Whether one list is another without some members that have a property. -/
inductive Without {α : Type} (p : α → Prop) : List α → List α → Prop where
  | nil : Without p [] []
  | keep {a : α} {as bs : List α} (h : Without p as bs) : Without p (a :: as) (a :: bs)
  | drop {a : α} {as bs : List α} (ha : p a) (h : Without p as bs) : Without p (a :: as) bs

theorem Without.filterMap_eq {α β : Type} {p : α → Prop} {f : α → Option β} (hp : ∀ a, p a → f a = none)
    {as bs : List α} (h : Without p as bs) : bs.filterMap f = as.filterMap f := by
  induction h with
  | nil => rfl
  | @keep a as bs h ih => rw [List.filterMap_cons, List.filterMap_cons, ih]
  | drop ha h ih => rw [ih, List.filterMap_cons_none (hp _ ha)]

theorem Without.forall_mem {α : Type} {p q : α → Prop} {as bs : List α} (h : Without p as bs) (hq : ∀ a ∈ as, q a) :
    ∀ b ∈ bs, q b := by
  induction h with
  | nil => exact nofun
  | keep h ih => exact List.forall_mem_cons.mpr ((List.forall_mem_cons.mp hq).imp_right ih)
  | drop ha h ih => exact ih (List.forall_mem_cons.mp hq).2

section Declarations
variable {source : List Char} {name : String} {positional : List Expr} {keywords : List (String × Expr)}

theorem readDeclaration_eq (h : Declares source name positional keywords) :
    readDeclaration source = (keywords.foldlM applyKeyword ⟨name, []⟩).map Record.withBareDefaults := by
  obtain ⟨e, he, hvalue⟩ := h.first
  obtain ⟨rest, rfl⟩ : ∃ rest, positional = e :: rest := List.head?_eq_some_iff.mp he
  have hname : declaredName? ⟨e :: rest, keywords⟩ = some name := by
    simp only [declaredName?, hvalue, if_neg h.name_ne]
  rw [readDeclaration, h.read]
  change (declaredName? ⟨e :: rest, keywords⟩).bind _ = _
  rw [hname, Option.bind_some, Option.map_eq_bind]
  rfl

theorem declares_of_readDeclaration {r : Record} (hread : Arguments.ofText source = .ok ⟨positional, keywords⟩)
    (h : readDeclaration source = some r) : ∃ name, Declares source name positional keywords := by
  rw [readDeclaration, hread] at h
  change (declaredName? ⟨positional, keywords⟩).bind _ = some r at h
  obtain ⟨name, hname, -⟩ := Option.bind_eq_some_iff.mp h
  cases positional with
  | nil => cases hname
  | cons first rest =>
    simp only [declaredName?] at hname
    split at hname
    · rename_i text hvalue
      obtain ⟨hne, -⟩ := Option.ite_none_left_eq_some.mp hname
      exact ⟨text, hread, ⟨first, rfl, hvalue⟩, hne⟩
    · cases hname

theorem readDeclaration_of_not_spoils (h : Declares source name positional keywords)
    (hkeywords : ∀ k ∈ keywords, ¬ Spoils k) :
    readDeclaration source = some (Record.withBareDefaults ⟨name, fieldsOf (keywords.filterMap setting?)⟩) := by
  rw [readDeclaration_eq h, foldlM_applyKeyword hkeywords]
  rfl

theorem readDeclaration_of_spoils (h : Declares source name positional keywords) (hkeywords : ∃ k ∈ keywords, Spoils k) :
    readDeclaration source = none := by
  rw [readDeclaration_eq h, foldlM_applyKeyword_of_spoils hkeywords]
  rfl

theorem determined_withBareDefaults (name : String) (settings : List (Field × String)) :
    Determined name settings (Record.withBareDefaults ⟨name, fieldsOf settings⟩) := by
  by_cases h : settings = []
  · subst h
    have hnodup : [Field.required, Field.nullable].Nodup := by decide
    exact ⟨rfl, hnodup, fun hne => absurd rfl hne, fun hne => absurd rfl hne, fun _ => rfl⟩
  · have hfields : (fieldsOf settings).isEmpty = false :=
      List.isEmpty_eq_false_iff.mpr fun heq => h (fieldsOf_eq_nil_iff.mp heq)
    rw [Record.withBareDefaults, if_neg (by simp [hfields])]
    exact {
      name_eq := rfl
      nodup := nodup_keys_fieldsOf settings
      order := fun _ => keys_fieldsOf settings
      value := fun _ _ _ => exists_last_of_mem_fieldsOf
      bare := fun heq => absurd heq h }

end Declarations

/-! Arguments of a text, taken apart -/

/-- An expression that is a literal or a path without arguments. -/
def leaf : Literal ⊕ Path → Expr
  | .inl value => .literal value
  | .inr p => .path false p []

def leaf? : Expr → Option (Literal ⊕ Path)
  | .literal value => some (.inl value)
  | .path false p [] => some (.inr p)
  | _ => none

theorem eq_leaf {e : Expr} {x : Literal ⊕ Path} (h : leaf? e = some x) : e = leaf x := by
  fun_cases leaf? e with
  | case1 value => cases h; rfl
  | case2 p => cases h; rfl
  | case3 e hliteral hpath => rw [leaf?.eq_3 e hliteral hpath] at h; cases h

/-- Where the images of two lists agree only for members that belong together, one list is made from the other. -/
theorem eq_map_of_map_eq {α β γ : Type} {f : α → γ} {h : β → γ} {g : β → α} (hg : ∀ a b, f a = h b → a = g b)
    {as : List α} {bs : List β} (heq : as.map f = bs.map h) : as = bs.map g := by
  induction as generalizing bs with
  | nil => rw [List.map_eq_nil_iff.mp heq.symm, List.map_nil]
  | cons a as ih =>
    obtain ⟨b, bs, rfl, hb, hbs⟩ := List.map_eq_cons_iff.mp heq.symm
    rw [hg a b hb.symm, ih hbs.symm, List.map_cons]

/-- The positional arguments and the keywords of a text, with the values that are literals or paths. -/
def parts? (source : List Char) : Option (List (Option (Literal ⊕ Path)) × List (String × Option (Literal ⊕ Path))) :=
  (Arguments.ofText source).toOption.map fun arguments =>
    (arguments.positional.map leaf?, arguments.keywords.map fun k => (k.1, leaf? k.2))

theorem exists_of_parts? {source : List Char} {positional : List (Literal ⊕ Path)}
    {keywords : List (String × Option (Literal ⊕ Path))} (h : parts? source = some (positional.map some, keywords)) :
    ∃ given, Arguments.ofText source = .ok ⟨positional.map leaf, given⟩ ∧
      given.map (fun k => (k.1, leaf? k.2)) = keywords := by
  rw [parts?] at h
  cases hread : Arguments.ofText source with
  | error fault => rw [hread] at h; cases h
  | ok arguments =>
    rw [hread] at h
    obtain ⟨hpositional, hkeywords⟩ := Prod.mk.inj (Option.some.inj h)
    have hfirst := eq_map_of_map_eq (fun e x => eq_leaf) hpositional
    exact ⟨arguments.keywords, by rw [← hfirst], hkeywords⟩

/-- Keywords whose values are literals or paths. -/
def named (keywords : List (String × (Literal ⊕ Path))) : List (String × Expr) := keywords.map fun k => (k.1, leaf k.2)

theorem ofText_of_parts? {source : List Char} {positional : List (Literal ⊕ Path)}
    {keywords : List (String × (Literal ⊕ Path))}
    (h : parts? source = some (positional.map some, keywords.map fun k => (k.1, some k.2))) :
    Arguments.ofText source = .ok ⟨positional.map leaf, named keywords⟩ := by
  obtain ⟨given, hread, hgiven⟩ := exists_of_parts? h
  have hnamed : given = named keywords := by
    refine eq_map_of_map_eq (fun k x hk => ?_) hgiven
    obtain ⟨hname, hvalue⟩ := Prod.mk.inj hk
    exact Prod.ext hname (eq_leaf hvalue)
  rw [hread, hnamed]

/-- A path that is a single name. -/
def word (name : String) : Literal ⊕ Path := .inr ⟨false, [⟨name, true⟩]⟩

def pageName : List (Literal ⊕ Path) := [.inl (.text "page")]

/-- A declaration that sets the type twice, by two names, and has two keywords that say nothing. -/
def pageText : List Char := "\"page\", kind = i64, check = rule, required = true, r#type = bool, extra = 1".toList

def pageKeywords : List (String × (Literal ⊕ Path)) :=
  [("kind", word "i64"), ("check", word "rule"), ("required", .inl (.boolean true)), ("type", word "bool"),
    ("extra", .inl (.integer 1 false))]

/-- The same declaration without the two keywords. -/
def keptText : List Char := "\"page\", kind = i64, required = true, r#type = bool".toList

def keptKeywords : List (String × (Literal ⊕ Path)) :=
  [("kind", word "i64"), ("required", .inl (.boolean true)), ("type", word "bool")]

theorem declares_pageText : Declares pageText "page" (pageName.map leaf) (named pageKeywords) :=
  ⟨ofText_of_parts? (by decide +kernel), ⟨_, rfl, rfl⟩, by decide⟩

section Declarations
variable {source source' : List Char} {positional positional' : List Expr}

end Declarations

/-- Whether a text is the declaration of a page with a keyword that has no documented name, and the keyword takes the record
away. -/
def LosesPage (source : List Char) : Prop :=
  ∃ positional value, Arguments.ofText "\"page\"".toList = .ok ⟨positional, []⟩ ∧
    Arguments.ofText source = .ok ⟨positional, [("check", value)]⟩ ∧ "check" ∉ documentedNames ∧
    readDeclaration "\"page\"".toList = some ⟨"page", [(.required, "false"), (.nullable, "true")]⟩ ∧
    readDeclaration source = none

end ApiHandbook.Argument
