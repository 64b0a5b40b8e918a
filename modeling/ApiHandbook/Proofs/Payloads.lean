import ApiHandbook.Payload
import ApiHandbook.Proofs.Aggregation
import ApiHandbook.Proofs.InlinedText
import ApiHandbook.Proofs.Pages
import Mathlib.Data.List.TakeWhile

/-! Payloads as a viewer reads them, from their JSON text and from the page into which it is put: nothing is lost. -/
namespace ApiHandbook
open Text

/-! ### Reading a payload -/

namespace Json

/-- The values that an object gives a key. -/
def valuesOf (key : String) : Json → List Json
  | .object fields => fields.filterMap fun (k, value) => if k = key then some value else none
  | _ => []

/-- The value of a key that is given once. -/
def field? (key : String) (j : Json) : Option Json :=
  match j.valuesOf key with
  | [value] => some value
  | _ => none

def text? : Json → Option String
  | .string text => some text
  | _ => none

def textField? (key : String) (j : Json) : Option String := (j.field? key).bind text?

end Json

def ApiKind.ofName? (name : String) : Option ApiKind :=
  if name = ApiKind.api.name then some .api else if name = ApiKind.restfulApi.name then some .restfulApi else none

def ApiKind.ofJson? (j : Json) : Option ApiKind := (j.textField? "api_type").bind ApiKind.ofName?

/-- The methods of an entry, if it gives any. -/
def Entry.methodOfJson? (j : Json) : Option (Option String) :=
  if j.valuesOf "method" = [] then some none else (j.textField? "method").map some

def Entry.ofJson? (j : Json) : Option Entry := do
  let name ← j.textField? "name"
  let nameExtra ← j.textField? "name_extra"
  let url ← j.textField? "url"
  let method ← methodOfJson? j
  let doc ← j.textField? "doc"
  let docMd ← j.textField? "doc_md"
  let router ← j.textField? "router"
  let kind ← ApiKind.ofJson? j
  pure { name, nameExtra, url, method, doc, docMd, router, kind }

/-- The entries of an array, in order. -/
def Entry.listOfJson? : Json → Option (List Entry)
  | .array items => items.mapM Entry.ofJson?
  | _ => none

def Group.ofJson? (name : String) (j : Json) : Option Group := do
  let nameExtra ← j.textField? "name_extra"
  let kind ← ApiKind.ofJson? j
  let children ← (j.field? "children").bind Entry.listOfJson?
  pure { name, nameExtra, kind, children }

/-- The groups of an object in the order of its keys, which must differ from each other. -/
def Aggregate.ofJson? : Json → Option Aggregate
  | .object fields =>
    if (fields.map Prod.fst).Nodup then fields.mapM fun (name, value) => Group.ofJson? name value else none
  | _ => none

def Payload.ofJson? (j : Json) : Option Payload := do
  let data ← (j.field? "data").bind Aggregate.ofJson?
  let title ← j.textField? "title"
  let version ← j.textField? "version"
  let description ← j.textField? "description"
  let noDocText ← j.textField? "noDocText"
  let host ← j.textField? "host"
  pure { data, title, version, description, noDocText, host }

theorem mapM_map_eq_some {α β : Type} {f : α → β} {g : β → Option α} (h : ∀ a, g (f a) = some a) (l : List α) :
    (l.map f).mapM g = some l := by
  induction l with
  | nil => rfl
  | cons a l ih => simp [List.mapM_cons, h, ih]

@[simp] theorem ApiKind.ofName?_name (k : ApiKind) : ofName? k.name = some k := by
  cases k <;> rfl

theorem Entry.ofJson?_toJson (e : Entry) : ofJson? e.toJson = some e := by
  obtain ⟨name, nameExtra, url, method, doc, docMd, router, kind⟩ := e
  cases method <;>
    simp [ofJson?, toJson, methodOfJson?, ApiKind.ofJson?, Json.textField?, Json.field?, Json.valuesOf, Json.text?]

theorem Group.ofJson?_toJson (g : Group) : ofJson? g.name g.toJson = some g := by
  have hchildren := mapM_map_eq_some Entry.ofJson?_toJson g.children
  simp [ofJson?, toJson, ApiKind.ofJson?, Json.textField?, Json.field?, Json.valuesOf, Json.text?, Entry.listOfJson?,
    hchildren]

theorem Payload.ofJson?_toJson {p : Payload} (h : (p.data.map Group.name).Nodup) : ofJson? p.toJson = some p := by
  have hgroups : (p.data.map fun g => (g.name, g.toJson)).mapM (fun (name, value) => Group.ofJson? name value) =
      some p.data := mapM_map_eq_some Group.ofJson?_toJson p.data
  have hnames : (p.data.map (Prod.fst ∘ fun g => (g.name, g.toJson))).Nodup := h
  simp [ofJson?, toJson, Json.textField?, Json.field?, Json.valuesOf, Json.text?, Aggregate.ofJson?, hgroups, hnames]

/-! ### The JSON text -/

theorem Entry.textual_toJson (e : Entry) : e.toJson.Textual := by
  refine .object ?_
  cases e.method <;> simp [Json.Textual.string]

theorem Group.textual_toJson (g : Group) : g.toJson.Textual := by
  have hchildren : ∀ item ∈ g.children.map Entry.toJson, item.Textual :=
    List.forall_mem_map.mpr fun e _ => e.textual_toJson
  exact .object (by simp [Json.Textual.string, Json.Textual.array hchildren])

theorem Payload.textual_toJson (p : Payload) : p.toJson.Textual := by
  have hgroups : ∀ field ∈ p.data.map fun g => (g.name, g.toJson), field.2.Textual :=
    List.forall_mem_map.mpr fun g _ => g.textual_toJson
  exact .object (by simp [Json.Textual.string, Json.Textual.object hgroups])

theorem Payload.toList_text (p : Payload) : p.text.toList = p.toJson.write := String.toList_ofList

theorem Aggregate.nodup_names_build (settings : Settings) (source : RouteSource) :
    ((Aggregate.build settings source).map Group.name).Nodup :=
  (names_build_sublist settings source).nodup (nodup_eraseDups _)

/-! ### The script element -/

namespace Page

def opening : String := "<script>window.API_DOC_DATA = "

def closing : String := ";</script>"

/-- The characters assigned by a script element at the start of a text, up to the first end of such an element. -/
def assigned? (s : List Char) : Option (List Char) :=
  (after? opening.toList s).bind fun rest => (cut? closing.toList rest).map Prod.fst

theorem dataElement_eq (json : String) : dataElement json = opening ++ mapped Json.inlined json ++ closing := rfl

theorem toList_dataElement (json : String) :
    (dataElement json).toList = opening.toList ++ (Json.inlined json.toList ++ closing.toList) := by
  rw [dataElement_eq, String.toList_append, String.toList_append, List.append_assoc, mapped, String.toList_ofList]

theorem after?_append (start s : List Char) : after? start (start ++ s) = some s := by
  rw [after?, if_pos (List.isPrefixOf_iff_prefix.mpr (List.prefix_append start s)), List.drop_left]

/-- What a data element assigns is the inlined text, whatever follows the element. -/
theorem assigned?_dataElement (json : String) (s : List Char) :
    assigned? ((dataElement json).toList ++ s) = some (Json.inlined json.toList) := by
  have hfirst : ¬ closing.toList <:+: Json.inlined json.toList ++ closing.toList.dropLast := by
    intro h
    have hlast : closing.toList = closing.toList.dropLast ++ ['>'] := by decide
    rw [hlast] at h
    have htag : Json.tag <:+: closing.toList.dropLast ++ ['>'] := by decide
    exact Json.not_tag_infix_inlined _ (htag.trans (infix_left_of_notMem (by decide) h))
  rw [assigned?, toList_dataElement, List.append_assoc, List.append_assoc, after?_append, Option.bind_some,
    cut?_append_append (by decide) hfirst, Option.map_some]

/-- The data are put into fixed gaps of a page that does not depend on them, at least one. -/
theorem exists_offline_eq (settings : Settings) : ∃ pieces : List (List Char), 1 < pieces.length ∧
    ∀ json, (offline settings json).toList = (dataElement json).toList.intercalate pieces := by
  have hplace : dataPlace.toList ≠ [] := by decide
  refine ⟨splitAtText dataPlace.toList (fillAll (values settings true) template.toList),
    one_lt_length_splitAtText hplace (infix_frame settings true), fun json => ?_⟩
  rw [offline, toList_render, replace_eq_intercalate _ hplace]

end Page

/-! ### Where the page comes from that asks for a payload -/

def schemeMark : List Char := [':', '/', '/']

/-- A text starts with a scheme and an authority, as absolute URLs do; the authority ends where a path, a query or a
fragment starts. -/
structure IsUrl (s scheme authority : List Char) : Prop where
  scheme_ne_nil : scheme ≠ []
  scheme_chars : ∀ c ∈ scheme, c.isAlphanum = true ∨ c ∈ ['+', '-', '.']
  authority_ne_nil : authority ≠ []
  authority_chars : ∀ c ∈ authority, c ∉ ['/', '?', '#']
  split : ∃ rest, s = scheme ++ (schemeMark ++ (authority ++ rest)) ∧ ∀ c ∈ rest.head?, c ∈ ['/', '?', '#']

theorem isSchemeChar_iff (c : Char) : isSchemeChar c = true ↔ c.isAlphanum = true ∨ c ∈ ['+', '-', '.'] := by
  simp [isSchemeChar, or_assoc]

theorem endsAuthority_iff (c : Char) : endsAuthority c = true ↔ c ∈ ['/', '?', '#'] := by
  simp [endsAuthority, or_assoc]

/-- The mark behind a scheme is the first one in the text, as a scheme has no colon. -/
theorem cut?_scheme {scheme : List Char} (h : ∀ c ∈ scheme, c.isAlphanum = true ∨ c ∈ ['+', '-', '.']) (rest : List Char) :
    cut? schemeMark (scheme ++ (schemeMark ++ rest)) = some (scheme, rest) := by
  have hcolon : ':' ∉ scheme := fun hmem => absurd (h ':' hmem) (by decide)
  refine cut?_append_append (by decide) ?_ rest
  rintro ⟨before, after, heq⟩
  rw [List.append_assoc] at heq
  rcases List.append_eq_append_iff.mp heq with ⟨inside, rfl, hinside⟩ | ⟨behind, -, hbehind⟩
  · cases inside with
    | nil => simp [schemeMark] at hinside
    | cons c inside =>
      obtain ⟨rfl, -⟩ := List.cons.inj hinside
      exact hcolon (by simp)
  · have hlength := congrArg List.length hbehind
    simp only [schemeMark, List.length_append, List.length_cons, List.length_dropLast, List.length_nil] at hlength
    omega

/-- The authority is the part of the rest of a URL in front of the first character that ends it. -/
theorem takeWhile_authority_iff {rest authority : List Char} :
    (rest.takeWhile fun c => !endsAuthority c) = authority ↔ (∀ c ∈ authority, c ∉ ['/', '?', '#']) ∧
      ∃ behind, rest = authority ++ behind ∧ ∀ c ∈ behind.head?, c ∈ ['/', '?', '#'] := by
  constructor
  · rintro rfl
    refine ⟨fun c hc hend => ?_, rest.dropWhile fun c => !endsAuthority c, List.takeWhile_append_dropWhile.symm, ?_⟩
    · have hkept := List.mem_takeWhile_imp hc
      rw [(endsAuthority_iff c).mpr hend] at hkept
      cases hkept
    · intro c hc
      have hend := List.head?_dropWhile_not (fun c => !endsAuthority c) rest
      rw [Option.mem_def.mp hc] at hend
      exact (endsAuthority_iff c).mp (by simpa using hend)
  · rintro ⟨hchars, behind, rfl, hbehind⟩
    have hkept : ∀ c ∈ authority, (!endsAuthority c) = true := fun c hc => by
      rw [Bool.not_eq_true', ← Bool.not_eq_true, endsAuthority_iff]
      exact hchars c hc
    rw [List.takeWhile_append_of_pos hkept]
    cases behind with
    | nil => rw [List.takeWhile_nil, List.append_nil]
    | cons c behind =>
      have hend := (endsAuthority_iff c).mpr (hbehind c rfl)
      rw [List.takeWhile_cons_of_neg (by simp [hend]), List.append_nil]

theorem isUrl_iff {s scheme authority : List Char} : IsUrl s scheme authority ↔
    ∃ rest, cut? schemeMark s = some (scheme, rest) ∧ (rest.takeWhile fun c => !endsAuthority c) = authority ∧
      scheme ≠ [] ∧ scheme.all isSchemeChar = true ∧ authority ≠ [] := by
  simp only [takeWhile_authority_iff, List.all_eq_true, isSchemeChar_iff]
  constructor
  · rintro ⟨hscheme, hchars, hauthority, hends, behind, rfl, hbehind⟩
    exact ⟨authority ++ behind, cut?_scheme hchars _, ⟨hends, behind, rfl, hbehind⟩, hscheme, hchars, hauthority⟩
  · rintro ⟨rest, hcut, ⟨hends, behind, rfl, hbehind⟩, hscheme, hchars, hauthority⟩
    exact ⟨hscheme, hchars, hauthority, hends, behind, eq_of_cut? (by decide) hcut, hbehind⟩

theorem hostOfReferrer_of_isUrl {referrer : String} {scheme authority : List Char}
    (h : IsUrl (trim referrer.toList) scheme authority) :
    hostOfReferrer referrer = String.ofList (scheme ++ (schemeMark ++ authority)) := by
  obtain ⟨rest, hcut, rfl, hscheme, hchars, hauthority⟩ := isUrl_iff.mp h
  rw [hostOfReferrer, show [':', '/', '/'] = schemeMark from rfl, hcut]
  simp [hscheme, hchars, hauthority]

theorem hostOfReferrer_of_not_isUrl {referrer : String}
    (h : ∀ scheme authority, ¬ IsUrl (trim referrer.toList) scheme authority) : hostOfReferrer referrer = "" := by
  rw [hostOfReferrer, show [':', '/', '/'] = schemeMark from rfl]
  cases hcut : cut? schemeMark (trim referrer.toList) with
  | none => rfl
  | some parts =>
    obtain ⟨scheme, rest⟩ := parts
    refine if_pos (Classical.not_not.mp fun hgood => h scheme (rest.takeWhile fun c => !endsAuthority c) ?_)
    simp only [Bool.or_eq_true, List.isEmpty_iff, Bool.not_eq_true', not_or, Bool.not_eq_false] at hgood
    exact isUrl_iff.mpr ⟨rest, hcut, rfl, hgood.1.1, hgood.1.2, hgood.2⟩

/-- The host is the origin of the referrer, which is none if the referrer is no absolute URL. -/
theorem hostOfReferrer_eq_iff (referrer origin : String) :
    hostOfReferrer referrer = origin ∧ origin ≠ "" ↔
      ∃ scheme authority, IsUrl (trim referrer.toList) scheme authority ∧
        origin.toList = scheme ++ (schemeMark ++ authority) := by
  constructor
  · rintro ⟨rfl, hne⟩
    by_contra hnone
    refine hne (hostOfReferrer_of_not_isUrl fun scheme authority hurl => hnone ⟨scheme, authority, hurl, ?_⟩)
    rw [hostOfReferrer_of_isUrl hurl, String.toList_ofList]
  · rintro ⟨scheme, authority, hurl, horigin⟩
    rw [hostOfReferrer_of_isUrl hurl, ← horigin, String.ofList_toList]
    refine ⟨rfl, fun hempty => ?_⟩
    rw [hempty] at horigin
    exact hurl.scheme_ne_nil (List.append_eq_nil_iff.mp horigin.symm).1

/-- A payload is the aggregate, with the texts of the settings and the origin of the referrer. Its groups have names of
their own, and its text gives it back when it is read, also from the page where it stands between its marks. -/
theorem Payload.read_build (settings : Settings) (source : RouteSource) (referrer : Option String) :
    let p := Payload.build settings (Aggregate.build settings source) referrer
    (p.data = Aggregate.build settings source ∧ p.title = settings.title ∧ p.version = settings.version ∧
      p.description = settings.description ∧ p.noDocText = settings.noDocText ∧
      ∀ origin, p.host = origin ∧ origin ≠ "" ↔ ∃ r ∈ referrer, ∃ scheme authority,
        IsUrl (trim r.toList) scheme authority ∧ origin.toList = scheme ++ (schemeMark ++ authority)) ∧
    (p.data.map Group.name).Nodup ∧
    (∃ json, Json.read? p.text.toList = some json ∧ ofJson? json = some p ∧
      ∀ s, ∃ inlined, Page.assigned? ((Page.dataElement p.text).toList ++ s) = some inlined ∧
        ¬ ['<', '/'] <:+: inlined ∧ Json.read? inlined = some json) ∧
    ∃ pieces : List (List Char), 1 < pieces.length ∧
      ∀ json, (Page.offline settings json).toList = (Page.dataElement json).toList.intercalate pieces := by
  intro p
  have hhost (origin : String) : p.host = origin ∧ origin ≠ "" ↔ ∃ r ∈ referrer, ∃ scheme authority,
      IsUrl (trim r.toList) scheme authority ∧ origin.toList = scheme ++ (schemeMark ++ authority) := by
    cases referrer with
    | none =>
      refine ⟨fun ⟨hempty, hne⟩ => absurd hempty.symm hne, ?_⟩
      rintro ⟨r, ⟨⟩, -⟩
    | some r => simpa [p, Payload.build] using hostOfReferrer_eq_iff r origin
  have hnodup : (p.data.map Group.name).Nodup := Aggregate.nodup_names_build settings source
  have hread : Json.read? p.text.toList = some p.toJson := by
    rw [p.toList_text]
    exact Json.read?_write p.textual_toJson
  refine ⟨⟨rfl, rfl, rfl, rfl, rfl, hhost⟩, hnodup, ⟨p.toJson, hread, ofJson?_toJson hnodup, fun s => ?_⟩,
    Page.exists_offline_eq settings⟩
  exact ⟨_, Page.assigned?_dataElement p.text s, Json.not_tag_infix_inlined _, Json.read?_inlined hread⟩

end ApiHandbook
