import ApiHandbook.Proofs.Payloads
import ApiHandbook.Proofs.ScriptData

/-! The element of the offline page that holds the data, as a browser reads it. No end tag stands in the data, but a text
of them may open a comment and a script in it, behind which the browser does not take the end tag of the element for one. -/
namespace ApiHandbook
open Text Page

namespace Json

/-! ### Inlining -/

theorem inlined_append_of_forall {p : List Char} (h : ∀ c ∈ p, c ≠ '<') (s : List Char) :
    inlined (p ++ s) = p ++ inlined s := by
  induction p with
  | nil => rfl
  | cons c p ih =>
    obtain ⟨hc, hp⟩ := List.forall_mem_cons.mp h
    rw [List.cons_append, inlined_of_ne hc, ih hp, List.cons_append]

theorem head?_inlined (s : List Char) : (inlined s).head? = s.head? := by
  cases s with
  | nil => rw [inlined_nil]
  | cons c s =>
    obtain ⟨t, ht⟩ := exists_inlined_cons c s
    rw [ht, List.head?_cons, List.head?_cons]

theorem ne_of_isInner {c : Char} (h : isInner c) : c ≠ '<' := by
  rintro rfl
  exact absurd h (by decide)

/-- Escaping end tags leaves the marks of a text. -/
theorem scriptMarks_inlined (ends : Char → Bool) (s : List Char) : scriptMarks ends (inlined s) = scriptMarks ends s := by
  induction s using split_induction tag_ne_nil with
  | nil => rw [inlined_nil]
  | occurrence s ih =>
    have hback : mark? ends ('<' :: '\\' :: '/' :: inlined s) = none := mark?_lessThan_of_ne (by decide) _
    have hslash : mark? ends ('<' :: '/' :: s) = none := mark?_lessThan_of_ne (by decide) _
    show scriptMarks ends (inlined ('<' :: '/' :: s)) = scriptMarks ends ('<' :: '/' :: s)
    rw [inlined_tag, scriptMarks_cons_of_none hback, scriptMarks_cons_of_none hslash,
      scriptMarks_of_ne (by decide) (by decide), scriptMarks_of_ne (by decide) (by decide),
      scriptMarks_of_ne (by decide) (by decide), ih]
  | char c s h ih =>
    have hmark : mark? ends (c :: inlined s) = mark? ends (c :: s) := by
      obtain ⟨p, u, rfl, hp, hu⟩ := exists_inner_append s
      rw [inlined_append_of_forall fun c hc => ne_of_isInner (hp c hc)]
      exact mark?_append_congr hp (head?_inlined u ▸ hu) hu (fun _ _ => rfl) (by rw [head?_inlined]) c
    rw [inlined_cons h, scriptMarks, scriptMarks, hmark, ih]

/-! ### Writing -/

/-- What may stand behind the name of a tag in a written text: control characters are escaped. -/
def writtenEnd (c : Char) : Bool := c = ' ' || c = '/' || c = '>'

theorem separates_of_control {c : Char} (h : c.toNat < 32) : Separates writtenEnd c := by
  have hne (d : Char) (hd : 32 ≤ d.toNat) : c ≠ d := by
    rintro rfl
    omega
  have hletter : ¬ c.isAlpha := by
    rw [isAlpha_iff]
    omega
  refine ⟨hne '<' (by decide), ?_, ?_⟩
  · simp [isInner, hletter, hne '!' (by decide), hne '-' (by decide), hne '>' (by decide)]
  · simp [writtenEnd, hne ' ' (by decide), hne '/' (by decide), hne '>' (by decide)]

/-- How a character is written: as itself, or from a backslash on, in which case it stands in no mark. -/
theorem writeChar_cases (c : Char) : (writeChar c = [c] ∧ isTagEnd c = writtenEnd c) ∨
    Separates writtenEnd c ∧ ∃ t, writeChar c = '\\' :: t ∧ t.all startsNone := by
  rw [writeChar]
  split_ifs with hquote hback hfeed hreturn htab hbackspace hform hcontrol
  · exact .inr ⟨hquote ▸ ⟨by decide, by decide, by decide⟩, _, rfl, by decide⟩
  · exact .inr ⟨hback ▸ ⟨by decide, by decide, by decide⟩, _, rfl, by decide⟩
  · exact .inr ⟨separates_of_control (hfeed ▸ by decide), _, rfl, by decide⟩
  · exact .inr ⟨separates_of_control (hreturn ▸ by decide), _, rfl, by decide⟩
  · exact .inr ⟨separates_of_control (htab ▸ by decide), _, rfl, by decide⟩
  · exact .inr ⟨separates_of_control (hbackspace ▸ by decide), _, rfl, by decide⟩
  · exact .inr ⟨separates_of_control (hform ▸ by decide), _, rfl, by decide⟩
  · have hdigits : ∀ n < 32, ('u' :: hexUnit n).all startsNone := by decide
    exact .inr ⟨separates_of_control hcontrol, _, rfl, hdigits _ hcontrol⟩
  · exact .inl ⟨rfl, by simp [isTagEnd, writtenEnd, hfeed, hreturn, htab, hform]⟩

theorem flatMap_writeChar_of_inner {p : List Char} (hp : ∀ c ∈ p, isInner c) : p.flatMap writeChar = p := by
  induction p with
  | nil => rfl
  | cons c p ih =>
    obtain ⟨hc, hp⟩ := List.forall_mem_cons.mp hp
    have hself : writeChar c = [c] := (writeChar_cases c).elim And.left fun h => absurd hc h.1.inner
    rw [List.flatMap_cons, hself, ih hp, List.singleton_append]

/-- Where a text goes on with no character of a mark, the written text does so too. -/
theorem head?_flatMap_writeChar {u : List Char} (hu : ∀ c ∈ u.head?, ¬ isInner c) :
    (∀ c ∈ (u.flatMap writeChar).head?, ¬ isInner c) ∧
      (u.flatMap writeChar).head?.any isTagEnd = u.head?.any writtenEnd := by
  cases u with
  | nil => exact ⟨nofun, rfl⟩
  | cons c u =>
    rw [List.flatMap_cons]
    rcases writeChar_cases c with ⟨hself, hend⟩ | ⟨hseparates, t, hwritten, -⟩
    · rw [hself]
      exact ⟨hu, hend⟩
    · rw [hwritten]
      refine ⟨by simp [isInner], ?_⟩
      simp [isTagEnd, hseparates.ends]

/-- A written text has the marks of the text itself. -/
theorem scriptMarks_flatMap_writeChar (s : List Char) :
    scriptMarks isTagEnd (s.flatMap writeChar) = scriptMarks writtenEnd s := by
  induction s with
  | nil => rfl
  | cons c s ih =>
    rw [List.flatMap_cons]
    rcases writeChar_cases c with ⟨hself, -⟩ | ⟨hseparates, t, hwritten, ht⟩
    · have hmark : mark? isTagEnd (c :: s.flatMap writeChar) = mark? writtenEnd (c :: s) := by
        obtain ⟨p, u, rfl, hp, hu⟩ := exists_inner_append s
        obtain ⟨hhead, hends⟩ := head?_flatMap_writeChar hu
        rw [List.flatMap_append, flatMap_writeChar_of_inner hp]
        refine mark?_append_congr hp hhead hu (fun d hd => ?_) hends c
        exact (writeChar_cases d).elim And.right fun h => absurd hd h.1.inner
      rw [hself, List.singleton_append, scriptMarks, hmark, ih, ← scriptMarks]
    · rw [hwritten, List.cons_append, scriptMarks_of_ne (by decide) (by decide), scriptMarks_append_of_all ht, ih,
        scriptMarks_of_ne hseparates.ne hseparates.ne_dash]

theorem scriptMarks_writeText (t s : List Char) :
    scriptMarks isTagEnd (writeText t ++ s) = scriptMarks writtenEnd t ++ scriptMarks isTagEnd s := by
  have hquote : Separates isTagEnd '"' := ⟨by decide, by decide, by decide⟩
  have hsplit : writeText t ++ s = '"' :: (t.flatMap writeChar ++ '"' :: s) := by simp [writeText]
  rw [hsplit, scriptMarks_of_ne hquote.ne hquote.ne_dash, scriptMarks_append_cons hquote, scriptMarks_flatMap_writeChar]

/-! ### The texts of a value -/

mutual

/-- The strings and keys of a value, in the order in which they are written. -/
def texts : Json → List String
  | .string text => [text]
  | .array items => itemTexts items
  | .object fields => fieldTexts fields
  | _ => []

def itemTexts : List Json → List String
  | [] => []
  | item :: rest => texts item ++ itemTexts rest

def fieldTexts : List (String × Json) → List String
  | [] => []
  | (key, value) :: rest => key :: texts value ++ fieldTexts rest

end

def textMarks (ts : List String) : List ScriptMark := ts.flatMap fun t => scriptMarks writtenEnd t.toList

/-- Whether the marks of a written value are those of its texts. -/
def Marked (j : Json) : Prop :=
  ∀ s, scriptMarks isTagEnd (j.write ++ s) = textMarks j.texts ++ scriptMarks isTagEnd s

theorem scriptMarks_writeItems {items : List Json} (h : ∀ item ∈ items, Marked item) (s : List Char) :
    scriptMarks isTagEnd (writeItems items ++ s) = textMarks (itemTexts items) ++ scriptMarks isTagEnd s := by
  induction items with
  | nil => exact scriptMarks_of_ne (by decide) (by decide) s
  | cons item items ih =>
    obtain ⟨hitem, hitems⟩ := List.forall_mem_cons.mp h
    rw [writeItems, List.cons_append, List.cons_append, scriptMarks_of_ne (by decide) (by decide), List.append_assoc,
      hitem, ih hitems, itemTexts, textMarks, textMarks, textMarks, List.flatMap_append, List.append_assoc]

theorem scriptMarks_writeField {value : Json} (h : Marked value) (key : String) (s : List Char) :
    scriptMarks isTagEnd (writeField key value ++ s) = textMarks (key :: value.texts) ++ scriptMarks isTagEnd s := by
  rw [writeField, List.append_assoc, scriptMarks_writeText, List.cons_append, scriptMarks_of_ne (by decide) (by decide),
    h, textMarks, textMarks, List.flatMap_cons, List.append_assoc]

theorem scriptMarks_writeFields {fields : List (String × Json)} (h : ∀ field ∈ fields, Marked field.2) (s : List Char) :
    scriptMarks isTagEnd (writeFields fields ++ s) = textMarks (fieldTexts fields) ++ scriptMarks isTagEnd s := by
  induction fields with
  | nil => exact scriptMarks_of_ne (by decide) (by decide) s
  | cons field fields ih =>
    obtain ⟨key, value⟩ := field
    obtain ⟨hvalue, hfields⟩ := List.forall_mem_cons.mp h
    rw [writeFields_cons, List.cons_append, scriptMarks_of_ne (by decide) (by decide), List.append_assoc,
      scriptMarks_writeField hvalue, ih hfields, fieldTexts, textMarks, textMarks, textMarks, List.flatMap_append,
      List.append_assoc]

theorem marked_array {items : List Json} (h : ∀ item ∈ items, Marked item) : Marked (.array items) := by
  intro s
  cases items with
  | nil => exact scriptMarks_append_of_all (by decide) s
  | cons item items =>
    obtain ⟨hitem, hitems⟩ := List.forall_mem_cons.mp h
    rw [write, List.cons_append, List.cons_append, scriptMarks_of_ne (by decide) (by decide), List.append_assoc, hitem,
      scriptMarks_writeItems hitems, texts, itemTexts, textMarks, textMarks, textMarks, List.flatMap_append,
      List.append_assoc]

theorem marked_object {fields : List (String × Json)} (h : ∀ field ∈ fields, Marked field.2) :
    Marked (.object fields) := by
  intro s
  cases fields with
  | nil => exact scriptMarks_append_of_all (by decide) s
  | cons field fields =>
    obtain ⟨key, value⟩ := field
    obtain ⟨hvalue, hfields⟩ := List.forall_mem_cons.mp h
    have hwrite : write (.object ((key, value) :: fields)) = '{' :: (writeField key value ++ writeFields fields) := by
      simp [write, writeField, writeText]
    rw [hwrite, List.cons_append, scriptMarks_of_ne (by decide) (by decide), List.append_assoc,
      scriptMarks_writeField hvalue, scriptMarks_writeFields hfields, texts, fieldTexts, textMarks, textMarks, textMarks,
      List.flatMap_append, List.append_assoc]

theorem marked_of_textual {j : Json} (h : Textual j) : Marked j := by
  induction h with
  | null => exact fun s => scriptMarks_append_of_all (by decide) s
  | bool value => cases value <;> exact fun s => scriptMarks_append_of_all (by decide) s
  | string text =>
    intro s
    rw [write, scriptMarks_writeText, texts, textMarks, List.flatMap_singleton]
  | array _ ih => exact marked_array ih
  | object _ ih => exact marked_object ih

/-- The marks of an inlined value are those of its texts. -/
theorem scriptMarks_inlined_write {j : Json} (h : Textual j) :
    scriptMarks isTagEnd (inlined j.write) = textMarks j.texts := by
  have hwrite := marked_of_textual h []
  rw [List.append_nil, scriptMarks, List.append_nil] at hwrite
  rw [scriptMarks_inlined, hwrite]

end Json

/-! ### The element -/

namespace Page

def startTag : List Char := ['<', 's', 'c', 'r', 'i', 'p', 't', '>']

/-- What follows the script element with which a text starts. -/
def afterScript? (s : List Char) : Option (List Char) := (after? startTag s).bind ScriptState.data.afterEndTag?

/-- The element of the data ends where it is written, unless the marks of the data lead into a script in a comment. -/
theorem afterScript?_dataElement (json : String) (s : List Char) :
    afterScript? ((dataElement json).toList ++ s) = some s ↔
      (scriptMarks isTagEnd (Json.inlined json.toList)).foldl Depth.next .plain ≠ .doubled := by
  let assignment : List Char := opening.toList.drop startTag.length
  have hopening : opening.toList = startTag ++ assignment := by decide
  have hclosing : closing.toList = ';' :: endTag := by decide
  have hplain : assignment.all startsNone := by decide
  have htag : ¬ Json.tag <:+: assignment ++ Json.inlined json.toList := by
    rw [← Json.inlined_append_of_forall fun c hc => (startsNone_iff.mp (List.all_eq_true.mp hplain c hc)).1]
    exact Json.not_tag_infix_inlined _
  have hsplit : (dataElement json).toList ++ s =
      startTag ++ (assignment ++ Json.inlined json.toList ++ ';' :: (endTag ++ s)) := by
    rw [toList_dataElement, hopening, hclosing]
    simp
  rw [afterScript?, hsplit, after?_append, Option.bind_some, afterEndTag?_iff htag, scriptMarks_append_of_all hplain]

end Page

/-- The text of the data holds no end tag, and a script in a comment just when a text of the data opens a comment and the
same or a later one starts a script. Without that the element of the data ends with the end tag that is written for it,
whatever follows; in general it does unless the comments and scripts of the texts leave a script open in a comment. -/
theorem Payload.element_ends_iff (settings : Settings) (aggregate : Aggregate) (referrer : Option String) :
    let p := Payload.build settings aggregate referrer
    let inlined := Json.inlined p.text.toList
    let marks := Json.textMarks p.toJson.texts
    ¬ ['<', '/'] <:+: inlined ∧
    (NestsScript inlined ↔ [.comment, .script].Sublist marks) ∧
    (∀ s, afterScript? ((dataElement p.text).toList ++ s) = some s ↔ marks.foldl Depth.next .plain ≠ .doubled) ∧
    (¬ NestsScript inlined → ∀ s, afterScript? ((dataElement p.text).toList ++ s) = some s) ∧
    ∃ pieces : List (List Char), 1 < pieces.length ∧
      (Page.offline settings p.text).toList = (dataElement p.text).toList.intercalate pieces := by
  intro p inlined marks
  have hmarks : scriptMarks isTagEnd (Json.inlined p.text.toList) = marks := by
    rw [p.toList_text, Json.scriptMarks_inlined_write p.textual_toJson]
  have hnests : NestsScript inlined ↔ [.comment, .script].Sublist marks := by rw [nestsScript_iff, hmarks]
  have hends (s : List Char) :
      afterScript? ((dataElement p.text).toList ++ s) = some s ↔ marks.foldl Depth.next .plain ≠ .doubled := by
    rw [afterScript?_dataElement, hmarks]
  obtain ⟨pieces, hpieces, hpage⟩ := Page.exists_offline_eq settings
  refine ⟨Json.not_tag_infix_inlined _, hnests, hends, fun hplain s => ?_, pieces, hpieces, hpage p.text⟩
  exact (hends s).mpr fun h => hplain (hnests.mpr ((script_of_doubled marks).2 h))

def commentedCalls : List Registration :=
  [.routeWithEndpoint "/goods" ["get"] "shop.goods" { name := "goods", doc := some "<!--<script>" }]

/-- A docstring that opens a comment and a script in it. The end tag behind the data does not end their element. -/
theorem commented_script_goes_on :
    let settings : Settings := { member := ["shop"] }
    let p := Payload.build settings (Aggregate.build settings (Application.ofRegistrations commentedCalls).source) none
    settings.validate = .ok () ∧ NestsScript (Json.inlined p.text.toList) ∧
      ∀ s, afterScript? ((dataElement p.text).toList ++ s) ≠ some s := by
  intro settings p
  have hbuild : Aggregate.build settings (Application.ofRegistrations commentedCalls).source =
      [⟨"Shop", "", .api, [⟨"Goods", "", "/goods", some "GET", "<!--<script>", "", "Shop", .api⟩]⟩] :=
    Aggregate.build_of_foldl _ _ (by decide +kernel) rfl
  have hp : p = Payload.build settings _ none := congrArg (Payload.build settings · none) hbuild
  have hmarks : scriptMarks isTagEnd (Json.inlined p.text.toList) = [.comment, .script] := by
    rw [p.toList_text, Json.scriptMarks_inlined_write p.textual_toJson, hp]
    decide
  refine ⟨by decide, by rw [nestsScript_iff, hmarks], fun s h => ?_⟩
  rw [afterScript?_dataElement, hmarks] at h
  exact h rfl

end ApiHandbook
