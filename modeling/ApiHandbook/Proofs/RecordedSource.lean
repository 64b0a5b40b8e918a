import ApiHandbook.Aggregate
import ApiHandbook.Proofs.Endpoints
import ApiHandbook.Proofs.Margins
import ApiHandbook.Proofs.Numbering.Spans

/-! The recorded source of a handler is the whole of the lines that its item stands on. What is scraped from it is what is scraped
from the text of the item alone, with what the neighbours on its first and its last line declare around it. -/
namespace ApiHandbook.Project
open Text Code

/-! Places -/

/-- The text between two places. -/
def stretch (source : List Char) (first last : Nat) : List Char :=
  (Lexical.before source last).drop (source.length - first)

/-- What stands behind the text between two places. -/
def behind (source : List Char) (first last : Nat) : List Char :=
  source.drop ((Lexical.before source first).length + (stretch source first last).length)

theorem before_append_stretch (source : List Char) (first last : Nat) :
    Lexical.before source first ++ stretch source first last <+: source ∧
      Lexical.lineBreaks (Lexical.before source last) - Lexical.lineBreaks (Lexical.before source first) =
        Lexical.lineBreaks (stretch source first last) := by
  rw [stretch, Lexical.before, Lexical.before]
  generalize source.length - first = p
  generalize source.length - last = q
  rcases Nat.le_total p q with hle | hle
  · have htake : source.take p ++ (source.take q).drop p = source.take q := by
      have hsplit := List.take_append_drop p (source.take q)
      rwa [List.take_take, Nat.min_eq_left hle] at hsplit
    refine ⟨?_, ?_⟩
    · rw [htake]
      exact List.take_prefix q source
    · rw [← htake, Lexical.lineBreaks_append, Nat.add_sub_cancel_left, htake]
  · have hnil : (source.take q).drop p = [] :=
      List.drop_eq_nil_of_le ((List.length_take_le q source).trans hle)
    have hbreaks : Lexical.lineBreaks (source.take q) ≤ Lexical.lineBreaks (source.take p) :=
      (List.take_prefix_take_left hle).sublist.count_le '\n'
    refine ⟨?_, ?_⟩
    · rw [hnil, List.append_nil]
      exact List.take_prefix p source
    · rw [hnil, Nat.sub_eq_zero_of_le hbreaks]
      rfl

theorem eq_append_behind (source : List Char) (first last : Nat) :
    Lexical.before source first ++ stretch source first last ++ behind source first last = source := by
  rw [behind, ← List.length_append]
  exact List.prefix_iff_eq_append.mp (before_append_stretch source first last).1

/-- The lines from one place to another hold the text between them, what stands in front of it on its first line, and what
follows it on its last. -/
theorem linesBetween_places (source : List Char) (first last : Nat) :
    linesBetween (Lexical.lineAt source first) (Lexical.lineAt source last) source =
      joinLines (lines (afterFeed (Lexical.before source first) ++ stretch source first last ++
        upToFeed (behind source first last))) := by
  rw [linesBetween, Lexical.lineAt, Lexical.lineAt, Nat.add_sub_cancel_left, Nat.add_sub_add_left,
    (before_append_stretch source first last).2, ← lines_stretch, eq_append_behind]

/-! Handlers and the text of their items -/

open Argument

/-- The handler of an item with places. -/
def handlerAt (f : SourceFile) (h : Heading) : Handler := handlerOf f (renumber (Lexical.lineAt f.source.toList) h)

/-- The text of an item, from the start of its first token to the end of its last one. -/
def ownText (f : SourceFile) (h : Heading) : String := String.ofList (stretch f.source.toList h.first h.last)

/-- The text that is recorded for an item: the lines of its places. -/
def recordedText (f : SourceFile) (h : Heading) : String :=
  f.lines (Lexical.lineAt f.source.toList h.first) (Lexical.lineAt f.source.toList h.last)

theorem source_handlerAt (f : SourceFile) (h : Heading) : (handlerAt f h).source = some (recordedText f h) := rfl

theorem doc_handlerAt (f : SourceFile) (h : Heading) : (handlerAt f h).doc = docComment? h.attributes :=
  docComment?_renumber _ h.attributes

theorem SourceFile.IsRead.items?_eq {f : SourceFile} (hf : f.IsRead) : items? f.source.toList = some f.items := by
  obtain ⟨path, module, source, hread⟩ := hf
  obtain ⟨items, hitems, rfl⟩ := SourceFile.ofText_eq_ok_iff.mp hread
  exact hitems

/-- The handlers of a file are those of its indexed items. -/
theorem exists_placed_of_isRead {f : SourceFile} (hf : f.IsRead) : ∃ items, placedItems? f.source.toList = some items ∧
    (Index.ofFiles [f]).flatMap Definition.handlers = (indexed.items () items).map (handlerAt f) := by
  have hitems := hf.items?_eq
  rw [items?_eq] at hitems
  obtain ⟨items, hplaced, hsame⟩ := Option.map_eq_some_iff.mp hitems
  refine ⟨items, hplaced, ?_⟩
  rw [Index.ofFiles, List.flatMap_singleton, ← hsame]
  exact handlers_definitions f _ items

/-- Whether the declarations that are scraped for an item are those of its own text. -/
def DocumentsOwn (f : SourceFile) (h : Heading) : Prop :=
  scrapeDeclarations (recordedText f h) (handlerAt f h).doc = scrapeDeclarations (ownText f h) (handlerAt f h).doc

/-- The code of a text of an item, without the docstring of the item. -/
def codeFor (f : SourceFile) (h : Heading) (text : String) : List Char :=
  codeOf text.toList ((handlerAt f h).doc.map String.toList)

/-- The records of the lines of an item: those of the neighbours in front of it, its own, and those of the neighbours behind. -/
theorem documentsOwn_iff_of_surrounded {f : SourceFile} {h : Heading} {ahead behind : List Char}
    (hcode : Surrounded (codeFor f h (recordedText f h)) ahead (codeFor f h (ownText f h)) behind) :
    scrapeDeclarations (recordedText f h) (handlerAt f h).doc =
        recordsIn ahead ++ scrapeDeclarations (ownText f h) (handlerAt f h).doc ++ recordsIn behind ∧
      (DocumentsOwn f h ↔ recordsIn ahead = [] ∧ recordsIn behind = []) := by
  have hrecords : scrapeDeclarations (recordedText f h) (handlerAt f h).doc =
      recordsIn ahead ++ scrapeDeclarations (ownText f h) (handlerAt f h).doc ++ recordsIn behind := hcode.recordsIn_eq
  refine ⟨hrecords, ?_⟩
  rw [DocumentsOwn, hrecords]
  constructor
  · intro hown
    have hlength := congrArg List.length hown
    rw [List.length_append, List.length_append] at hlength
    exact ⟨List.eq_nil_of_length_eq_zero (by omega), List.eq_nil_of_length_eq_zero (by omega)⟩
  · rintro ⟨hahead, hbehind⟩
    rw [hahead, hbehind, List.nil_append, List.append_nil]

/-- What stands in front of an item on its first line. -/
def lineFront (f : SourceFile) (h : Heading) : List Char := afterFeed (Lexical.before f.source.toList h.first)

/-- What stands behind an item on its last line, up to the end of that line. -/
def lineBack (f : SourceFile) (h : Heading) : List Char := upToFeed (behind f.source.toList h.first h.last)

theorem toList_recordedText (f : SourceFile) (h : Heading) : (recordedText f h).toList =
    joinLines (lines (lineFront f h ++ (ownText f h).toList ++ lineBack f h)) := by
  rw [recordedText, SourceFile.lines, mapped, String.toList_ofList, ownText, String.toList_ofList]
  exact linesBetween_places f.source.toList h.first h.last

/-- An item has its lines for itself: nothing but blanks stands beside it, its docstring does not start with one in front of it,
and either does not end with one behind it or stands in the text of the item. -/
structure Alone (f : SourceFile) (h : Heading) : Prop where
  front : isBlankText (lineFront f h)
  back : isBlankText (lineBack f h)
  noReturn : '\r' ∉ (ownText f h).toList
  doc_start : ∀ doc ∈ (handlerAt f h).doc, ∀ c ∈ doc.toList.head?, c ∉ lineFront f h
  doc_end : ∀ doc ∈ (handlerAt f h).doc, (∀ c ∈ doc.toList.getLast?, c ∉ '\n' :: lineBack f h) ∨
    doc.toList <:+: (ownText f h).toList.dropLast

theorem Alone.documentsOwn {f : SourceFile} {h : Heading} (halone : Alone f h) : DocumentsOwn f h := by
  have hdoc {p : List Char → Prop} (hall : ∀ doc ∈ (handlerAt f h).doc, p doc.toList) :
      ∀ text ∈ (handlerAt f h).doc.map String.toList, p text := by
    intro text htext
    obtain ⟨doc, hmem, rfl⟩ := Option.map_eq_some_iff.mp htext
    exact hall doc hmem
  have haround := recordsIn_lines_blank_around halone.front (notMem_afterFeed _) halone.back halone.noReturn
    (hdoc halone.doc_start) (hdoc halone.doc_end)
  rwa [← toList_recordedText] at haround

/-- Two functions share their line; the third has lines of its own. -/
def sharedSource : String :=
  "fn list() \x7b p.add_argument(\"page\") \x7d fn gone() \x7b\x7d\n" ++
  "    /// Adds.\n    fn add() \x7b\n        p.add_argument(\"task\")\n    \x7d\n"

set_option synthInstance.maxSize 1000 in
theorem placed_sharedSource : (placedItems? sharedSource.toList).map (fun items =>
    (indexed.items () items).map fun h => (h.name, h.first, h.last, docComment? h.attributes)) =
      some [("list", 116, 80, none), ("gone", 79, 67, none), ("add", 62, 1, some "Adds.")] := by
  decide +kernel

theorem exists_isRead {source : String} {items : List Item} (h : placedItems? source.toList = some items) :
    ∃ f : SourceFile, f.IsRead ∧ f.source = source := by
  have hitems := items?_eq source.toList
  rw [h] at hitems
  exact ⟨⟨"", none, source, renumber (Lexical.lineAt source.toList) items⟩,
    ⟨"", none, source, SourceFile.ofText_eq_ok_iff.mpr ⟨_, hitems, rfl⟩⟩, rfl⟩

section Shared
variable {f : SourceFile} {h : Heading} (hsource : f.source = sharedSource)
include hsource

theorem codeFor_firstLine (hfirst : Lexical.lineAt f.source.toList h.first = 1) (hlast : Lexical.lineAt f.source.toList h.last = 1)
    (hdoc : docComment? h.attributes = none) :
    codeFor f h (recordedText f h) = "fn list() \x7b p.add_argument(\"page\") \x7d fn gone() \x7b\x7d".toList := by
  rw [codeFor, doc_handlerAt, hdoc, recordedText, hfirst, hlast, SourceFile.lines, hsource]
  decide +kernel

theorem surrounded_list (hfirst : h.first = 116) (hlast : h.last = 80) (hdoc : docComment? h.attributes = none) :
    Surrounded (codeFor f h (recordedText f h)) [] (codeFor f h (ownText f h)) " fn gone() \x7b\x7d".toList := by
  have hown : codeFor f h (ownText f h) = "fn list() \x7b p.add_argument(\"page\") \x7d".toList := by
    rw [codeFor, doc_handlerAt, hdoc, ownText, hsource, hfirst, hlast]
    decide +kernel
  rw [hown, codeFor_firstLine hsource (by rw [hsource, hfirst]; decide +kernel) (by rw [hsource, hlast]; decide +kernel) hdoc]
  exact ⟨by decide +kernel, by decide +kernel, by decide +kernel, by decide +kernel⟩

theorem surrounded_gone (hfirst : h.first = 79) (hlast : h.last = 67) (hdoc : docComment? h.attributes = none) :
    Surrounded (codeFor f h (recordedText f h)) "fn list() \x7b p.add_argument(\"page\") \x7d ".toList
      (codeFor f h (ownText f h)) [] := by
  have hown : codeFor f h (ownText f h) = "fn gone() \x7b\x7d".toList := by
    rw [codeFor, doc_handlerAt, hdoc, ownText, hsource, hfirst, hlast]
    decide +kernel
  rw [hown, codeFor_firstLine hsource (by rw [hsource, hfirst]; decide +kernel) (by rw [hsource, hlast]; decide +kernel) hdoc]
  exact ⟨by decide +kernel, by decide +kernel, by decide +kernel, by decide +kernel⟩

theorem alone_add (hfirst : h.first = 62) (hlast : h.last = 1) (hdoc : docComment? h.attributes = some "Adds.") : Alone f h := by
  have hfront : lineFront f h = "    ".toList := by
    rw [lineFront, hsource, hfirst]
    decide +kernel
  have hback : lineBack f h = ['\n'] := by
    rw [lineBack, hsource, hfirst, hlast]
    decide +kernel
  have hown : (ownText f h).toList =
      "/// Adds.\n    fn add() \x7b\n        p.add_argument(\"task\")\n    \x7d".toList := by
    rw [ownText, String.toList_ofList, hsource, hfirst, hlast]
    decide +kernel
  constructor
  · rw [hfront]
    decide
  · rw [hback]
    decide
  · rw [hown]
    decide +kernel
  · rw [doc_handlerAt, hdoc, hfront]
    rintro doc ⟨⟩ c ⟨⟩
    decide
  · rw [doc_handlerAt, hdoc, hback]
    rintro doc ⟨⟩
    refine .inl fun c hc => ?_
    obtain rfl : '.' = c := Option.some.inj hc
    decide

end Shared

end ApiHandbook.Project
