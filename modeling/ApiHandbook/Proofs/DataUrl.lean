import ApiHandbook.Proofs.Admission
import ApiHandbook.Proofs.PageScript
import ApiHandbook.Proofs.Rules

/-! The address from which the viewer page fetches its data, and the endpoint that the service mounts for them. Both are
derived from the mount path, but in different ways: the page escapes it as text of the page and reads it as a script,
the service takes its trailing slashes off. They agree exactly for the mount paths that neither of the two changes. -/
namespace ApiHandbook
open Text

/-! ### The endpoint of the data -/

namespace Settings

theorem toList_mountPath (s : Settings) : s.mountPath.toList = dropEndWhile (· == '/') s.urlPrefix.toList :=
  String.toList_ofList

theorem dropEndWhile_mountPath_append (s : Settings) (ending : String) :
    dropEndWhile (· == '/') (s.mountPath ++ ending).toList =
      s.mountPath.toList ++ dropEndWhile (· == '/') ending.toList := by
  rw [String.toList_append, dropEndWhile_append]
  split
  · rename_i hempty
    rw [List.isEmpty_iff.mp hempty, List.append_nil, toList_mountPath, dropEndWhile_dropEndWhile]
  · rfl

/-- A path up to its query. -/
def queryless (path : String) : String := mapped (fun p => p.takeWhile (· != '?')) path

/-- Whether a path leads to what is mounted. -/
def leadsTo (path : String) (mounted : String × Endpoint) : Bool :=
  mounted.1 == path || mapped (dropEndWhile (· == '/')) mounted.1 == path

theorem endpointAt?_eq (s : Settings) (path : String) :
    s.endpointAt? path = (s.endpoints.find? (leadsTo (queryless path))).map Prod.snd := rfl

theorem leadsTo_iff (s : Settings) (ending path : String) (endpoint : Endpoint) :
    leadsTo path (s.mountPath ++ ending, endpoint) = true ↔
      path.toList = s.mountPath.toList ++ ending.toList ∨
        path.toList = s.mountPath.toList ++ dropEndWhile (· == '/') ending.toList := by
  have htrimmed : (mapped (dropEndWhile (· == '/')) (s.mountPath ++ ending)).toList =
      dropEndWhile (· == '/') (s.mountPath ++ ending).toList := String.toList_ofList
  rw [leadsTo, Bool.or_eq_true, beq_iff_eq, beq_iff_eq, ← dropEndWhile_mountPath_append, ← htrimmed,
    ← String.toList_append, String.toList_inj, String.toList_inj]
  exact or_congr eq_comm eq_comm

theorem endpointAt?_eq_data_iff {s : Settings} (he : s.enable = true) (path : String) :
    s.endpointAt? path = some .data ↔ path.toList.takeWhile (· != '?') = s.mountPath.toList ++ "/data".toList := by
  have hpath : (queryless path).toList = path.toList.takeWhile (· != '?') := String.toList_ofList
  have htrimmed : dropEndWhile (· == '/') "/".toList = [] ∧ dropEndWhile (· == '/') "/data".toList = "/data".toList := by
    decide
  have hindex := leadsTo_iff s "/" (queryless path) .index
  have hdata := leadsTo_iff s "/data" (queryless path) .data
  rw [htrimmed.1] at hindex
  rw [htrimmed.2, or_self] at hdata
  rw [endpointAt?_eq, endpoints, if_pos he, ← hpath, ← hdata]
  by_cases hd : leadsTo (queryless path) (s.mountPath ++ "/data", .data) = true
  · have hother : ¬ leadsTo (queryless path) (s.mountPath ++ "/", .index) = true := by
      rw [hindex, hdata.mp hd, List.append_right_inj, List.append_right_inj]
      decide
    rw [List.find?_cons_of_neg hother, List.find?_cons_of_pos hd]
    exact iff_of_true rfl hd
  · rw [List.find?_cons, List.find?_cons_of_neg hd, List.find?_nil]
    refine iff_of_false (fun h => ?_) hd
    split at h <;> cases h

end Settings

/-! ### Plain mount paths -/

/-- Characters that the page escapes, that a script reads as an escape or does not read at all, or that end a path. -/
def troubling : List Char := ['&', '<', '>', '"', '\\', '?', '\n', '\r']

/-- Whether page and service take a mount path as it is: it has no trailing slash and no troubling character. -/
def isPlainPath (path : List Char) : Bool :=
  path.getLast? != some '/' && path.all fun c => !troubling.contains c

namespace Page

/-- Whether a character is escaped in the page. -/
def isMarkup (c : Char) : Bool := c == '&' || c == '<' || c == '>' || c == '"'

theorem escapeChar_of_not_isMarkup {c : Char} (h : isMarkup c = false) : escapeChar c = [c] := by
  simp only [isMarkup, Bool.or_eq_false_iff, beq_eq_false_iff_ne] at h
  obtain ⟨⟨⟨h1, h2⟩, h3⟩, h4⟩ := h
  rw [escapeChar, if_neg h1, if_neg h2, if_neg h3, if_neg h4]

theorem cases_of_isMarkup {c : Char} (h : isMarkup c = true) : c ∈ ['&', '<', '>', '"'] := by
  simpa [isMarkup, or_assoc] using h

theorem flatMap_escapeChar_of_not_isMarkup {s : List Char} (h : ∀ c ∈ s, isMarkup c = false) :
    s.flatMap escapeChar = s := by
  induction s with
  | nil => rfl
  | cons c s ih =>
    obtain ⟨hc, hs⟩ := List.forall_mem_cons.mp h
    rw [List.flatMap_cons, escapeChar_of_not_isMarkup hc, ih hs, List.singleton_append]

/-- What is put for a character holds no more of these characters than the character itself. -/
theorem count_flatMap_escapeChar {d : Char} (hd : d ∈ ['\\', '/', '?']) (s : List Char) :
    (s.flatMap escapeChar).count d = s.count d := by
  have hone (c : Char) : (escapeChar c).count d = [c].count d := by
    by_cases hc : isMarkup c = true
    · have hall : (['&', '<', '>', '"'].all fun c => ['\\', '/', '?'].all fun d =>
          (escapeChar c).count d == [c].count d) = true := by decide
      exact eq_of_beq (List.all_eq_true.mp (List.all_eq_true.mp hall c (cases_of_isMarkup hc)) d hd)
    · rw [escapeChar_of_not_isMarkup (by simpa using hc)]
  induction s with
  | nil => rfl
  | cons c s ih => rw [List.flatMap_cons, List.count_append, hone, ih, Script.count_cons_eq d c s]

/-- Every escaped character adds a semicolon. -/
theorem count_semicolon_flatMap_escapeChar (s : List Char) :
    (s.flatMap escapeChar).count ';' = s.count ';' + s.countP isMarkup := by
  have hone (c : Char) : (escapeChar c).count ';' = [c].count ';' + [c].countP isMarkup := by
    by_cases hc : isMarkup c = true
    · have hall : ∀ c ∈ ['&', '<', '>', '"'], (escapeChar c).count ';' = [c].count ';' + [c].countP isMarkup :=
        Text.forall_mem_of_all (by decide)
      exact hall c (cases_of_isMarkup hc)
    · rw [escapeChar_of_not_isMarkup (by simpa using hc)]
      simp [hc]
  induction s with
  | nil => rfl
  | cons c s ih =>
    rw [List.flatMap_cons, List.count_append, hone, ih, Script.count_cons_eq _ c s, ← List.singleton_append (l := s),
      List.countP_append]
    omega

end Page

theorem isPlainPath_iff (path : List Char) :
    isPlainPath path = true ↔ path.getLast? ≠ some '/' ∧ ∀ c ∈ path, c ∉ troubling := by
  simp [isPlainPath]

/-- A mount path, up to its trailing slashes and with them, and an address that a script reads from the escaped path and
that leads to the data. -/
structure Fetched (path trimmed slashes url : List Char) : Prop where
  literal : Script.Literal (path.flatMap Page.escapeChar ++ "/data".toList) (Script.utf16 url)
  path_eq : path = trimmed ++ slashes
  slashes : ∀ c ∈ slashes, c = '/'
  last : trimmed.getLast? ≠ some '/'
  leads : url.takeWhile (· != '?') = trimmed ++ "/data".toList

namespace Fetched
variable {path trimmed slashes url : List Char}

theorem count_path (h : Fetched path trimmed slashes url) {d : Char} (hd : d ≠ '/') : path.count d = trimmed.count d := by
  have hnone : slashes.count d = 0 := List.count_eq_zero.mpr fun hmem => hd (h.slashes d hmem)
  rw [h.path_eq, List.count_append, hnone, Nat.add_zero]

/-- All backslashes of the mount path are in the address again, so that each of them is an escape for itself. -/
theorem count_backslash (h : Fetched path trimmed slashes url) :
    (Script.utf16 url).count 92 = (path.flatMap Page.escapeChar ++ "/data".toList).count '\\' := by
  have hle := h.literal.count_backslash_le
  have hvalue : (Script.utf16 url).count 92 = url.count '\\' := Script.count_utf16 (d := '\\') (by decide) url
  have hstart : trimmed <+: url := (List.prefix_append trimmed _).trans (h.leads ▸ List.takeWhile_prefix _)
  have hlower := hstart.sublist.count_le '\\'
  have hdata : "/data".toList.count '\\' = 0 := by decide
  rw [List.count_append, Page.count_flatMap_escapeChar (by decide), h.count_path (by decide), hdata] at hle ⊢
  omega

theorem count_mark (h : Fetched path trimmed slashes url) {d : Char} (hd : d ∈ Script.marks) :
    url.count d = (path.flatMap Page.escapeChar).count d + "/data".toList.count d := by
  have hsmall : ∀ d ∈ Script.marks, d.toNat < 0xD800 := Text.forall_mem_of_all (by decide)
  rw [← List.count_append, ← (h.literal.exact_of_count_backslash h.count_backslash).1 d hd,
    Script.count_utf16 (hsmall d hd)]

theorem notMem_question (h : Fetched path trimmed slashes url) : '?' ∉ url := by
  have hnone : '?' ∉ trimmed := fun hmem => by
    have := List.all_eq_true.mp List.all_takeWhile '?' (h.leads ▸ List.mem_append_left _ hmem)
    simp at this
  have hdata : "/data".toList.count '?' = 0 := by decide
  rw [← List.count_eq_zero, h.count_mark (by decide), Page.count_flatMap_escapeChar (by decide),
    h.count_path (by decide), hdata, List.count_eq_zero.mpr hnone]

theorem url_eq (h : Fetched path trimmed slashes url) : url = trimmed ++ "/data".toList := by
  have hnone : ∀ c ∈ url, (c != '?') = true := fun c hc =>
    bne_iff_ne.mpr (by rintro rfl; exact h.notMem_question hc)
  rw [← h.leads, List.takeWhile_eq_self_iff.mpr hnone]

/-- Every escaped character would add a semicolon that the mount path does not have. -/
theorem not_isMarkup (h : Fetched path trimmed slashes url) : ∀ c ∈ path, Page.isMarkup c = false := by
  have hsemicolon := h.count_mark (d := ';') (by decide)
  rw [h.url_eq, List.count_append, Page.count_semicolon_flatMap_escapeChar, h.count_path (by decide)] at hsemicolon
  have hnone : path.countP Page.isMarkup = 0 := by omega
  intro c hc
  simpa using List.countP_eq_zero.mp hnone c hc

theorem escaped_eq (h : Fetched path trimmed slashes url) : path.flatMap Page.escapeChar = path :=
  Page.flatMap_escapeChar_of_not_isMarkup h.not_isMarkup

theorem trimmed_eq (h : Fetched path trimmed slashes url) : trimmed = path := by
  have hslash := h.count_mark (d := '/') (by decide)
  rw [h.url_eq, h.escaped_eq, List.count_append, h.path_eq, List.count_append] at hslash
  have hnone : '/' ∉ slashes := List.count_eq_zero.mp (by omega)
  have hempty : slashes = [] := List.eq_nil_iff_forall_not_mem.mpr fun c hc => hnone (h.slashes c hc ▸ hc)
  rw [h.path_eq, hempty, List.append_nil]

/-- A backslash would make the address shorter than the mount path. -/
theorem notMem_backslash (h : Fetched path trimmed slashes url) : '\\' ∉ path ++ "/data".toList := by
  have hlength := (h.literal.exact_of_count_backslash h.count_backslash).2
  rw [h.escaped_eq, h.url_eq, h.trimmed_eq] at hlength
  exact List.count_eq_zero.mp (by omega)

theorem isPlainPath (h : Fetched path trimmed slashes url) : isPlainPath path = true := by
  have hplain := h.literal.plain_of_notMem (h.escaped_eq.symm ▸ h.notMem_backslash)
  refine (isPlainPath_iff path).mpr ⟨h.trimmed_eq ▸ h.last, fun c hc htrouble => ?_⟩
  have hcases : ∀ c ∈ troubling, Page.isMarkup c = true ∨ c ∈ ['"', '\\', '\n', '\r'] ∨ c = '?' :=
    Text.forall_mem_of_all (by decide)
  rcases hcases c htrouble with hmarkup | hbreak | rfl
  · rw [h.not_isMarkup c hc] at hmarkup
    cases hmarkup
  · exact hplain c (by rw [h.escaped_eq]; exact List.mem_append_left _ hc) hbreak
  · exact h.notMem_question (by rw [h.url_eq, h.trimmed_eq]; exact List.mem_append_left _ hc)

end Fetched

/-- If the path that is read from the escaped one leads to the data, the mount path is plain. -/
theorem isPlainPath_of_literal {path url : List Char}
    (hliteral : Script.Literal (path.flatMap Page.escapeChar ++ "/data".toList) (Script.utf16 url))
    (hurl : url.takeWhile (· != '?') = dropEndWhile (· == '/') path ++ "/data".toList) : isPlainPath path = true := by
  obtain ⟨slashes, hpath, hslashes⟩ := exists_dropEndWhile_append (· == '/') path
  have hfetched : Fetched path (dropEndWhile (· == '/') path) slashes url :=
    { literal := hliteral
      path_eq := hpath
      slashes := fun c hc => by simpa using hslashes c hc
      last := fun h => absurd (getLast?_dropEndWhile _ _ h) (by decide)
      leads := hurl }
  exact hfetched.isPlainPath

theorem dropEndWhile_slash_eq_self {path : List Char} (h : path.getLast? ≠ some '/') :
    dropEndWhile (· == '/') path = path := by
  obtain ⟨slashes, hpath, hslashes⟩ := exists_dropEndWhile_append (· == '/') path
  rcases List.eq_nil_or_concat slashes with rfl | ⟨front, c, rfl⟩
  · rw [List.append_nil] at hpath
    exact hpath.symm
  · obtain rfl : c = '/' := by simpa using hslashes c (by simp)
    refine absurd ?_ h
    rw [hpath, List.concat_eq_append, ← List.append_assoc, List.getLast?_concat]

/-- A plain mount path is neither escaped nor trimmed, and a script reads it as it is. -/
theorem spec_of_isPlainPath {path : List Char} (h : isPlainPath path = true) :
    path.flatMap Page.escapeChar = path ∧ dropEndWhile (· == '/') path = path ∧
      ∀ c ∈ path, c ∉ ['"', '\\', '\n', '\r'] ∧ c ≠ '?' := by
  obtain ⟨hlast, hchars⟩ := (isPlainPath_iff path).mp h
  have hmarkup : ∀ c ∈ path, Page.isMarkup c = false := by
    intro c hc
    by_contra hm
    have hsub : ∀ c ∈ ['&', '<', '>', '"'], c ∈ troubling := Text.forall_mem_of_all (by decide)
    exact hchars c hc (hsub c (Page.cases_of_isMarkup (by simpa using hm)))
  have hsub : ∀ c ∈ ['"', '\\', '\n', '\r', '?'], c ∈ troubling := Text.forall_mem_of_all (by decide)
  refine ⟨Page.flatMap_escapeChar_of_not_isMarkup hmarkup, dropEndWhile_slash_eq_self hlast, fun c hc => ⟨fun h => ?_, ?_⟩⟩
  · exact hchars c hc (hsub c (List.mem_append_left ['?'] h))
  · rintro rfl
    exact hchars '?' hc (by decide)

/-! ### The page and the service -/

namespace Page

theorem isPrefix_of_escaped {key s : List Char} (hkey : '&' ∉ key) (h : key <+: s.flatMap escapeChar) :
    key <+: s := by
  induction s generalizing key with
  | nil => exact h
  | cons c s ih =>
    cases key with
    | nil => exact List.nil_prefix
    | cons k key =>
      rw [List.mem_cons, not_or] at hkey
      by_cases hc : isMarkup c = true
      · have hstart : ∀ c ∈ ['&', '<', '>', '"'], (escapeChar c).head? = some '&' :=
          Text.forall_mem_of_all (by decide)
        obtain ⟨rest, hrest⟩ := List.head?_eq_some_iff.mp (hstart c (cases_of_isMarkup hc))
        rw [List.flatMap_cons, hrest, List.cons_append] at h
        exact absurd (List.cons_prefix_cons.mp h).1.symm hkey.1
      · rw [List.flatMap_cons, escapeChar_of_not_isMarkup (by simpa using hc), List.singleton_append] at h
        obtain ⟨rfl, hrest⟩ := List.cons_prefix_cons.mp h
        exact List.cons_prefix_cons.mpr ⟨rfl, ih hkey.2 hrest⟩

/-- The title's place stands in an escaped text only if it stands in the text itself. -/
theorem titlePlace_infix_of_escaped {s : List Char} (h : titlePlace.toList <:+: s.flatMap escapeChar) :
    titlePlace.toList <:+: s := by
  induction s with
  | nil => exact h
  | cons c s ih =>
    rw [List.flatMap_cons] at h
    by_cases hc : isMarkup c = true
    · have hentity : ∀ c ∈ ['&', '<', '>', '"'], (escapeChar c).getLast? = some ';' ∧
          ¬ titlePlace.toList <:+: (escapeChar c).dropLast := Text.forall_mem_of_all (by decide)
      obtain ⟨hsemicolon, hfront⟩ := hentity c (cases_of_isMarkup hc)
      rw [← List.dropLast_append_getLast? _ hsemicolon, List.append_assoc, List.singleton_append] at h
      exact List.infix_cons (ih ((infix_append_cons (by decide) h).resolve_left hfront))
    · rw [escapeChar_of_not_isMarkup (by simpa using hc), List.singleton_append, List.infix_cons_iff] at h
      rcases h with h | h
      · refine (isPrefix_of_escaped (s := c :: s) (by decide) ?_).isInfix
        rwa [List.flatMap_cons, escapeChar_of_not_isMarkup (by simpa using hc), List.singleton_append]
      · exact List.infix_cons (ih h)

theorem shownPath_eq {settings : Settings} (h : ¬ titlePlace.toList <:+: settings.urlPrefix.toList) :
    shownPath settings = settings.urlPrefix.toList.flatMap escapeChar := by
  rw [shownPath, toList_escape settings.urlPrefix]
  exact replace_eq_self _ (by decide) (mt titlePlace_infix_of_escaped h)

end Page

namespace Settings
variable {settings : Settings}

/-- A request is answered with the payload exactly when its path leads to the data. -/
theorem serve_eq_payload_iff (hv : settings.validate = .ok ()) (he : settings.enable = true)
    (hd : settings.passwordDigest = none) (request : Request) (source : RouteSource) :
    settings.serve request source = .ok ⟨200, "application/json",
      (Payload.build settings (Aggregate.build settings source) (request.header? "Referer")).text⟩ ↔
    request.path.toList.takeWhile (· != '?') = settings.mountPath.toList ++ "/data".toList := by
  have hadmits : settings.admits request = true := by rw [admits, hd]
  rw [serve_eq_answer hv, answer, ← endpointAt?_eq_data_iff he]
  cases settings.endpointAt? request.path with
  | none => simp [Response.refusal, Response.json]
  | some endpoint =>
    cases endpoint with
    | index => simp
    | data => simp [answerData, hadmits, Response.json]

/-- The address that the viewer page assigns is answered with the payload exactly when the mount path is plain. A mount path
with the title's place in it is left out: the page shows the title there, and the service does not. -/
theorem serve_dataUrl_iff (hv : settings.validate = .ok ()) (he : settings.enable = true)
    (hd : settings.passwordDigest = none) (htitle : ¬ Page.titlePlace.toList <:+: settings.urlPrefix.toList)
    (headers : List (String × String)) (source : RouteSource) :
    (∃ url : String, Page.dataUrl? (Page.index settings) = some (Script.utf16 url.toList) ∧
      settings.serve ⟨url, headers⟩ source = .ok ⟨200, "application/json",
        (Payload.build settings (Aggregate.build settings source) (Request.header? ⟨url, headers⟩ "Referer")).text⟩) ↔
    isPlainPath settings.urlPrefix.toList = true := by
  obtain ⟨rest, hassigned⟩ := Page.dataUrl?_index settings
  rw [Page.shownPath_eq htitle] at hassigned
  simp only [serve_eq_payload_iff hv he hd, hassigned, toList_mountPath]
  constructor
  · rintro ⟨url, hread, hpath⟩
    have hquote : '"' ∉ settings.urlPrefix.toList.flatMap Page.escapeChar ++ "/data".toList := by
      rw [List.mem_append, not_or, ← Page.toList_escape]
      exact ⟨(Page.notMem_escape _).2, by decide⟩
    have hlast : (settings.urlPrefix.toList.flatMap Page.escapeChar ++ "/data".toList).getLast? ≠ some '\\' := by
      rw [List.getLast?_append_of_ne_nil _ (by decide)]
      decide
    exact isPlainPath_of_literal (Script.literal_of_read? hread hquote hlast) hpath
  · intro hplain
    obtain ⟨hescaped, htrimmed, hchars⟩ := spec_of_isPlainPath hplain
    have hliteral : ∀ c ∈ settings.urlPrefix.toList ++ "/data".toList, c ∉ ['"', '\\', '\n', '\r'] ∧ c ≠ '?' :=
      List.forall_mem_append.mpr ⟨hchars, Text.forall_mem_of_all (by decide)⟩
    refine ⟨settings.urlPrefix ++ "/data", ?_, ?_⟩
    · rw [hescaped, Script.string?, Script.read?_of_plain fun c hc => (hliteral c hc).1, String.toList_append]
    · rw [htrimmed, String.toList_append]
      exact List.takeWhile_eq_self_iff.mpr fun c hc => bne_iff_ne.mpr (hliteral c hc).2

/-- The page fetches the payload, also where another script assigns an address of its own. -/
theorem serve_dataUrl_shop :
    let settings : Settings :=
      { member := ["shop"], urlPrefix := "/docs/v2;'é", cdn := true,
        cdnJsTemplate := "<script>var dataUrl = \"/other\";</script>" }
    let source := (Application.ofRegistrations
      [.routeWithEndpoint "/goods" ["get"] "shop.list_all" { name := "list_all" }]).source
    settings.validate = .ok () ∧ settings.enable = true ∧ settings.passwordDigest = none ∧
      ¬ Page.titlePlace.toList <:+: settings.urlPrefix.toList ∧
      ∃ url : String, Page.dataUrl? (Page.index settings) = some (Script.utf16 url.toList) ∧
        settings.serve ⟨url, []⟩ source = .ok ⟨200, "application/json",
          (Payload.build settings (Aggregate.build settings source) none).text⟩ := by
  intro settings source
  have hv : settings.validate = .ok () := by decide
  have htitle : ¬ Page.titlePlace.toList <:+: settings.urlPrefix.toList := by decide
  exact ⟨hv, rfl, rfl, htitle, (serve_dataUrl_iff hv rfl rfl htitle [] source).mpr (by decide)⟩

/-- Under a mount path with a trailing slash the page asks for the data where nothing is mounted. -/
theorem dataUrl_not_mounted :
    let settings : Settings := { urlPrefix := "/docs/" }
    settings.validate = .ok () ∧ settings.enable = true ∧ settings.passwordDigest = none ∧
      Page.dataUrl? (Page.index settings) = some (Script.utf16 "/docs//data".toList) ∧
      settings.endpointAt? "/docs/data" = some .data ∧
      ∀ source : RouteSource, settings.serve ⟨"/docs//data", []⟩ source =
        .ok ⟨404, "application/json", "\x7b\"error\":\"Not Found\"\x7d"⟩ := by
  intro settings
  have hv : settings.validate = .ok () := by decide
  have hbody : Response.refusal 404 "Not Found" = ⟨404, "application/json", "\x7b\"error\":\"Not Found\"\x7d"⟩ := by
    decide
  obtain ⟨rest, hassigned⟩ := Page.dataUrl?_index settings
  have hshown : Page.shownPath settings ++ "/data".toList = "/docs//data".toList := by
    rw [Page.shownPath_eq (by decide)]
    decide
  have hmounted : settings.endpointAt? "/docs//data" = none := by decide
  refine ⟨hv, rfl, rfl, ?_, by decide, fun source => ?_⟩
  · rw [hassigned, hshown, Script.string?, Script.read?_of_plain (Text.forall_mem_of_all (by decide))]
  · rw [serve_eq_answer hv, answer, hmounted]
    exact congrArg Except.ok hbody

end Settings
end ApiHandbook
