import ApiHandbook.Proofs.InlinedText
import ApiHandbook.Proofs.ScriptMarks

/-! How a browser reads the text of a script element, after the script data states of HTML's tokenizer. An end tag ends the
element, except behind a start tag of a script inside a comment. Only the order of a few marks matters for that. -/
namespace ApiHandbook.Page
open Text

/-- Where the tokenizer stands. The names of tags are kept in small letters. -/
inductive ScriptState where
  | data
  | lessThan
  | endTagOpen
  | endTagName (name : List Char)
  | escapeStart
  | escapeStartDash
  /-- Inside a comment, behind that many dashes. -/
  | escaped (dashes : Nat)
  | escapedLessThan
  | escapedEndTagOpen
  | escapedEndTagName (name : List Char)
  | doubleEscapeStart (name : List Char)
  /-- Inside a comment and behind the start tag of a script in it. -/
  | doubleEscaped (dashes : Nat)
  | doubleEscapedLessThan
  | doubleEscapeEnd (name : List Char)
  /-- Behind the name of an end tag of the element. -/
  | closed
  deriving DecidableEq, Repr

namespace ScriptState

def ofData (c : Char) : ScriptState := if c = '<' then .lessThan else .data

/-- What a character does in a comment behind that many dashes. -/
def ofComment (behind : Nat → ScriptState) (less : ScriptState) (dashes : Nat) (c : Char) : ScriptState :=
  if c = '-' then behind (dashes + 1)
  else if c = '<' then less
  else if c = '>' ∧ 2 ≤ dashes then .data
  else behind 0

def ofEscaped : Nat → Char → ScriptState := ofComment .escaped .escapedLessThan

def ofDoubleEscaped : Nat → Char → ScriptState := ofComment .doubleEscaped .doubleEscapedLessThan

/-- What a character does behind the start of a tag's name. If it ends the name of a script, the tag is found. -/
def ofName (found : ScriptState) (more : List Char → ScriptState) (other : Char → ScriptState) (name : List Char)
    (c : Char) : ScriptState :=
  if isTagEnd c ∧ name = scriptName then found
  else if c.isAlpha then more (name ++ [c.toLower])
  else other c

def ofEndTagName : List Char → Char → ScriptState := ofName .closed .endTagName ofData

def ofEscapedEndTagName : List Char → Char → ScriptState := ofName .closed .escapedEndTagName (ofEscaped 0)

def ofDoubleEscapeStart : List Char → Char → ScriptState := ofName (.doubleEscaped 0) .doubleEscapeStart (ofEscaped 0)

def ofDoubleEscapeEnd : List Char → Char → ScriptState := ofName (.escaped 0) .doubleEscapeEnd (ofDoubleEscaped 0)

/-- The state behind one more character. A state that does not expect the character leaves it to an enclosing one. -/
def step : ScriptState → Char → ScriptState
  | .data, c => ofData c
  | .lessThan, c => if c = '/' then .endTagOpen else if c = '!' then .escapeStart else ofData c
  | .endTagOpen, c => ofEndTagName [] c
  | .endTagName name, c => ofEndTagName name c
  | .escapeStart, c => if c = '-' then .escapeStartDash else ofData c
  | .escapeStartDash, c => if c = '-' then .escaped 2 else ofData c
  | .escaped dashes, c => ofEscaped dashes c
  | .escapedLessThan, c => if c = '/' then .escapedEndTagOpen else ofDoubleEscapeStart [] c
  | .escapedEndTagOpen, c => ofEscapedEndTagName [] c
  | .escapedEndTagName name, c => ofEscapedEndTagName name c
  | .doubleEscapeStart name, c => ofDoubleEscapeStart name c
  | .doubleEscaped dashes, c => ofDoubleEscaped dashes c
  | .doubleEscapedLessThan, c => if c = '/' then .doubleEscapeEnd [] else ofDoubleEscaped 0 c
  | .doubleEscapeEnd name, c => ofDoubleEscapeEnd name c
  | .closed, _ => .closed

def run (q : ScriptState) (s : List Char) : ScriptState := s.foldl step q

/-- What follows the end tag of the element, of whose text the given one is the rest. -/
def afterEndTag? : ScriptState → List Char → Option (List Char)
  | .closed, s => some s
  | _, [] => none
  | q, c :: s => (q.step c).afterEndTag? s

end ScriptState

/-! ### The marks and the states -/

/-- The depth behind a text without end tags. -/
def depthAfter (depth : Depth) (s : List Char) : Depth := (scriptMarks isTagEnd s).foldl Depth.next depth

theorem depthAfter_cons (depth : Depth) (c : Char) (s : List Char) :
    depthAfter depth (c :: s) = depthAfter ((mark? isTagEnd (c :: s)).elim depth depth.next) s := by
  rw [depthAfter, depthAfter, scriptMarks, List.foldl_append]
  cases mark? isTagEnd (c :: s) <;> rfl

theorem depthAfter_of_ne {c : Char} (hless : c ≠ '<') (hdash : c ≠ '-') (depth : Depth) (s : List Char) :
    depthAfter depth (c :: s) = depthAfter depth s := by
  rw [depthAfter_cons, mark?_of_ne hless hdash, Option.elim_none]

theorem depthAfter_append_of_all {t : List Char} (h : t.all startsNone) (depth : Depth) (s : List Char) :
    depthAfter depth (t ++ s) = depthAfter depth s := by
  rw [depthAfter, depthAfter, scriptMarks_append_of_all h]

theorem depthAfter_dashes {c : Char} (hless : c ≠ '<') (hdash : c ≠ '-') (depth : Depth) (dashes : Nat) (s : List Char) :
    depthAfter depth (List.replicate dashes '-' ++ c :: s) =
      depthAfter (if c = '>' ∧ 2 ≤ dashes then depth.next .close else depth) s := by
  rw [depthAfter, scriptMarks_dashes hdash, scriptMarks_of_ne hless hdash, List.foldl_append]
  split <;> rfl

theorem depthAfter_dashes_lessThan (depth : Depth) (dashes : Nat) (s : List Char) :
    depthAfter depth (List.replicate dashes '-' ++ '<' :: s) = depthAfter depth ('<' :: s) := by
  rw [depthAfter, scriptMarks_dashes (by decide), if_neg (by simp)]
  rfl

namespace ScriptState

def depth : ScriptState → Depth
  | .escaped _ | .escapedLessThan | .escapedEndTagOpen | .escapedEndTagName _ | .doubleEscapeStart _ => .escaped
  | .doubleEscaped _ | .doubleEscapedLessThan | .doubleEscapeEnd _ => .doubled
  | _ => .plain

/-- The characters read last, with which a mark may start. -/
def pending : ScriptState → List Char
  | .lessThan | .escapedLessThan | .doubleEscapedLessThan => ['<']
  | .escapeStart => ['<', '!']
  | .escapeStartDash => ['<', '!', '-']
  | .escaped dashes | .doubleEscaped dashes => List.replicate dashes '-'
  | .doubleEscapeStart name => '<' :: name
  | _ => []

/-- The depth to which the marks of a text lead from a state. -/
def after (q : ScriptState) (s : List Char) : Depth := depthAfter q.depth (q.pending ++ s)

/-- Whether a state can be reached where no end tag stands. -/
def Untagged : ScriptState → Prop
  | .endTagOpen | .endTagName _ | .escapedEndTagOpen | .escapedEndTagName _ | .doubleEscapeEnd _ | .closed => False
  | .doubleEscapeStart name => (∀ c ∈ name, c.isAlpha) ∧ asciiLower name = name
  | _ => True

/-- Whether a slash is part of an end tag. -/
def IsLess : ScriptState → Prop
  | .lessThan | .escapedLessThan | .doubleEscapedLessThan => True
  | _ => False

/-- Whether the marks of a text without end tags lead from a state to a depth. -/
structure Leads (q : ScriptState) (s : List Char) (depth : Depth) : Prop where
  untagged : q.Untagged
  after_eq : q.after s = depth

theorem leads_ofData (c : Char) (s : List Char) : (ofData c).Leads s (depthAfter .plain (c :: s)) := by
  rw [ofData]
  split
  · subst c
    exact ⟨trivial, rfl⟩
  · rename_i hless
    refine ⟨trivial, ?_⟩
    show depthAfter .plain s = depthAfter .plain (c :: s)
    rw [depthAfter_cons, mark?, if_neg hless]
    split <;> rfl

theorem leads_ofComment {behind : Nat → ScriptState} {less : ScriptState} {depth : Depth}
    (hbehind : ∀ dashes s, (behind dashes).Leads s (depthAfter depth (List.replicate dashes '-' ++ s)))
    (hstart : ∀ s, less.Leads s (depthAfter depth ('<' :: s))) (hnext : depth.next .close = .plain) (dashes : Nat)
    (c : Char) (s : List Char) :
    (ofComment behind less dashes c).Leads s (depthAfter depth (List.replicate dashes '-' ++ c :: s)) := by
  rw [ofComment]
  split_ifs with hdash hless hclose
  · rw [hdash, List.append_cons, ← List.replicate_succ']
    exact hbehind (dashes + 1) s
  · rw [hless, depthAfter_dashes_lessThan]
    exact hstart s
  · rw [depthAfter_dashes hless hdash, if_pos hclose, hnext]
    exact ⟨trivial, rfl⟩
  · rw [depthAfter_dashes hless hdash, if_neg hclose]
    exact hbehind 0 s

theorem leads_ofEscaped (dashes : Nat) (c : Char) (s : List Char) :
    (ofEscaped dashes c).Leads s (depthAfter .escaped (List.replicate dashes '-' ++ c :: s)) := by
  refine leads_ofComment (fun _ _ => ?_) (fun _ => ?_) rfl dashes c s <;> exact ⟨trivial, rfl⟩

theorem leads_ofDoubleEscaped (dashes : Nat) (c : Char) (s : List Char) :
    (ofDoubleEscaped dashes c).Leads s (depthAfter .doubled (List.replicate dashes '-' ++ c :: s)) := by
  refine leads_ofComment (fun _ _ => ?_) (fun _ => ?_) rfl dashes c s <;> exact ⟨trivial, rfl⟩

/-- Outside comments a name leads nowhere. -/
theorem depthAfter_plain_lessThan {c : Char} (h : c ≠ '!') (s : List Char) :
    depthAfter .plain ('<' :: c :: s) = depthAfter .plain (c :: s) := by
  rw [depthAfter_cons, mark?_lessThan_of_ne h]
  split <;> rfl

theorem leads_lessThan {c : Char} (hslash : c ≠ '/') (s : List Char) :
    (step .lessThan c).Leads s (after .lessThan (c :: s)) := by
  rw [step, if_neg hslash]
  split_ifs with h
  · subst c
    exact ⟨trivial, rfl⟩
  · show (ofData c).Leads s (depthAfter .plain ('<' :: c :: s))
    rw [depthAfter_plain_lessThan h]
    exact leads_ofData c s

theorem leads_escapeStart (c : Char) (s : List Char) :
    (step .escapeStart c).Leads s (after .escapeStart (c :: s)) := by
  rw [step]
  split_ifs with h
  · subst c
    exact ⟨trivial, rfl⟩
  · have hmark : mark? isTagEnd ('<' :: '!' :: c :: s) = none := by
      simp [mark?, namesScript, List.cons_prefix_cons, Ne.symm h, asciiLower, scriptName]
    show (ofData c).Leads s (depthAfter .plain ('<' :: '!' :: c :: s))
    rw [depthAfter_cons, hmark, Option.elim_none, depthAfter_of_ne (by decide) (by decide)]
    exact leads_ofData c s

theorem leads_escapeStartDash (c : Char) (s : List Char) :
    (step .escapeStartDash c).Leads s (after .escapeStartDash (c :: s)) := by
  rw [step]
  split_ifs with h
  · subst c
    refine ⟨trivial, ?_⟩
    show depthAfter .escaped ('-' :: '-' :: s) = depthAfter .plain ('<' :: '!' :: '-' :: '-' :: s)
    rw [depthAfter_cons .plain, mark?, if_pos rfl, if_pos (by simp [List.cons_prefix_cons]), Option.elim_some,
      depthAfter_of_ne (c := '!') (by decide) (by decide)]
    rfl
  · have hmark : mark? isTagEnd ('<' :: '!' :: '-' :: c :: s) = none := by
      simp [mark?, namesScript, List.cons_prefix_cons, Ne.symm h, asciiLower, scriptName]
    show (ofData c).Leads s (depthAfter .plain ('<' :: '!' :: '-' :: c :: s))
    rw [depthAfter_cons, hmark, Option.elim_none, depthAfter_of_ne (by decide) (by decide), depthAfter_cons,
      mark?_dash_of_ne h, Option.elim_none]
    exact leads_ofData c s

/-- Inside a comment the name of a script leads deeper, if it is the whole name. -/
theorem depthAfter_escaped_name {name : List Char} (hname : ∀ c ∈ name, c.isAlpha) (s : List Char) :
    depthAfter .escaped ('<' :: (name ++ s)) =
      depthAfter (if namesScript isTagEnd (name ++ s) then .doubled else .escaped) s := by
  have hplain : name.all startsNone := List.all_eq_true.mpr fun c hc => startsNone_of_isAlpha (hname c hc)
  rw [depthAfter_cons, mark?, if_pos rfl, depthAfter_append_of_all hplain]
  by_cases hcomment : ['!', '-', '-'] <+: name ++ s
  · have hnames : namesScript isTagEnd (name ++ s) = false := by
      obtain ⟨rest, hrest⟩ := hcomment
      rw [← hrest]
      rfl
    rw [if_pos hcomment, hnames]
    rfl
  · rw [if_neg hcomment]
    split <;> rfl

theorem leads_letter {name : List Char} (hname : ∀ c ∈ name, c.isAlpha) (hlower : asciiLower name = name) {c : Char}
    (hc : c.isAlpha) (s : List Char) :
    (doubleEscapeStart (name ++ [c.toLower])).Leads s (depthAfter .escaped ('<' :: (name ++ c :: s))) := by
  have hletters : ∀ d ∈ name ++ [c], d.isAlpha := List.forall_mem_append.mpr ⟨hname, by simpa using hc⟩
  have hsmall : ∀ d ∈ name ++ [c.toLower], d.isAlpha :=
    List.forall_mem_append.mpr ⟨hname, by simpa using isAlpha_toLower hc⟩
  have hcase : asciiLower (name ++ [c.toLower]) = asciiLower (name ++ [c]) := by
    rw [asciiLower, asciiLower, List.map_append, List.map_append, List.map_singleton, List.map_singleton, toLower_toLower]
  refine ⟨⟨hsmall, ?_⟩, ?_⟩
  · rw [hcase, asciiLower, List.map_append, ← asciiLower, hlower, List.map_singleton]
  · show depthAfter .escaped ('<' :: (name ++ [c.toLower] ++ s)) = _
    rw [List.append_cons name c s, depthAfter_escaped_name hsmall, depthAfter_escaped_name hletters,
      namesScript_append hsmall, namesScript_append hletters, hcase]

theorem leads_ofDoubleEscapeStart {name : List Char} (hname : ∀ c ∈ name, c.isAlpha) (hlower : asciiLower name = name)
    (c : Char) (s : List Char) :
    (ofDoubleEscapeStart name c).Leads s (depthAfter .escaped ('<' :: (name ++ c :: s))) := by
  rw [ofDoubleEscapeStart, ofName]
  by_cases hc : c.isAlpha
  · rw [if_neg fun h => not_isAlpha_of_isTagEnd h.1 hc, if_pos hc]
    exact leads_letter hname hlower hc s
  · rw [depthAfter_escaped_name hname, namesScript_append_cons hname hc, hlower, if_neg hc]
    by_cases hfound : isTagEnd c ∧ name = scriptName
    · have hplain : c ≠ '<' ∧ c ≠ '-' := by constructor <;> rintro rfl <;> exact absurd hfound.1 (by decide)
      rw [if_pos hfound, depthAfter_of_ne hplain.1 hplain.2, if_pos (by simp [hfound])]
      exact ⟨trivial, rfl⟩
    · have hnone : ¬ (name == scriptName && isTagEnd c) = true := by simpa [and_comm] using hfound
      rw [if_neg hfound, if_neg hnone]
      exact leads_ofEscaped 0 c s

/-- Behind the start tag of a script inside a comment only the end of the comment leads anywhere. -/
theorem depthAfter_doubled_lessThan (s : List Char) : depthAfter .doubled ('<' :: s) = depthAfter .doubled s := by
  rw [depthAfter_cons, mark?, if_pos rfl]
  split_ifs <;> rfl

theorem leads_doubleEscapedLessThan {c : Char} (hslash : c ≠ '/') (s : List Char) :
    (step .doubleEscapedLessThan c).Leads s (after .doubleEscapedLessThan (c :: s)) := by
  rw [step, if_neg hslash]
  show (ofDoubleEscaped 0 c).Leads s (depthAfter .doubled ('<' :: c :: s))
  rw [depthAfter_doubled_lessThan]
  exact leads_ofDoubleEscaped 0 c s

/-- A character that is not part of an end tag leads to where the marks do. -/
theorem leads_step {q : ScriptState} (hq : q.Untagged) {c : Char} (hslash : q.IsLess → c ≠ '/') (s : List Char) :
    (q.step c).Leads s (q.after (c :: s)) := by
  cases q with
  | data => exact leads_ofData c s
  | lessThan => exact leads_lessThan (hslash trivial) s
  | escapeStart => exact leads_escapeStart c s
  | escapeStartDash => exact leads_escapeStartDash c s
  | escaped dashes => exact leads_ofEscaped dashes c s
  | escapedLessThan =>
    rw [step, if_neg (hslash trivial)]
    exact leads_ofDoubleEscapeStart (List.forall_mem_nil _) rfl c s
  | doubleEscapeStart name => exact leads_ofDoubleEscapeStart hq.1 hq.2 c s
  | doubleEscaped dashes => exact leads_ofDoubleEscaped dashes c s
  | doubleEscapedLessThan => exact leads_doubleEscapedLessThan (hslash trivial) s
  | endTagOpen | endTagName | escapedEndTagOpen | escapedEndTagName | doubleEscapeEnd | closed => exact hq.elim

theorem isLess_step {q : ScriptState} {c : Char} (h : (q.step c).IsLess) : c = '<' := by
  refine Decidable.byContradiction fun hc => ?_
  cases q <;> simp only [step, ofData, ofEscaped, ofDoubleEscaped, ofComment, ofEndTagName, ofEscapedEndTagName,
    ofDoubleEscapeStart, ofDoubleEscapeEnd, ofName, if_neg hc] at h
  case data | closed => exact h
  all_goals split_ifs at h <;> exact h

/-- A text without end tags leads to where its marks do. -/
theorem leads_run {q : ScriptState} {s t : List Char} (hq : q.Untagged) (hslash : q.IsLess → ¬ ['/'] <+: s)
    (hs : ¬ Json.tag <:+: s) : (q.run s).Leads t (q.after (s ++ t)) := by
  induction s generalizing q with
  | nil => exact ⟨hq, rfl⟩
  | cons c s ih =>
    have hc : q.IsLess → c ≠ '/' := fun hless hc => hslash hless (hc ▸ ⟨s, rfl⟩)
    obtain ⟨hstep, hafter⟩ := leads_step hq hc (s ++ t)
    rw [List.cons_append, ← hafter]
    refine ih hstep (fun hless hp => hs ?_) fun htag => hs (htag.trans (List.suffix_cons c s).isInfix)
    obtain ⟨rest, rfl⟩ := hp
    obtain rfl := isLess_step hless
    exact ⟨[], rest, rfl⟩

theorem run_closed (s : List Char) : closed.run s = closed := by
  induction s with
  | nil => rfl
  | cons c s ih => exact ih

theorem afterEndTag?_cons {q : ScriptState} (hq : q ≠ .closed) (c : Char) (s : List Char) :
    q.afterEndTag? (c :: s) = (q.step c).afterEndTag? s := by
  cases q
  case closed => exact absurd rfl hq
  all_goals rfl

theorem afterEndTag?_append {q : ScriptState} {s : List Char} (h : q.run s ≠ .closed) (t : List Char) :
    q.afterEndTag? (s ++ t) = (q.run s).afterEndTag? t := by
  induction s generalizing q with
  | nil => rfl
  | cons c s ih =>
    have hq : q ≠ .closed := by
      rintro rfl
      exact h (run_closed _)
    rw [List.cons_append, afterEndTag?_cons hq, ih h]
    rfl

theorem afterEndTag?_closed (s : List Char) : closed.afterEndTag? s = some s := by
  cases s <;> rfl

theorem afterEndTag?_of_step {q : ScriptState} {s : List Char} {c : Char} (h : q.run s ≠ .closed)
    (hc : (q.run s).step c = .closed) (t : List Char) : q.afterEndTag? (s ++ c :: t) = some t := by
  rw [afterEndTag?_append h, afterEndTag?_cons h, hc, afterEndTag?_closed]

theorem length_lt_of_afterEndTag? {q : ScriptState} (hq : q ≠ .closed) {s t : List Char} (h : q.afterEndTag? s = some t) :
    t.length < s.length := by
  induction s generalizing q with
  | nil =>
    cases q
    case closed => exact absurd rfl hq
    all_goals cases h
  | cons c s ih =>
    rw [afterEndTag?_cons hq] at h
    by_cases hstep : q.step c = .closed
    · rw [hstep, afterEndTag?, Option.some.injEq] at h
      rw [← h]
      exact Nat.lt_succ_self _
    · exact Nat.lt_trans (ih hstep h) (Nat.lt_succ_self _)

end ScriptState

/-- The state at a depth where no mark has started. -/
def Depth.state : Depth → ScriptState
  | .plain => .data
  | .escaped => .escaped 0
  | .doubled => .doubleEscaped 0

theorem Depth.after_state (depth : Depth) : depth.state.after [] = depth := by
  cases depth <;> rfl

/-- The end tag of a script, as the page writes it. -/
def endTag : List Char := ['<', '/', 's', 'c', 'r', 'i', 'p', 't', '>']

theorem afterEndTag?_endTag (depth : Depth) (s : List Char) :
    depth.state.afterEndTag? (endTag ++ s) = some s ↔ depth ≠ .doubled := by
  have hends {q : ScriptState} (h : q.run endTag.dropLast ≠ .closed) (hc : (q.run endTag.dropLast).step '>' = .closed) :
      q.afterEndTag? (endTag ++ s) = some s := ScriptState.afterEndTag?_of_step h hc s
  cases depth with
  | plain => exact iff_of_true (hends (by decide) rfl) (by decide)
  | escaped => exact iff_of_true (hends (by decide) rfl) (by decide)
  | doubled =>
    -- The end tag leads out of the inner script only, and what follows would have to be shorter than it is.
    refine iff_of_false (fun h => ?_) (by decide)
    rw [ScriptState.afterEndTag?_append (by decide)] at h
    exact absurd (ScriptState.length_lt_of_afterEndTag? (by decide) h) (Nat.lt_irrefl _)

theorem ScriptState.step_semicolon {q : ScriptState} (hq : q.Untagged) : q.step ';' = (q.step ';').depth.state := by
  cases q with
  | endTagOpen | endTagName | escapedEndTagOpen | escapedEndTagName | doubleEscapeEnd | closed => exact hq.elim
  | _ => rfl

theorem separates_semicolon : Separates isTagEnd ';' := ⟨by decide, by decide, by decide⟩

/-- The element whose text a semicolon ends is closed by the end tag behind it, unless a start tag of a script was read
inside a comment. -/
theorem afterEndTag?_iff {s : List Char} (hs : ¬ Json.tag <:+: s) (t : List Char) :
    ScriptState.data.afterEndTag? (s ++ ';' :: (endTag ++ t)) = some t ↔
      (scriptMarks isTagEnd s).foldl Depth.next .plain ≠ .doubled := by
  have hrun := ScriptState.leads_run (q := .data) (t := [';']) trivial nofun hs
  obtain ⟨huntagged, hafter⟩ := ScriptState.leads_step hrun.untagged (c := ';') (fun _ => by decide) []
  have hstate := ScriptState.step_semicolon hrun.untagged
  have hopen : ScriptState.data.run s ≠ .closed := fun h => (h ▸ hrun.untagged : ScriptState.closed.Untagged)
  have hdepth : ((ScriptState.data.run s).step ';').depth = (scriptMarks isTagEnd s).foldl Depth.next .plain := by
    calc
      _ = ((ScriptState.data.run s).step ';').after [] := by rw [hstate, Depth.after_state, ← hstate]
      _ = depthAfter .plain (s ++ [';']) := hafter.trans hrun.after_eq
      _ = _ := by rw [depthAfter, scriptMarks_append_cons separates_semicolon, scriptMarks, List.append_nil]
  rw [ScriptState.afterEndTag?_append hopen, ScriptState.afterEndTag?_cons hopen, hstate, afterEndTag?_endTag, hdepth]

example : ScriptState.data.afterEndTag? "<!--<script>;</script> </script>".toList = some [] := by decide

end ApiHandbook.Page
