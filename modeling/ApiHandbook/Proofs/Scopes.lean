import ApiHandbook.Project.Actix
import ApiHandbook.Proofs.Sites
import Mathlib.Data.List.Basic

/-! Scopes as they are written: chains of calls on an app, a scope or a resource, with scopes nested in them, and what a
project registers in each scope. -/
namespace ApiHandbook.Project.Actix
open Code

/-- What a project registers. The scopes around come from the outermost inwards. -/
inductive Entry where
  /-- A route that an attribute of a handler declares, with the module of the handler. -/
  | declared (module : Option String) (handler : String) (verbs : List String) (path : String)
  /-- A call of `route` with the path given there or that of the resource it is called on, and with the scope it is called
  on, if it is called on one. -/
  | called (scopes : List String) (own : Option String) (path verb : String) (handler : FunctionName)
  /-- A call of `service` with a handler. -/
  | mounted (scopes : List String) (handler : FunctionName)
  deriving DecidableEq, Repr

/-- The entry seen from outside of more scopes. -/
def Entry.within (scopes : List String) : Entry → Entry
  | .declared module handler verbs path => .declared module handler verbs path
  | .called inner own path verb handler => .called (scopes ++ inner) own path verb handler
  | .mounted inner handler => .mounted (scopes ++ inner) handler

/-- What a chain of calls starts from. -/
inductive Root where
  | scope (path : String)
  | resource (path : String)
  /-- An app or the like. -/
  | other
  deriving DecidableEq, Repr

namespace Root

def scope? : Root → Option String
  | .scope path => some path
  | _ => none

def resource? : Root → Option String
  | .resource path => some path
  | _ => none

end Root

/-- The calls that something can be registered with or inside. -/
def isServiceCall (receiver : Expr) (method : String) : Bool :=
  method == "service" || method == "route" || (rootArgument? "scope" receiver).isSome

/-- Whether nothing is registered and no function stands inside expressions. -/
def isQuiet (es : List Expr) : Bool := (Site.ofExprs isServiceCall { module := none } es).isEmpty

/-- The name of the function that is called. -/
def calledName? : Expr → Option String
  | .call (.path _ p _) _ => p.last?
  | _ => none

def root? (e : Expr) : Option Root :=
  match e with
  | .call (.path _ p []) [.literal (.text path)] =>
    if p.last? = some "scope" then some (.scope path)
    else if p.last? = some "resource" then some (.resource path)
    else some .other
  | e => if calledName? e ≠ some "scope" ∧ calledName? e ≠ some "resource" ∧ isQuiet [e] then some .other else none

/-- The verb and handler of `web::get().to(handler)`. -/
def target? : Expr → Option (String × FunctionName)
  | .methodCall (.call (.path _ function []) []) method [.path _ handler []] =>
    if method = "to" then do return (← function.last?.bind verb?, ← FunctionName.ofPath? handler) else none
  | _ => none

/-- What is registered by a call on a chain without another chain in it. -/
def link? (root : Root) (method : String) (arguments : List Expr) : Option (List Entry) :=
  if method = "service" then
    match root, arguments with
    | .resource _, _ => none
    | root, [.path _ p []] => (FunctionName.ofPath? p).map fun handler => [.mounted root.scope?.toList handler]
    | _, _ => none
  else if method = "route" then
    match root, arguments with
    | .resource path, [target] => (target? target).map fun (verb, handler) => [.called [] none path verb handler]
    | .resource _, _ => none
    | root, [.literal (.text path), target] =>
      (target? target).map fun (verb, handler) => [.called [] root.scope? path verb handler]
    | _, _ => none
  else if isQuiet arguments then some []
  else none

/-- Reads a chain of calls: what it starts from, and what it registers. -/
def chain? : Expr → Option (Root × List Entry)
  | .methodCall receiver method [argument] => do
    let (root, entries) ← chain? receiver
    match link? root method [argument] with
    | some linked => return (root, entries ++ linked)
    | none =>
      let (inner, inside) ← chain? argument
      if method = "service" ∧ root.resource? = none ∧ inner ≠ .other then
        return (root, entries ++ inside.map (.within root.scope?.toList))
      else none
  | .methodCall receiver method arguments => do
    let (root, entries) ← chain? receiver
    return (root, entries ++ (← link? root method arguments))
  | e => (root? e).map (·, [])
termination_by structural e => e

/-- The chains of calls, one rule for each way to go on. -/
inductive Chained : Expr → Root → List Entry → Prop where
  | root {e root} : (∀ receiver method arguments, e ≠ .methodCall receiver method arguments) → root? e = some root →
      Chained e root []
  | link {receiver root entries method arguments linked} : Chained receiver root entries →
      link? root method arguments = some linked → Chained (.methodCall receiver method arguments) root (entries ++ linked)
  | nested {receiver root entries argument inner inside} : Chained receiver root entries → root.resource? = none →
      Chained argument inner inside → inner ≠ .other →
      Chained (.methodCall receiver "service" [argument]) root (entries ++ inside.map (.within root.scope?.toList))

theorem chained_of_chain? {e : Expr} {root : Root} {entries : List Entry} (h : chain? e = some (root, entries)) :
    Chained e root entries := by
  induction e using chain?.induct generalizing root entries with
  | case1 receiver method argument ih iha =>
    rw [chain?] at h
    obtain ⟨⟨first, before⟩, hfirst, h⟩ := Option.bind_eq_some_iff.mp h
    dsimp only at h
    cases hlink : link? first method [argument] with
    | some linked =>
      rw [hlink] at h
      obtain ⟨rfl, rfl⟩ := Prod.mk.inj (Option.some.inj h)
      exact .link (ih hfirst) hlink
    | none =>
      rw [hlink] at h
      obtain ⟨⟨inner, inside⟩, hinner, h⟩ := Option.bind_eq_some_iff.mp h
      by_cases hnested : method = "service" ∧ first.resource? = none ∧ inner ≠ .other
      · rw [if_pos hnested] at h
        obtain ⟨rfl, rfl⟩ := Prod.mk.inj (Option.some.inj h)
        obtain ⟨rfl, hroot, hother⟩ := hnested
        exact .nested (ih hfirst) hroot (iha hinner) hother
      · rw [if_neg hnested] at h
        cases h
  | case2 receiver method arguments hone ih =>
    rw [chain?] at h
    · obtain ⟨⟨first, before⟩, hfirst, h⟩ := Option.bind_eq_some_iff.mp h
      obtain ⟨linked, hlink, h⟩ := Option.bind_eq_some_iff.mp h
      obtain ⟨rfl, rfl⟩ := Prod.mk.inj (Option.some.inj h)
      exact .link (ih hfirst) hlink
    · exact hone
  | case3 e hone hmany =>
    rw [chain?] at h
    · obtain ⟨first, hfirst, h⟩ := Option.map_eq_some_iff.mp h
      obtain ⟨rfl, rfl⟩ := Prod.mk.inj h
      exact .root hmany hfirst
    · exact hone
    · exact hmany

theorem rootArgument?_eq_none {name : String} {e : Expr}
    (hmethod : ∀ receiver method arguments, e ≠ .methodCall receiver method arguments)
    (hname : calledName? e ≠ some name) : rootArgument? name e = none := by
  cases e with
  | methodCall receiver method arguments => exact absurd rfl (hmethod _ _ _)
  | call function arguments =>
    cases function with
    | path _ p _ => exact if_neg hname
    | _ => rfl
  | _ => rfl

theorem rootArgument?_eq {e : Expr} {root : Root} {entries : List Entry} (h : Chained e root entries) :
    rootArgument? "scope" e = root.scope? ∧ rootArgument? "resource" e = root.resource? := by
  induction h with
  | link _ _ ih => exact ih
  | nested _ _ _ _ ih _ => exact ih
  | @root e root hmethod hroot =>
    unfold root? at hroot
    split at hroot
    · rename_i p path
      by_cases hscope : p.last? = some "scope"
      · rw [if_pos hscope] at hroot
        obtain rfl := Option.some.inj hroot
        refine ⟨if_pos hscope, if_neg ?_⟩
        rw [hscope]
        decide
      · rw [if_neg hscope] at hroot
        by_cases hresource : p.last? = some "resource"
        · rw [if_pos hresource] at hroot
          obtain rfl := Option.some.inj hroot
          exact ⟨if_neg hscope, if_pos hresource⟩
        · rw [if_neg hresource] at hroot
          obtain rfl := Option.some.inj hroot
          exact ⟨if_neg hscope, if_neg hresource⟩
    · split at hroot
      · rename_i hnames
        obtain rfl := Option.some.inj hroot
        exact ⟨rootArgument?_eq_none hmethod hnames.1, rootArgument?_eq_none hmethod hnames.2.1⟩
      · cases hroot

theorem scopeInside_eq {receiver : Expr} {root : Root} (h : rootArgument? "scope" receiver = root.scope?) (scope : String) :
    scopeInside scope receiver = root.scope?.toList.foldl joinRules scope := by
  rw [scopeInside, h]
  cases root.scope? <;> rfl

/-- The findings of an entry of a file inside a scope. A route that is called on no scope is joined with an empty one. -/
def Entry.findings (file : Option String) (scope : String) : Entry → List Finding
  | .declared _ handler verbs path => [.declared handler ⟨path, verbs, .function handler, file⟩]
  | .called scopes own path verb handler =>
    [.called ⟨joinRules (joinRules (scopes.foldl joinRules scope) (own.getD "")) path, [verb], .function handler.name,
      handler.module <|> file⟩]
  | .mounted scopes handler =>
    let scope := scopes.foldl joinRules scope
    if scope.isEmpty then [] else [.service handler.name scope]

theorem findings_within (file : Option String) (scope : String) (scopes : List String) (entry : Entry) :
    (entry.within scopes).findings file scope = entry.findings file (scopes.foldl joinRules scope) := by
  cases entry <;> simp only [Entry.within, Entry.findings, List.foldl_append]

theorem looksAt_findings (file : Option String) (scope : String) :
    (findings file).LooksAt isServiceCall fun _ => scope where
  struct _ _ := rfl
  implementation _ _ _ _ := rfl
  imports _ _ := rfl
  function _ _ := rfl
  method _ := rfl
  module _ _ _ := rfl
  unselected k receiver method arguments h := by
    obtain ⟨hmethod, hscope⟩ := Bool.or_eq_false_iff.mp h
    obtain ⟨hservice, hroute⟩ := Bool.or_eq_false_iff.mp hmethod
    rw [Option.isSome_eq_false_iff, Option.isNone_iff_eq_none] at hscope
    simp only [findings, findingsOfCall, if_neg (beq_eq_false_iff_ne.mp hservice), if_neg (beq_eq_false_iff_ne.mp hroute),
      scopeInside, hscope]

theorem exprs_of_isQuiet {es : List Expr} (h : isQuiet es = true) (file : Option String) (scope : String) :
    (findings file).exprs scope es = [] := by
  have heq := (looksAt_findings file scope).exprs_eq { module := none } es
  rwa [List.isEmpty_iff.mp h] at heq

theorem routeTarget?_of_target? {e : Expr} {target : String × FunctionName} (h : target? e = some target) :
    routeTarget? e = some target ∧ ∀ file scope, (findings file).expr scope e = [] := by
  unfold target? at h
  split at h
  · rename_i method _ handler
    split at h
    · rename_i hto
      subst hto
      exact ⟨h, fun file scope => rfl⟩
    · cases h
  · cases h

theorem last?_of_ofPath? {p : Path} {f : FunctionName} (h : FunctionName.ofPath? p = some f) : p.last? = some f.name := by
  obtain ⟨name, hname, rfl⟩ := Option.map_eq_some_iff.mp h
  exact hname

theorem findings_of_link? {receiver : Expr} {root : Root} {method : String} {arguments : List Expr} {entries : List Entry}
    (hroot : rootArgument? "scope" receiver = root.scope? ∧ rootArgument? "resource" receiver = root.resource?)
    (h : link? root method arguments = some entries) (file : Option String) (scope : String) :
    findingsOfCall file scope receiver method arguments ++
      (findings file).exprs (scopeInside scope receiver) arguments = entries.flatMap (Entry.findings file scope) := by
  unfold link? at h
  split at h
  · rename_i hservice
    subst hservice
    split at h
    · cases h
    · obtain ⟨handler, hhandler, rfl⟩ := Option.map_eq_some_iff.mp h
      simp only [findingsOfCall, mountedHandler?, last?_of_ofPath? hhandler, scopeInside_eq hroot.1]
      simp [Survey.exprs, Survey.expr, Entry.findings]
    · cases h
  · split at h
    · rename_i hroute
      subst hroute
      split at h
      · obtain ⟨⟨verb, handler⟩, htarget, rfl⟩ := Option.map_eq_some_iff.mp h
        obtain ⟨htarget, hquiet⟩ := routeTarget?_of_target? htarget
        simp [findingsOfCall, routeOfCall?, hroot, htarget, hquiet, Survey.exprs, Entry.findings, Root.scope?, Root.resource?]
      · cases h
      · obtain ⟨⟨verb, handler⟩, htarget, rfl⟩ := Option.map_eq_some_iff.mp h
        obtain ⟨htarget, hquiet⟩ := routeTarget?_of_target? htarget
        simp [findingsOfCall, routeOfCall?, hroot, htarget, hquiet, Survey.exprs, Survey.expr, Entry.findings, textOf?]
      · cases h
    · rename_i hservice hroute
      split at h
      · rename_i hquiet
        obtain rfl := Option.some.inj h
        rw [findingsOfCall, if_neg hroute, if_neg hservice, exprs_of_isQuiet hquiet]
        rfl
      · cases h

theorem mountedHandler?_of_chained {e : Expr} {root : Root} {entries : List Entry} (h : Chained e root entries)
    (hroot : root ≠ .other) : mountedHandler? [e] = none := by
  cases e with
  | path qualified p inner =>
    cases h with
    | root _ hpath =>
      unfold root? at hpath
      split at hpath
      · rename_i heq
        cases heq
      · split at hpath
        · exact absurd (Option.some.inj hpath).symm hroot
        · cases hpath
  | _ => rfl

theorem expr_of_root? {e : Expr} {root : Root} (h : root? e = some root) (file : Option String) (scope : String) :
    (findings file).expr scope e = [] := by
  unfold root? at h
  split at h
  · rfl
  · split at h
    · rename_i hquiet
      have hexprs := exprs_of_isQuiet hquiet.2.2 file scope
      rwa [Survey.exprs, Survey.exprs, List.append_nil] at hexprs
    · cases h

/-- What is found in a chain inside a scope is what its entries give there. -/
theorem expr_of_chained {e : Expr} {root : Root} {entries : List Entry} (h : Chained e root entries) (file : Option String)
    (scope : String) : (findings file).expr scope e = entries.flatMap (Entry.findings file scope) := by
  induction h generalizing scope with
  | root _ hroot => exact expr_of_root? hroot file scope
  | @link receiver root entries method arguments linked hchain hlink ih =>
    have hfound := findings_of_link? (rootArgument?_eq hchain) hlink file scope
    rw [Survey.expr, List.flatMap_append, ← hfound, ih, List.append_assoc]
    rfl
  | @nested receiver root entries argument inner inside hchain hroot hinner hother ih iha =>
    have hcall : (findings file).call scope receiver "service" [argument] =
        { inside := root.scope?.toList.foldl joinRules scope } := by
      rw [← scopeInside_eq (rootArgument?_eq hchain).1]
      simp [findings, findingsOfCall, mountedHandler?_of_chained hinner hother]
    rw [Survey.expr, hcall, ih, List.flatMap_append, List.flatMap_map]
    simp only [findings_within, Survey.exprs, List.append_nil, ← iha]

/-- The entries of a project's text, each with the module that its file declares. -/
def sitesOf (f : SourceFile) : List Site := Site.ofItems isServiceCall { module := f.module } f.items

/-- What is registered at a site. -/
def entriesAt : Site → List Entry
  | .function around heading => (heading.attributes.filterMap declaration?).map fun (verbs, path) =>
      .declared around.module heading.name verbs path
  | .call _ e => ((chain? e).map Prod.snd).getD []
  | .hidden => []

/-- Whether nothing stands at a site but a function or a chain that can be read. -/
def isChained : Site → Bool
  | .function _ _ => true
  | .call _ e => (chain? e).isSome
  | .hidden => false

/-- Whether all that is registered in a project, attributes apart, is registered in chains that can be read. -/
def AllChained (files : List SourceFile) : Prop := ∀ f ∈ files, ∀ s ∈ sitesOf f, isChained s = true

instance (files : List SourceFile) : Decidable (AllChained files) :=
  inferInstanceAs (Decidable (∀ f ∈ files, ∀ s ∈ sitesOf f, isChained s = true))

/-- What a project registers, in the order of its text, each entry with the module that its file declares. -/
def registered (files : List SourceFile) : List (Option String × Entry) :=
  files.flatMap fun f => (sitesOf f).flatMap fun s => (entriesAt s).map (f.module, ·)

/-- What is found in a project. -/
def found (files : List SourceFile) : List Finding := files.flatMap fun f => (findings f.module).items "" f.items

theorem atSite_eq {s : Site} (h : isChained s = true) (file : Option String) :
    (findings file).atSite (fun _ => "") s = (entriesAt s).flatMap (Entry.findings file "") := by
  cases s with
  | function around heading =>
    rw [entriesAt, List.flatMap_map]
    exact List.map_eq_flatMap
  | call around e =>
    obtain ⟨⟨root, entries⟩, hchain⟩ := Option.isSome_iff_exists.mp h
    rw [entriesAt, hchain]
    exact expr_of_chained (chained_of_chain? hchain) file ""
  | hidden => cases h

theorem found_eq {files : List SourceFile} (h : AllChained files) :
    found files = (registered files).flatMap fun (file, entry) => entry.findings file "" := by
  rw [found, registered, List.flatMap_assoc]
  refine List.flatMap_congr fun f hf => ?_
  rw [(looksAt_findings f.module "").items_eq { module := f.module } f.items, List.flatMap_assoc]
  refine List.flatMap_congr fun s hs => ?_
  rw [atSite_eq (h f hf s hs), List.flatMap_map]

end ApiHandbook.Project.Actix
