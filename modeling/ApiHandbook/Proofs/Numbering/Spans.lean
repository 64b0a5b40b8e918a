import ApiHandbook.Proofs.Comments
import ApiHandbook.Proofs.Numbering.Places
import ApiHandbook.Proofs.Numbering.Survey
import ApiHandbook.Proofs.Positions
import ApiHandbook.Project.Index

/-! The places of the functions and resource methods that the index of a project holds. -/
namespace ApiHandbook.Project
open Code

/-- The handlers that a definition holds. -/
def Definition.handlers : Definition → List Handler
  | .function _ handler => [handler]
  | .structDoc _ _ => []
  | .resource _ bindings => bindings.map Prod.snd

/-- The headings of the methods that are named after a verb. -/
def boundHeadings (members : List Item) : List Heading :=
  members.filterMap fun m =>
    match m with
    | .method h _ => if (verb? h.name).isSome then some h else none
    | _ => none

/-- The headings of the functions and resource methods that are indexed. -/
def indexed : Survey Unit Heading :=
  { function := fun _ h => ([h], ())
    implementation := fun _ traitName selfName members =>
      match traitName, selfName with
      | some traitName, some _ => if resourceTraits.contains traitName then some (boundHeadings members) else none
      | _, _ => none }

theorem docComment?_renumber (g : Nat → Nat) (attributes : List Attribute) :
    docComment? (renumber g attributes) = docComment? attributes := by
  have htext (a : Attribute) : docText? (renumber g a) = docText? a := by
    obtain ⟨p, _ | _ | _ | _⟩ := a <;> rfl
  have hlines : (renumber g attributes).filterMap docText? = attributes.filterMap docText? := by
    refine List.filterMap_map.trans ?_
    exact List.filterMap_congr fun a _ => htext a
  rw [docComment?_eq, docComment?_eq, hlines]

section
variable (f : SourceFile) (g : Nat → Nat)

theorem boundMethods_renumber (members : List Item) : (boundMethods f (renumber g members)).map Prod.snd =
    (boundHeadings members).map fun h => handlerOf f (renumber g h) := by
  rw [boundMethods, boundHeadings, List.map_filterMap, List.map_filterMap]
  refine List.filterMap_map.trans (List.filterMap_congr fun m _ => ?_)
  cases m with
  | method h body =>
    rw [Function.comp_apply, renumber_method]
    change ((verb? h.name).map _).map Prod.snd = (if (verb? h.name).isSome then some h else none).map _
    cases verb? h.name <;> rfl
  | function | struct | implementation | module | imports | other => rfl

/-- The handlers of a file, found one by one. -/
def handlerSurvey : Survey Unit Handler :=
  { function := fun _ h => ([handlerOf f (renumber g h)], ())
    implementation := fun _ traitName selfName members => 
      (indexed.implementation () traitName selfName members).map fun headings =>
        headings.map fun h => handlerOf f (renumber g h) }

theorem handlers_follows : (handlerSurvey f g).Follows ((definitions f).renumbered g) (fun _ => ()) Definition.handlers where
  function k h := rfl
  struct k h := by
    change [] = ((docComment? (renumber g h).attributes).map _).toList.flatMap Definition.handlers
    cases docComment? (renumber g h).attributes <;> rfl
  implementation k t s members := by
    cases t with
    | none => rfl
    | some traitName =>
      cases s with
      | none => rfl
      | some selfName =>
        change Option.map _ (if resourceTraits.contains traitName then some (boundHeadings members) else none) =
          Option.map _ (if resourceTraits.contains traitName then
            some [Definition.resource selfName (boundMethods f (renumber g members))] else none)
        split
        · rw [Option.map_some, Option.map_some, List.flatMap_singleton, Definition.handlers, boundMethods_renumber]
        · rfl
  module k name inline := rfl
  imports k roots := rfl
  call k receiver method arguments := rfl

theorem handlers_follows_indexed : (handlerSurvey f g).Follows indexed id fun h => [handlerOf f (renumber g h)] where
  function k h := rfl
  struct k h := rfl
  implementation k t s members := by
    simp only [handlerSurvey, List.map_eq_flatMap, id]
  module k name inline := rfl
  imports k roots := rfl
  call k receiver method arguments := rfl

/-- The handlers of a file are those of the indexed headings, on the lines of their places. -/
theorem handlers_definitions (items : List Item) :
    ((definitions f).items f.module (renumber g items)).flatMap Definition.handlers =
      (indexed.items () items).map fun h => handlerOf f (renumber g h) := by
  rw [Survey.items_renumber, ← (handlers_follows f g).items_eq, (handlers_follows_indexed f g).items_eq () items,
    List.map_eq_flatMap]

end
end ApiHandbook.Project
