/-! Lists of entries with keys, in the order in which the keys were first given. -/
namespace ApiHandbook

/-- Adds an entry unless its key has one. -/
def insertNew {α : Type} (key : String) (value : α) (entries : List (String × α)) : List (String × α) :=
  if (entries.lookup key).isSome then entries else entries ++ [(key, value)]

/-- Replaces the value of a key in its place, or adds an entry at the end. -/
def put {α : Type} (key : String) (value : α) : List (String × α) → List (String × α)
  | [] => [(key, value)]
  | (k, v) :: rest => if k = key then (k, value) :: rest else (k, v) :: put key value rest

/-- The keys of a list, each once, in the order in which they are first seen. -/
def distinct (keys : List String) : List String :=
  keys.foldl (fun seen key => if seen.contains key then seen else seen ++ [key]) []

end ApiHandbook
