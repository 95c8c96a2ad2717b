/-!
Entries by key in ascending order of their keys, each key once. Texts are ordered by their
UTF-8 bytes, which is the order of their code points.
-/
namespace VtableMerge.Keyed

/-- Puts an entry at its place in an ascending list. An entry of the same key gives way. -/
def insert {α : Type} (key : String) (value : α) : List (String × α) → List (String × α)
  | [] => [(key, value)]
  | (k, v) :: rest =>
    if key < k then (key, value) :: (k, v) :: rest
    else if key = k then (key, value) :: rest
    else (k, v) :: insert key value rest

/-- The last entry of each key, in ascending order. -/
def ofEntries {α : Type} (entries : List (String × α)) : List (String × α) :=
  entries.foldl (fun sorted e => insert e.1 e.2 sorted) []

end VtableMerge.Keyed
