import SourceDoc.Text.Basic

/-!
# Tables

A table from texts to values that keeps the order in which its keys were put first.
-/

namespace SourceDoc

namespace Table

variable {α : Type}

/-- The value under a key. -/
def get? (key : Text) : List (Text × α) → Option α
  | [] => none
  | (k, v) :: rest => if k = key then some v else get? key rest

/-- The table with a value under a key, in the place of the key where it is there, else at the end. -/
def put (key : Text) (value : α) : List (Text × α) → List (Text × α)
  | [] => [(key, value)]
  | (k, v) :: rest => if k = key then (k, value) :: rest else (k, v) :: put key value rest

/-- The table of some pairs; a later pair replaces an earlier one. -/
def ofPairs (pairs : List (Text × α)) : List (Text × α) :=
  pairs.foldl (fun table pair => put pair.1 pair.2 table) []

end Table

end SourceDoc
