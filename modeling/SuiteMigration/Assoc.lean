/-!
Finite maps from strings, kept as lists of pairs in ascending order of their keys.
-/

set_option autoImplicit false
set_option relaxedAutoImplicit false

namespace SuiteMigration

/-- Pairs in ascending order of their keys. -/
abbrev Assoc (α : Type) := List (String × α)

namespace Assoc

variable {α : Type}

/-- Puts a value under a key; a later value replaces an earlier one. -/
def insert (key : String) (value : α) : Assoc α → Assoc α
  | [] => [(key, value)]
  | (k, v) :: rest =>
      if key == k then (key, value) :: rest
      else if key < k then (key, value) :: (k, v) :: rest
      else (k, v) :: insert key value rest

/-- Puts a value under a key that has none yet. -/
def insertNew (key : String) (value : α) (pairs : Assoc α) : Assoc α :=
  if (pairs.lookup key).isSome then pairs else insert key value pairs

def erase (key : String) (pairs : Assoc α) : Assoc α :=
  pairs.filter fun (k, _) ↦ k != key

def contains (key : String) (pairs : Assoc α) : Bool :=
  (pairs.lookup key).isSome

def keys (pairs : Assoc α) : List String :=
  pairs.map Prod.fst

def ofList (pairs : List (String × α)) : Assoc α :=
  pairs.foldl (fun map (key, value) ↦ insert key value map) []

end Assoc

end SuiteMigration
