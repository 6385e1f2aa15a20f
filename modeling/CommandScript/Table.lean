/-!
# Tables in key order

A table is a list of keys with values in ascending order of the keys, so two tables with the same
content are equal and a listing needs no sorting. Strings are ordered by code points, which is also
the order of their UTF-8 bytes.
-/

set_option autoImplicit false

namespace CommandScript

abbrev Table (α : Type) := List (String × α)

namespace Table

variable {α : Type}

def find? (table : Table α) (key : String) : Option α :=
  match table with
  | [] => none
  | (k, value) :: rest => if k = key then some value else find? rest key

def has (table : Table α) (key : String) : Bool :=
  (table.find? key).isSome

def put (table : Table α) (key : String) (value : α) : Table α :=
  match table with
  | [] => [(key, value)]
  | (k, old) :: rest =>
    if key < k then (key, value) :: (k, old) :: rest
    else if key = k then (key, value) :: rest
    else (k, old) :: put rest key value

def drop (table : Table α) (key : String) : Table α :=
  table.filter fun entry => entry.1 != key

def keys (table : Table α) : List String :=
  table.map Prod.fst

-- A table from entries in any order; of two entries with one key the later counts.
def ofEntries (entries : List (String × α)) : Table α :=
  entries.foldl (fun table entry => Table.put table entry.1 entry.2) []

def Ascending (table : Table α) : Prop :=
  table.Pairwise fun first second => first.1 < second.1

end Table

end CommandScript
