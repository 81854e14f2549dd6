/-! An ordered map keeps each key at the place where it first appeared. -/

namespace SyncStore

/-- A list of keyed entries is read as a map in the order of its keys. -/
abbrev OrderedMap (α : Type) := List (String × α)

namespace OrderedMap

variable {α : Type}

/-- The value of a key is that of its first entry. -/
def get? (key : String) : OrderedMap α → Option α
  | [] => none
  | (found, value) :: rest => if found = key then some value else get? key rest

/-- A key is present when it has a value. -/
def contains (key : String) (map : OrderedMap α) : Bool := (get? key map).isSome

/-- Inserting replaces the value of a present key in its place and puts a new key last. -/
def insert (key : String) (value : α) : OrderedMap α → OrderedMap α
  | [] => [(key, value)]
  | (found, old) :: rest =>
    -- The map has each key once, so nothing behind it needs a change.
    if found = key then (found, value) :: rest else (found, old) :: insert key value rest

/-- Merging inserts the overriding entries one after the other. -/
def merge (map overrides : OrderedMap α) : OrderedMap α :=
  overrides.foldl (fun merged entry => insert entry.1 entry.2 merged) map

/-- The entries of a list become a map when each is inserted in turn. -/
def ofEntries (entries : List (String × α)) : OrderedMap α := merge [] entries

/-- The keys of a map stand in the order of its entries. -/
def keys (map : OrderedMap α) : List String := map.map Prod.fst

/-- Erasing a key keeps the order of all other entries. -/
def erase (key : String) : OrderedMap α → OrderedMap α
  | [] => []
  | (found, value) :: rest => if found = key then rest else (found, value) :: erase key rest

end OrderedMap

end SyncStore
