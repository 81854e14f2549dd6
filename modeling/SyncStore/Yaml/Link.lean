import SyncStore.OrderedMap
import SyncStore.Yaml.Node

/-! Aliases are linked to the nodes they name: names become numbers, and numbers lead to nodes. -/

namespace SyncStore.Yaml

/-- The numbers of the names so far. -/
abbrev Names := OrderedMap Nat

/--
A name takes the count of the names so far as its number.

A name that is given again takes a new number, which a later name may take as well.
-/
def Names.give (names : Names) (properties : Properties String) : Properties Nat × Names :=
  match properties.anchor with
  | none => (⟨none, properties.tag⟩, names)
  | some name =>
    (⟨some names.length, properties.tag⟩, OrderedMap.insert name names.length names)

namespace Node

mutual

/-- Names are numbered in the order of the text, and an alias takes the number
that its name has there. -/
def number : Node String → Names → Option (Node Nat × Names)
  | .alias name, names => (OrderedMap.get? name names).map fun n => (.alias n, names)
  | .scalar properties isPlain text, names =>
    let (properties, names) := names.give properties
    some (.scalar properties isPlain text, names)
  | .sequence properties items, names =>
    let (properties, names) := names.give properties
    (numberItems items names).map fun (items, names) => (.sequence properties items, names)
  | .mapping properties entries, names =>
    let (properties, names) := names.give properties
    (numberEntries entries names).map fun (entries, names) => (.mapping properties entries, names)

/-- The items of a sequence are numbered in turn. -/
def numberItems : List (Node String) → Names → Option (List (Node Nat) × Names)
  | [], names => some ([], names)
  | item :: rest, names =>
    match number item names with
    | none => none
    | some (item, names) =>
      (numberItems rest names).map fun (items, names) => (item :: items, names)

/-- The keys and values of a mapping are numbered in turn. -/
def numberEntries : List (Node String × Node String) → Names →
    Option (List (Node Nat × Node Nat) × Names)
  | [], names => some ([], names)
  | (key, value) :: rest, names =>
    match number key names with
    | none => none
    | some (key, names) =>
      match number value names with
      | none => none
      | some (value, names) =>
        (numberEntries rest names).map fun (entries, names) => ((key, value) :: entries, names)

end

/-- A node under its number, if it has one. -/
def numbered (properties : Properties Nat) (node : Node Nat) : List (Nat × Node Nat) :=
  match properties.anchor with
  | none => []
  | some n => [(n, node)]

mutual

/-- The numbered nodes in the order of the text. -/
def targets : Node Nat → List (Nat × Node Nat)
  | .alias _ => []
  | .scalar properties isPlain text => numbered properties (.scalar properties isPlain text)
  | .sequence properties items =>
    numbered properties (.sequence properties items) ++ itemTargets items
  | .mapping properties entries =>
    numbered properties (.mapping properties entries) ++ entryTargets entries

/-- The numbered nodes among items. -/
def itemTargets : List (Node Nat) → List (Nat × Node Nat)
  | [] => []
  | item :: rest => targets item ++ itemTargets rest

/-- The numbered nodes among keys and values. -/
def entryTargets : List (Node Nat × Node Nat) → List (Nat × Node Nat)
  | [] => []
  | (key, value) :: rest => targets key ++ (targets value ++ entryTargets rest)

end

mutual

/-- The size of a node counts scalars and aliases once, and collections at
their start and their end. -/
def size : Node Nat → Nat
  | .alias _ => 1
  | .scalar _ _ _ => 1
  | .sequence _ items => 2 + itemsSize items
  | .mapping _ entries => 2 + entriesSize entries

/-- The size of all items. -/
def itemsSize : List (Node Nat) → Nat
  | [] => 0
  | item :: rest => size item + itemsSize rest

/-- The size of all keys and values. -/
def entriesSize : List (Node Nat × Node Nat) → Nat
  | [] => 0
  | (key, value) :: rest => size key + size value + entriesSize rest

end

/-- Of the nodes with one number the last one in the text counts. -/
def target? (root : Node Nat) (n : Nat) : Option (Node Nat) := root.targets.reverse.lookup n

end Node

end SyncStore.Yaml
