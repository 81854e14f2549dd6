import SyncStore.Proofs.Files.FileFormat
import SyncStore.Proofs.Yaml.Printed
import SyncStore.Proofs.Yaml.Resolution

/-! A YAML file gives back the data that was written to it. -/

namespace SyncStore

namespace Yaml

/-- A value has no names to number in its node. -/
def Unnamed (value : Value) : Prop :=
  ∀ names : Names, (nodeOf value).number names = some (nodeOf value, names)

/-- Items without names have none together. -/
theorem numberItems_itemNodes {items : List Value} (each : ∀ item ∈ items, Unnamed item)
    (names : Names) : Node.numberItems (itemNodes items) names = some (itemNodes items, names) := by
  induction items with
  | nil => rfl
  | cons item rest ih =>
    have later := ih fun item inside => each item (List.mem_cons_of_mem _ inside)
    rw [itemNodes, Node.numberItems, each item List.mem_cons_self names, itemNodes]
    simp only [later, Option.map_some]

/-- Members whose values have no names have none together. -/
theorem numberEntries_memberNodes {members : List (String × Value)}
    (each : ∀ member ∈ members, Unnamed member.2) (names : Names) :
    Node.numberEntries (memberNodes members) names = some (memberNodes members, names) := by
  induction members with
  | nil => rfl
  | cons member rest ih =>
    obtain ⟨key, value⟩ := member
    have later := ih fun member inside => each member (List.mem_cons_of_mem _ inside)
    have first : (nodeOf value).number names = some (nodeOf value, names) :=
      each (key, value) List.mem_cons_self names
    rw [memberNodes, Node.numberEntries, memberNodes]
    simp only [Node.number, Names.give, Properties.none, first, later, Option.map_some]

/-- No value has a name in its node. -/
theorem unnamed (value : Value) : Unnamed value := by
  -- A node is numbered for any names given so far, so they stay what they were.
  induction value using Value.parts_induction with
  | array items ih =>
    intro names
    rw [nodeOf, nodeOf, Node.number]
    simp only [Names.give, Properties.none, numberItems_itemNodes ih, Option.map_some]
  | object members ih =>
    intro names
    rw [nodeOf, nodeOf, Node.number]
    simp only [Names.give, Properties.none, numberEntries_memberNodes ih, Option.map_some]
  | number n => cases n <;> exact fun names => rfl
  | _ => exact fun names => rfl

/-- A value is found again in its node when the node may be nested as deep as the value is. -/
def FoundAgain (root : Node Nat) (value : Value) : Prop :=
  ∀ depth followed, value.nesting ≤ depth →
    valueOf? root depth followed (nodeOf value) = some (value, followed)

variable {root : Node Nat}

/-- Items are collected when each of them is found. -/
theorem collectItems_itemNodes {items : List Value} {depth : Nat}
    (each : ∀ item ∈ items, FoundAgain root item) (nested : Value.nestingOfItems items ≤ depth)
    (followed : Nat) :
    collectItems (valueOf? root depth) followed (itemNodes items) = some (items, followed) := by
  induction items with
  | nil => rfl
  | cons item rest ih =>
    obtain ⟨shallow, others⟩ := List.forall_mem_cons.mp (Value.nestingOfItems_le.mp nested)
    have later := ih (fun item inside => each item (List.mem_cons_of_mem _ inside))
      (Value.nestingOfItems_le.mpr others)
    rw [itemNodes, collectItems, each item List.mem_cons_self depth followed shallow]
    simp only [later, Option.map_some]

/-- Members are collected when the value of each is found. -/
theorem collectEntries_memberNodes {members : List (String × Value)} {depth : Nat}
    (each : ∀ member ∈ members, FoundAgain root member.2)
    (nested : Value.nestingOfMembers members ≤ depth) (followed : Nat) :
    collectEntries (keyText? root) (valueOf? root depth) followed (memberNodes members) =
      some (members, followed) := by
  induction members with
  | nil => rfl
  | cons member rest ih =>
    obtain ⟨key, value⟩ := member
    obtain ⟨shallow, others⟩ := List.forall_mem_cons.mp (Value.nestingOfMembers_le.mp nested)
    have later := ih (fun member inside => each member (List.mem_cons_of_mem _ inside))
      (Value.nestingOfMembers_le.mpr others)
    have first : valueOf? root depth followed (nodeOf value) = some (value, followed) :=
      each (key, value) List.mem_cons_self depth followed shallow
    rw [memberNodes, collectEntries]
    simp only [keyText?, follow, first, later, Option.map_some]

/-- A scalar is found at any depth. -/
theorem valueOf?_scalar {value : Value} {found : Bool × String}
    (scalar : scalarText? value = some found) (back : value.FloatSatisfies ReadsBack)
    (depth followed : Nat) :
    valueOf? root depth followed (.scalar .none found.1 found.2) = some (value, followed) := by
  have read := scalarValue?_text scalar back
  unfold valueOf?
  simp only [follow, Properties.none, read, Option.map_some]

/-- A value without repeated keys is found again when its floats read back. -/
theorem foundAgain {value : Value} (distinct : value.Throughout Value.DistinctKeys)
    (back : value.Throughout (Value.FloatSatisfies ReadsBack)) : FoundAgain root value := by
  induction value using Value.parts_induction with
  | array items ih =>
    intro depth followed nested
    obtain ⟨-, distinct⟩ := Value.throughout_array.mp distinct
    obtain ⟨-, back⟩ := Value.throughout_array.mp back
    rw [Value.nesting] at nested
    -- The items are one level deeper than the list, and no name is followed on the way to them.
    obtain ⟨depth, rfl⟩ : ∃ fewer, depth = fewer + 1 := ⟨depth - 1, by omega⟩
    have items := @collectItems_itemNodes root items depth
      (fun item inside => ih item inside (distinct item inside) (back item inside)) (by omega)
      followed
    unfold valueOf?
    simp only [nodeOf, follow, isLocal, Properties.none, Option.any_none, Bool.false_eq_true,
      ↓reduceIte, items, Option.map_some]
  | object members ih =>
    intro depth followed nested
    obtain ⟨here, distinct⟩ := Value.throughout_object.mp distinct
    obtain ⟨-, back⟩ := Value.throughout_object.mp back
    rw [Value.nesting] at nested
    obtain ⟨depth, rfl⟩ : ∃ fewer, depth = fewer + 1 := ⟨depth - 1, by omega⟩
    have entries := @collectEntries_memberNodes root members depth
      (fun member inside => ih member inside (distinct member inside) (back member inside))
      (by omega) followed
    unfold valueOf?
    -- Members with distinct keys are the map that is made of them.
    simp only [nodeOf, follow, isLocal, Properties.none, Option.any_none, Bool.false_eq_true,
      ↓reduceIte, entries, Option.map_some, OrderedMap.ofEntries_of_distinct here]
  | number n =>
    cases n <;> exact fun depth followed _ => valueOf?_scalar rfl back.here depth followed
  | _ => exact fun depth followed _ => valueOf?_scalar rfl back.here depth followed

/-! What is nested deeper than the reader goes is not found. -/

/-- A value is too deep when nothing is found in its node. -/
def TooDeep (root : Node Nat) (depth : Nat) (value : Value) : Prop :=
  ∀ followed, valueOf? root depth followed (nodeOf value) = none

/-- Items are not collected when one of them is too deep. -/
theorem collectItems_tooDeep {items : List Value} {item : Value} {depth : Nat}
    (inside : item ∈ items) (deep : TooDeep root depth item) (followed : Nat) :
    collectItems (valueOf? root depth) followed (itemNodes items) = none := by
  induction items generalizing followed with
  | nil => cases inside
  | cons first rest ih =>
    rw [itemNodes, collectItems]
    rcases List.mem_cons.mp inside with rfl | later
    · simp only [deep followed]
    · -- Whatever becomes of the items in front of it, this one ends the collection.
      cases valueOf? root depth followed (nodeOf first) with
      | none => rfl
      | some found => simp only [ih later found.2, Option.map_none]

/-- Members are not collected when the value of one of them is too deep. -/
theorem collectEntries_tooDeep {members : List (String × Value)} {member : String × Value}
    {depth : Nat} (inside : member ∈ members) (deep : TooDeep root depth member.2)
    (followed : Nat) :
    collectEntries (keyText? root) (valueOf? root depth) followed (memberNodes members) = none := by
  induction members generalizing followed with
  | nil => cases inside
  | cons first rest ih =>
    obtain ⟨key, value⟩ := first
    rw [memberNodes, collectEntries]
    simp only [keyText?, follow]
    rcases List.mem_cons.mp inside with rfl | later
    · have refused : valueOf? root depth followed (nodeOf value) = none := deep followed
      simp only [refused]
    · cases valueOf? root depth followed (nodeOf value) with
      | none => rfl
      | some found => simp only [ih later found.2, Option.map_none]

/-- A value that is nested deeper than the reader goes is not found, whatever is in it. -/
theorem tooDeep_of_nesting {value : Value} {depth : Nat} (nested : depth < value.nesting) :
    TooDeep root depth value := by
  induction value using Value.parts_induction generalizing depth with
  | array items ih =>
    intro followed
    cases depth with
    | zero => rfl
    | succ depth =>
      -- Not all items fit what is left.
      have beyond : ¬ Value.nestingOfItems items ≤ depth :=
        Nat.not_le_of_lt (Nat.lt_of_succ_lt_succ nested)
      rw [Value.nestingOfItems_le] at beyond
      obtain ⟨item, inside, past⟩ : ∃ item ∈ items, ¬ item.nesting ≤ depth := by
        simpa using beyond
      have refused := collectItems_tooDeep inside (ih item inside (Nat.lt_of_not_le past)) followed
      unfold valueOf?
      simp only [nodeOf, follow, isLocal, Properties.none, Option.any_none, Bool.false_eq_true,
        ↓reduceIte, refused, Option.map_none]
  | object members ih =>
    intro followed
    cases depth with
    | zero => rfl
    | succ depth =>
      have beyond : ¬ Value.nestingOfMembers members ≤ depth :=
        Nat.not_le_of_lt (Nat.lt_of_succ_lt_succ nested)
      rw [Value.nestingOfMembers_le] at beyond
      obtain ⟨member, inside, past⟩ : ∃ member ∈ members, ¬ member.2.nesting ≤ depth := by
        simpa only [not_forall, exists_prop] using beyond
      have refused :=
        collectEntries_tooDeep inside (ih member inside (Nat.lt_of_not_le past)) followed
      unfold valueOf?
      simp only [nodeOf, follow, isLocal, Properties.none, Option.any_none, Bool.false_eq_true,
        ↓reduceIte, refused, Option.map_none]
  | _ => exact absurd nested (Nat.not_lt_zero _)

/-- The text of data stands for the node of the data. -/
theorem value?_render_node {data : Data} (nonempty : data ≠ []) :
    value? (render data) =
      (valueOf? (nodeOf (.object data)) maxDepth 0 (nodeOf (.object data))).map Prod.fst := by
  rw [value?, ofText?_render nonempty]
  simp only [Option.bind_eq_bind, Option.bind_some, Node.ofTokens?_members nonempty,
    unnamed (.object data) []]
  rw [Option.map_eq_bind]
  rfl

/-- The text of data has the data as its value. -/
theorem value?_render {data : Data} (distinct : (Value.object data).Throughout Value.DistinctKeys)
    (back : (Value.object data).Throughout (Value.FloatSatisfies ReadsBack))
    (nested : (Value.object data).nesting ≤ maxDepth) :
    value? (render data) = some (.object data) := by
  by_cases empty : data = []
  · -- The text of no data is a pair of braces.
    subst empty
    cbv
  · have found := @foundAgain (nodeOf (.object data)) _ distinct back maxDepth 0 nested
    rw [value?_render_node empty, found]
    rfl

/-- The text of data that is nested too deeply has no value. -/
theorem value?_render_tooDeep {data : Data} (nested : maxDepth < (Value.object data).nesting) :
    value? (render data) = none := by
  have nonempty : data ≠ [] := by
    rintro rfl
    exact absurd nested (by decide)
  rw [value?_render_node nonempty, tooDeep_of_nesting nested 0]
  rfl

end Yaml

namespace FileFormat

/-- Data that was written to a YAML file is read back as it was, whatever its strings are. -/
theorem yaml_round_trip {data : Data}
    (distinct : (Value.object data).Throughout Value.DistinctKeys)
    (back : (Value.object data).Throughout (Value.FloatSatisfies Yaml.ReadsBack))
    (nested : (Value.object data).nesting ≤ Yaml.maxDepth) :
    ∃ raw, yaml.write data = .ok raw ∧ yaml.read raw = .ok data :=
  ⟨Yaml.render data, rfl,
    (yaml_read _).trans (Yaml.read_render (Yaml.value?_render distinct back nested))⟩

/-- Strings of every style, keys of several lines, blocks and empty collections are read back. -/
theorem yaml_round_trip_mixed :
    let number (n : WordInt) : Value := .number (.int n)
    let ratio : Value := .number (.float ⟨false, 4609434218613702656, by decide⟩)
    let hosts : Value :=
      .array [.object [("name", .string "a: b")], .array [], .array [.bool true, .null]]
    let data : Data :=
      [("server", .object [("hosts", hosts), ("note", .null)]), ("yes", .string "1e3"),
        ("", .string " \n"), ("text", .string "one\n  two\n\n"), ("k\nl", .array [ratio]),
        ("low", number ⟨-2 ^ 63, by decide, by decide⟩),
        ("high", number ⟨2 ^ 64 - 1, by decide, by decide⟩), ("none", .object [])]
    ∃ raw, yaml.write data = .ok raw ∧ yaml.read raw = .ok data := by
  intro number ratio hosts data
  have distinct : (Value.object data).Throughout Value.DistinctKeys := by
    simp [data, hosts, number, ratio, Value.Throughout, Value.ThroughoutMembers,
      Value.ThroughoutItems, Value.DistinctKeys, OrderedMap.Distinct]
  have back : (Value.object data).Throughout (Value.FloatSatisfies Yaml.ReadsBack) := by
    simp only [data, hosts, number, ratio, Value.Throughout, Value.ThroughoutMembers,
      Value.ThroughoutItems, Value.FloatSatisfies, true_and, and_true]
    rfl
  have nested : (Value.object data).nesting ≤ Yaml.maxDepth := by
    simp [data, hosts, number, ratio, Value.nesting, Value.nestingOfItems, Value.nestingOfMembers,
      Yaml.maxDepth]
  exact yaml_round_trip distinct back nested

/-- The limit is that of the reader: deeper data is written, and then refused as malformed text. -/
theorem yaml_refuses_tooDeep {data : Data} (nested : Yaml.maxDepth < (Value.object data).nesting) :
    ∃ raw, yaml.write data = .ok raw ∧
      yaml.read raw = .error (.serialization none .malformedText) := by
  refine ⟨Yaml.render data, rfl, (yaml_read _).trans ?_⟩
  simp only [Yaml.read, Yaml.render_not_blank, Bool.false_eq_true, ↓reduceIte,
    Yaml.value?_render_tooDeep nested]

end FileFormat

end SyncStore
