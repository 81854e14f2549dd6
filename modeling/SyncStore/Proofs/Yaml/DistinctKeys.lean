import SyncStore.Proofs.Value
import SyncStore.Yaml.Reader

/-! Whatever a YAML text is read as repeats no key, because a repeated key takes its last value. -/

namespace SyncStore.Yaml

/-- A value without parts repeats no key. -/
theorem distinctKeys_of_scalar {value : Value} (scalar : value.nesting = 0) :
    value.Throughout Value.DistinctKeys := by
  cases value with
  | array items => simp [Value.nesting] at scalar
  | object members => simp [Value.nesting] at scalar
  | _ => trivial

/-- Plain text stands for a scalar. -/
theorem nesting_plain {text : String} {plain : Plain} {value : Value}
    (found : plain.value? text = some value) : value.nesting = 0 := by
  cases plain with
  | integer n =>
    obtain ⟨word, -, rfl⟩ := Option.map_eq_some_iff.mp found
    rfl
  | float x => cases x <;> cases found <;> rfl
  | _ => cases found; rfl

/-- Text under a tag stands for a scalar as well. -/
theorem nesting_tagged {tag text : String} {value : Value}
    (found : taggedValue? tag text = some value) : value.nesting = 0 := by
  unfold taggedValue? at found
  -- The tags are told apart in turn, and each has scalars of its own kind.
  split at found
  · obtain ⟨b, -, rfl⟩ := Option.map_eq_some_iff.mp found
    rfl
  split at found
  · obtain ⟨n, -, found⟩ := Option.bind_eq_some_iff.mp found
    exact nesting_plain found
  split at found
  · obtain ⟨x, -, found⟩ := Option.bind_eq_some_iff.mp found
    exact nesting_plain found
  split at found
  · obtain ⟨-, same⟩ := Option.ite_none_right_eq_some.mp found
    obtain rfl := Option.some.inj same
    rfl
  split at found
  · cases found
  · cases found
    rfl

/-- A scalar node has a scalar value. -/
theorem nesting_scalar {tag : Option String} {isPlain : Bool} {text : String} {value : Value}
    (found : scalarValue? tag isPlain text = some value) : value.nesting = 0 := by
  unfold scalarValue? at found
  -- A tag decides what a text stands for, and otherwise its own form does if it is plain.
  split at found
  · exact nesting_tagged found
  · split at found
    · exact nesting_plain found
    · cases found
      rfl

variable {p : Value → Prop} {step : Nat → Node Nat → Option (Value × Nat)}

/-- What every item is read as holds of all values in a row. -/
theorem forall_collectItems
    (each : ∀ followed node value after, step followed node = some (value, after) → p value)
    {items : List (Node Nat)} {followed after : Nat} {values : List Value}
    (found : collectItems step followed items = some (values, after)) :
    ∀ value ∈ values, p value := by
  induction items generalizing followed values with
  | nil => cases found; simp
  | cons item rest ih =>
    -- A row is only collected when each of its items is read.
    rw [collectItems] at found
    split at found
    · cases found
    · rename_i value next read
      obtain ⟨⟨others, last⟩, later, same⟩ := Option.map_eq_some_iff.mp found
      obtain ⟨rfl, rfl⟩ := Prod.mk.inj same
      exact List.forall_mem_cons.mpr ⟨each _ _ _ _ read, ih later⟩

/-- What every value is read as holds of all members in a row. -/
theorem forall_collectEntries {key : Nat → Node Nat → Option (String × Nat)}
    (each : ∀ followed node value after, step followed node = some (value, after) → p value)
    {entries : List (Node Nat × Node Nat)} {followed after : Nat} {members : List (String × Value)}
    (found : collectEntries key step followed entries = some (members, after)) :
    ∀ member ∈ members, p member.2 := by
  induction entries generalizing followed members with
  | nil => cases found; simp
  | cons entry rest ih =>
    rw [collectEntries] at found
    split at found
    · cases found
    split at found
    · cases found
    · rename_i value next read
      obtain ⟨⟨others, last⟩, later, same⟩ := Option.map_eq_some_iff.mp found
      obtain ⟨rfl, rfl⟩ := Prod.mk.inj same
      exact List.forall_mem_cons.mpr ⟨each _ _ _ _ read, ih later⟩

/-- A scalar node has a value without parts. -/
theorem nesting_scalarNode {tag : Option String} {isPlain : Bool} {text : String}
    {followed after : Nat} {value : Value}
    (found : (scalarValue? tag isPlain text).map (·, followed) = some (value, after)) :
    value.nesting = 0 := by
  obtain ⟨scalar, read, same⟩ := Option.map_eq_some_iff.mp found
  obtain ⟨rfl, rfl⟩ := Prod.mk.inj same
  exact nesting_scalar read

/-- A node has a value without repeated keys, whatever aliases are followed for it. -/
theorem distinctKeys_valueOf? {root : Node Nat} {depth followed after : Nat} {node : Node Nat}
    {value : Value} (found : valueOf? root depth followed node = some (value, after)) :
    value.Throughout Value.DistinctKeys := by
  -- The induction is on how deep collections may still be nested.
  induction depth generalizing followed node value after with
  | zero =>
    -- No collection may be opened any more.
    unfold valueOf? at found
    split at found
    · exact distinctKeys_of_scalar (nesting_scalarNode found)
    · contradiction
    · contradiction
    · cases found
  | succ depth ih =>
    have parts := fun followed node value after => @ih followed after node value
    -- Aliases were followed, so a scalar, a sequence or a mapping is left.
    unfold valueOf? at found
    split at found
    · exact distinctKeys_of_scalar (nesting_scalarNode found)
    · rename_i inner same
      obtain rfl := Nat.succ.inj same
      obtain ⟨-, found⟩ := Option.ite_none_left_eq_some.mp found
      obtain ⟨⟨values, left⟩, read, same⟩ := Option.map_eq_some_iff.mp found
      obtain ⟨rfl, rfl⟩ := Prod.mk.inj same
      exact Value.throughout_array.mpr ⟨trivial, forall_collectItems parts read⟩
    · rename_i inner same
      obtain rfl := Nat.succ.inj same
      obtain ⟨-, found⟩ := Option.ite_none_left_eq_some.mp found
      obtain ⟨⟨members, left⟩, read, same⟩ := Option.map_eq_some_iff.mp found
      obtain ⟨rfl, rfl⟩ := Prod.mk.inj same
      -- Members that are inserted in turn repeat no key.
      have values := forall_collectEntries parts read
      exact Value.throughout_object.mpr ⟨OrderedMap.distinct_ofEntries members,
        fun member inside => values member (OrderedMap.mem_of_mem_ofEntries inside)⟩
    · cases found

/-- The value of a text repeats no key at any depth. -/
theorem distinctKeys_value? {text : String} {value : Value} (found : value? text = some value) :
    value.Throughout Value.DistinctKeys := by
  unfold value? at found
  obtain ⟨tokens, -, found⟩ := Option.bind_eq_some_iff.mp found
  obtain ⟨node, -, found⟩ := Option.bind_eq_some_iff.mp found
  obtain ⟨⟨root, names⟩, -, found⟩ := Option.bind_eq_some_iff.mp found
  obtain ⟨⟨value, followed⟩, read, same⟩ := Option.bind_eq_some_iff.mp found
  obtain rfl := Option.some.inj same
  exact distinctKeys_valueOf? read

/-- Data that is read repeats no key at any depth. -/
theorem distinctKeys_read {text : String} {data : Data} (found : read text = .ok data) :
    (Value.object data).Throughout Value.DistinctKeys := by
  have empty : (Value.object []).Throughout Value.DistinctKeys :=
    Value.throughout_object.mpr ⟨OrderedMap.distinct_nil, nofun⟩
  -- A text without content, or with a null as its root, holds empty data.
  unfold read at found
  split at found
  · cases found
    exact empty
  split at found
  · cases found
  · rename_i members value
    cases found
    exact distinctKeys_value? value
  · cases found
    exact empty
  · cases found

end SyncStore.Yaml
