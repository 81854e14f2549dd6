import SyncStore.Proofs.Yaml.DistinctKeys

/-! Whatever a YAML text is read as is nested no deeper than its reader goes. -/

namespace SyncStore.Yaml

/-- The value of a node keeps to its depth, whatever aliases are followed for it. -/
theorem nesting_valueOf? {root : Node Nat} {depth followed after : Nat} {node : Node Nat}
    {value : Value} (found : valueOf? root depth followed node = some (value, after)) :
    value.nesting ≤ depth := by
  -- The induction is on how deep collections may still be nested.
  induction depth generalizing followed node value after with
  | zero =>
    unfold valueOf? at found
    split at found
    · exact Nat.le_of_eq (nesting_scalarNode found)
    · contradiction
    · contradiction
    · cases found
  | succ depth ih =>
    have parts := fun followed node value after => @ih followed after node value
    -- A collection takes one level, and its parts have the others.
    unfold valueOf? at found
    split at found
    · exact (nesting_scalarNode found) ▸ Nat.zero_le _
    · rename_i inner same
      obtain rfl := Nat.succ.inj same
      obtain ⟨-, found⟩ := Option.ite_none_left_eq_some.mp found
      obtain ⟨⟨values, left⟩, read, same⟩ := Option.map_eq_some_iff.mp found
      obtain ⟨rfl, rfl⟩ := Prod.mk.inj same
      exact Nat.succ_le_succ (Value.nestingOfItems_le.mpr (forall_collectItems parts read))
    · rename_i inner same
      obtain rfl := Nat.succ.inj same
      obtain ⟨-, found⟩ := Option.ite_none_left_eq_some.mp found
      obtain ⟨⟨members, left⟩, read, same⟩ := Option.map_eq_some_iff.mp found
      obtain ⟨rfl, rfl⟩ := Prod.mk.inj same
      have values := forall_collectEntries parts read
      exact Nat.succ_le_succ (Value.nestingOfMembers_le.mpr fun member inside =>
        values member (OrderedMap.mem_of_mem_ofEntries inside))
    · cases found

/-- The value of a text is nested no deeper than the reader goes. -/
theorem nesting_value? {text : String} {value : Value} (found : value? text = some value) :
    value.nesting ≤ maxDepth := by
  unfold value? at found
  obtain ⟨tokens, -, found⟩ := Option.bind_eq_some_iff.mp found
  obtain ⟨node, -, found⟩ := Option.bind_eq_some_iff.mp found
  obtain ⟨⟨root, names⟩, -, found⟩ := Option.bind_eq_some_iff.mp found
  obtain ⟨⟨value, followed⟩, read, same⟩ := Option.bind_eq_some_iff.mp found
  obtain rfl := Option.some.inj same
  exact nesting_valueOf? read

/-- Data that is read is nested no deeper than the reader goes. -/
theorem nesting_read {text : String} {data : Data} (found : read text = .ok data) :
    (Value.object data).nesting ≤ maxDepth := by
  have empty : (Value.object []).nesting ≤ maxDepth := by decide
  -- A text without content, or with a null as its root, holds empty data.
  unfold read at found
  split at found
  · cases found
    exact empty
  split at found
  · cases found
  · rename_i members value
    cases found
    exact nesting_value? value
  · cases found
    exact empty
  · cases found

end SyncStore.Yaml
