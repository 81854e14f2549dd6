import SyncStore.Proofs.Yaml.Blocks
import SyncStore.Yaml.Node

/-! The tokens of a value make one node, which has neither names nor tags. -/

namespace SyncStore.Yaml

mutual

/-- The node of a value. -/
def nodeOf {ν : Type} : Value → Node ν
  | .array items => .sequence .none (itemNodes items)
  | .object members => .mapping .none (memberNodes members)
  | value =>
    ((scalarText? value).map fun found => .scalar .none found.1 found.2).getD .empty

/-- The nodes of items. -/
def itemNodes {ν : Type} : List Value → List (Node ν)
  | [] => []
  | item :: rest => nodeOf item :: itemNodes rest

/-- The nodes of keys and values. -/
def memberNodes {ν : Type} : List (String × Value) → List (Node ν × Node ν)
  | [] => []
  | (key, value) :: rest =>
    (.scalar .none (styleOf key = .plain) key, nodeOf value) :: memberNodes rest

end

namespace Node

variable {handles : Handles} {steps : Nat}

/-- A scalar is read as its node. -/
theorem read_scalar (inBlock dashes isPlain : Bool) (text : String) (rest : List Token) :
    read handles (steps + 1) inBlock dashes (.scalar isPlain text :: rest) =
      some (.scalar .none isPlain text, rest) := by
  rw [read]
  · rfl
  · simp

/-- An empty pair of brackets is read as an empty sequence. -/
theorem read_flowSequence (inBlock dashes : Bool) (rest : List Token) :
    read handles (steps + 2) inBlock dashes (.flowSequence :: .flowSequenceEnd :: rest) =
      some (.sequence .none [], rest) := by
  rw [read]
  · simp [readProperties, readFlowItems, passComma]
  · simp

/-- An empty pair of braces is read as an empty mapping. -/
theorem read_flowMapping (inBlock dashes : Bool) (rest : List Token) :
    read handles (steps + 2) inBlock dashes (.flowMapping :: .flowMappingEnd :: rest) =
      some (.mapping .none [], rest) := by
  rw [read]
  · simp [readProperties, readFlowEntries, passComma]
  · simp

/-- A block of items is read as a sequence. -/
theorem read_blockSequence (dashes : Bool) (tokens : List Token) :
    read handles (steps + 1) true dashes (.blockSequence :: tokens) =
      (readItems handles steps tokens).map fun found => (.sequence .none found.1, found.2) := by
  rw [read]
  · cases dashes <;> rfl
  · simp

/-- Dashes are read as a sequence where they may be. -/
theorem read_dashes (tokens : List Token) :
    read handles (steps + 1) true true (.blockEntry :: tokens) =
      (readDashes handles steps (.blockEntry :: tokens)).map fun found =>
        (.sequence .none found.1, found.2) := by
  rw [read]
  · rfl
  · simp

/-- A block of members is read as a mapping. -/
theorem read_blockMapping (dashes : Bool) (tokens : List Token) :
    read handles (steps + 1) true dashes (.blockMapping :: tokens) =
      (readEntries handles steps tokens).map fun found => (.mapping .none found.1, found.2) := by
  rw [read]
  · cases dashes <;> rfl
  · simp

/-- The tokens of a value start with one that leaves out no node. -/
theorem valueTokens_starts (value : Value) (rest : List Token) :
    endsBlockNode (valueTokens false value ++ rest) = false ∧
      endsBlockMember (valueTokens true value ++ rest) = false ∧
      endsBlockMember (valueTokens false value ++ rest) = false := by
  cases value with
  | array items => cases items <;> simp [valueTokens, itemTokens, endsBlockNode, endsBlockMember]
  | object members => cases members <;> simp [valueTokens, endsBlockNode, endsBlockMember]
  | number n => cases n <;> simp [valueTokens, scalarText?, endsBlockNode, endsBlockMember]
  | _ => simp [valueTokens, scalarText?, endsBlockNode, endsBlockMember]

/-- Where a node is not left out, neither is an item. -/
theorem endsBlockItem_of_node {tokens : List Token} (node : endsBlockNode tokens = false) :
    endsBlockItem tokens = false := by
  cases tokens with
  | nil => rfl
  | cons token rest => cases token <;> first | rfl | cases node

/--
The tokens of a value are read as its node.

Every node takes no more steps than two for each of its tokens and two more, and below a key it
must not be followed by another dash.
-/
structure ReadsNode (value : Value) : Prop where
  inline : ∀ (handles : Handles) (steps : Nat) (dashes : Bool) (rest : List Token),
    2 * (valueTokens false value).length + 2 ≤ steps →
      read handles steps true dashes (valueTokens false value ++ rest) = some (nodeOf value, rest)
  below : ∀ (handles : Handles) (steps : Nat) (rest : List Token),
    2 * (valueTokens true value).length + 2 ≤ steps → rest.head? ≠ some .blockEntry →
      read handles steps true true (valueTokens true value ++ rest) = some (nodeOf value, rest)

/-- The items of a block are read up to its end. -/
theorem readItems_tokens {items : List Value} (each : ∀ item ∈ items, ReadsNode item)
    (enough : 2 * (itemTokens items).length + 1 ≤ steps) (rest : List Token) :
    readItems handles steps (itemTokens items ++ .blockEnd :: rest) =
      some (itemNodes items, rest) := by
  -- The induction is on the items, with as many steps left as their tokens ask for.
  induction items generalizing steps with
  | nil =>
    obtain ⟨steps, rfl⟩ := Nat.exists_eq_add_of_le' enough
    rfl
  | cons item more ih =>
    rw [itemTokens, List.length_cons, List.length_append] at enough
    obtain ⟨steps, rfl⟩ : ∃ fewer, steps = fewer + 1 := ⟨steps - 1, by omega⟩
    have first := (each item List.mem_cons_self).inline handles steps false
      (itemTokens more ++ .blockEnd :: rest) (by omega)
    have later := @ih steps (fun item inside => each item (List.mem_cons_of_mem _ inside))
      (by omega)
    have starts := endsBlockItem_of_node
      (valueTokens_starts item (itemTokens more ++ .blockEnd :: rest)).1
    rw [itemTokens, List.cons_append, List.append_assoc, readItems]
    simp only [starts, first, later, Bool.false_eq_true, ↓reduceIte, Option.bind_eq_bind,
      Option.bind_some, Option.map_some, itemNodes]

/-- Items without a block are read up to the first token that is no dash. -/
theorem readDashes_tokens {items : List Value} (each : ∀ item ∈ items, ReadsNode item)
    (enough : 2 * (itemTokens items).length + 1 ≤ steps) {rest : List Token}
    (ends : rest.head? ≠ some .blockEntry) :
    readDashes handles steps (itemTokens items ++ rest) = some (itemNodes items, rest) := by
  induction items generalizing steps with
  | nil =>
    obtain ⟨steps, rfl⟩ := Nat.exists_eq_add_of_le' enough
    rw [itemTokens, List.nil_append]
    -- Every other token ends the items.
    cases rest with
    | nil => rfl
    | cons token rest => cases token <;> first | rfl | exact absurd rfl ends
  | cons item more ih =>
    rw [itemTokens, List.length_cons, List.length_append] at enough
    obtain ⟨steps, rfl⟩ : ∃ fewer, steps = fewer + 1 := ⟨steps - 1, by omega⟩
    have first := (each item List.mem_cons_self).inline handles steps false
      (itemTokens more ++ rest) (by omega)
    have later := @ih steps (fun item inside => each item (List.mem_cons_of_mem _ inside))
      (by omega)
    have starts := (valueTokens_starts item (itemTokens more ++ rest)).1
    rw [itemTokens, List.cons_append, List.append_assoc, readDashes]
    simp only [starts, first, later, Bool.false_eq_true, ↓reduceIte, Option.bind_eq_bind,
      Option.bind_some, Option.map_some, itemNodes]

/-- The members of a block are read up to its end. -/
theorem readEntries_tokens {members : List (String × Value)}
    (each : ∀ member ∈ members, ReadsNode member.2)
    (enough : 2 * (memberTokens members).length + 1 ≤ steps) (rest : List Token) :
    readEntries handles steps (memberTokens members ++ .blockEnd :: rest) =
      some (memberNodes members, rest) := by
  induction members generalizing steps with
  | nil =>
    obtain ⟨steps, rfl⟩ := Nat.exists_eq_add_of_le' enough
    rfl
  | cons member more ih =>
    obtain ⟨key, value⟩ := member
    rw [memberTokens, List.length_cons, List.length_cons, List.length_cons, List.length_append]
      at enough
    obtain ⟨steps, rfl⟩ : ∃ fewer, steps = fewer + 2 := ⟨steps - 2, by omega⟩
    have reads : ReadsNode value := each (key, value) List.mem_cons_self
    have later := @ih (steps + 1) (fun member inside => each member (List.mem_cons_of_mem _ inside))
      (by omega)
    -- Another key or the end of the block follows the value.
    have ends : (memberTokens more ++ .blockEnd :: rest).head? ≠ some .blockEntry := by
      cases more <;> simp [memberTokens]
    obtain ⟨-, below, inline⟩ := valueTokens_starts value (memberTokens more ++ .blockEnd :: rest)
    have starts : endsBlockMember (valueTokens (isSimpleKey key) value ++
        (memberTokens more ++ .blockEnd :: rest)) = false := by
      cases isSimpleKey key
      · exact inline
      · exact below
    -- Behind a key of several lines the value is written like an item.
    have first : read handles (steps + 1) true true (valueTokens (isSimpleKey key) value ++
        (memberTokens more ++ .blockEnd :: rest)) =
        some (nodeOf value, memberTokens more ++ .blockEnd :: rest) := by
      cases simple : isSimpleKey key with
      | false =>
        rw [simple] at enough
        exact reads.inline handles (steps + 1) true _ (by omega)
      | true =>
        rw [simple] at enough
        exact reads.below handles (steps + 1) _ (by omega) ends
    have keyed : ∀ tokens, endsBlockMember (stringToken key :: tokens) = false := fun _ => rfl
    have named : ∀ tokens, read handles (steps + 1) true true (stringToken key :: tokens) =
        some (.scalar .none (styleOf key = .plain) key, tokens) :=
      fun tokens => read_scalar true true _ key tokens
    rw [memberTokens, List.cons_append, List.cons_append, List.cons_append, List.append_assoc,
      readEntries]
    simp only [keyed, named, starts, first, later, Bool.false_eq_true, ↓reduceIte,
      Option.bind_eq_bind, Option.bind_some, Option.map_some, memberNodes]

/-- A value whose tokens are the same below a key is read there as anywhere else. -/
theorem readsNode_of_same {value : Value} {tokens : List Token}
    (same : ∀ below, valueTokens below value = tokens)
    (reads : ∀ (handles : Handles) (steps : Nat) (dashes : Bool) (rest : List Token),
      2 * tokens.length + 2 ≤ steps →
        read handles steps true dashes (tokens ++ rest) = some (nodeOf value, rest)) :
    ReadsNode value where
  inline handles steps dashes rest enough := by
    rw [same] at enough ⊢
    exact reads handles steps dashes rest enough
  below handles steps rest enough _ := by
    rw [same] at enough ⊢
    exact reads handles steps true rest enough

/-- Values that are written as scalars are read as they are. -/
theorem readsNode_scalar {value : Value} {isPlain : Bool} {text : String}
    (tokens : ∀ below, valueTokens below value = [.scalar isPlain text])
    (node : nodeOf value = (.scalar .none isPlain text : Node String)) : ReadsNode value := by
  refine readsNode_of_same tokens fun handles steps dashes rest enough => ?_
  obtain ⟨steps, rfl⟩ : ∃ fewer, steps = fewer + 1 := ⟨steps - 1, by omega⟩
  rw [node]
  exact read_scalar true dashes isPlain text rest

/-- Items are a block of their own, except below a key. -/
theorem readsNode_items {item : Value} {more : List Value}
    (each : ∀ value ∈ item :: more, ReadsNode value) : ReadsNode (.array (item :: more)) where
  inline handles steps dashes rest enough := by
    have block : valueTokens false (.array (item :: more)) =
        .blockSequence :: (itemTokens (item :: more) ++ [.blockEnd]) := by
      simp [valueTokens]
    rw [block, List.length_cons, List.length_append] at enough
    obtain ⟨steps, rfl⟩ : ∃ fewer, steps = fewer + 1 := ⟨steps - 1, by omega⟩
    rw [block, List.cons_append, List.append_assoc, read_blockSequence, List.singleton_append,
      readItems_tokens each (by omega) rest]
    rfl
  below handles steps rest enough ends := by
    have dashes : valueTokens true (.array (item :: more)) = itemTokens (item :: more) := by
      simp [valueTokens]
    rw [dashes] at enough ⊢
    obtain ⟨steps, rfl⟩ : ∃ fewer, steps = fewer + 1 := ⟨steps - 1, by omega⟩
    -- No token ends these items, so they must not be followed by another one.
    have read := @readDashes_tokens handles steps (item :: more) each (by omega) rest ends
    rw [itemTokens, List.cons_append] at read ⊢
    rw [read_dashes, read]
    rfl

/-- Members are a block of their own wherever they stand. -/
theorem readsNode_members {member : String × Value} {more : List (String × Value)}
    (each : ∀ pair ∈ member :: more, ReadsNode pair.2) : ReadsNode (.object (member :: more)) := by
  have block (below : Bool) : valueTokens below (.object (member :: more)) =
      .blockMapping :: (memberTokens (member :: more) ++ [.blockEnd]) := by
    simp [valueTokens]
  refine readsNode_of_same block fun handles steps dashes rest enough => ?_
  rw [List.length_cons, List.length_append, List.length_singleton] at enough
  obtain ⟨steps, rfl⟩ : ∃ fewer, steps = fewer + 1 := ⟨steps - 1, by omega⟩
  rw [List.cons_append, List.append_assoc, read_blockMapping, List.singleton_append,
    readEntries_tokens each (by omega) rest]
  rfl

/-- The tokens of every value are read as its node. -/
theorem readsNode (value : Value) : ReadsNode value := by
  -- An empty collection is read in two steps, for its brackets.
  induction value using Value.parts_induction with
  | array items ih =>
    cases items with
    | nil =>
      refine @readsNode_of_same _ [.flowSequence, .flowSequenceEnd] (fun _ => rfl) ?_
      intro handles steps dashes rest enough
      obtain ⟨steps, rfl⟩ : ∃ fewer, steps = fewer + 2 := ⟨steps - 2, by omega⟩
      exact read_flowSequence true dashes rest
    | cons item more => exact readsNode_items ih
  | object members ih =>
    cases members with
    | nil =>
      refine @readsNode_of_same _ [.flowMapping, .flowMappingEnd] (fun _ => rfl) ?_
      intro handles steps dashes rest enough
      obtain ⟨steps, rfl⟩ : ∃ fewer, steps = fewer + 2 := ⟨steps - 2, by omega⟩
      exact read_flowMapping true dashes rest
    | cons member more => exact readsNode_members ih
  | number n => cases n <;> exact readsNode_scalar (fun _ => rfl) rfl
  | _ => exact readsNode_scalar (fun _ => rfl) rfl

/-- The tokens of data make the node of the data. -/
theorem ofTokens?_members {data : Data} (nonempty : data ≠ []) :
    ofTokens? (.blockMapping :: (memberTokens data ++ [.blockEnd])) =
      some (nodeOf (.object data)) := by
  obtain ⟨member, more, rfl⟩ := List.exists_cons_of_ne_nil nonempty
  have tokens : valueTokens false (.object (member :: more)) =
      .blockMapping :: (memberTokens (member :: more) ++ [.blockEnd]) := by
    simp [valueTokens]
  have read := (readsNode (.object (member :: more))).inline knownHandles
    (3 * (valueTokens false (.object (member :: more))).length + 3) false [] (by omega)
  rw [List.append_nil, tokens] at read
  rw [ofTokens?]
  simp only [readDirectives, ↓reduceIte, read]
  rfl

end Node

end SyncStore.Yaml
