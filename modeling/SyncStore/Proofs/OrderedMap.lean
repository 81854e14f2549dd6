import SyncStore.OrderedMap

/-! Ordered maps keep one entry for each key, and lookups see the last insertion. -/

namespace SyncStore.OrderedMap

variable {α : Type}

/-- Every key of a map stands in one entry only. -/
def Distinct (map : OrderedMap α) : Prop := (keys map).Nodup

@[simp] theorem distinct_nil : Distinct ([] : OrderedMap α) := List.nodup_nil

@[simp] theorem keys_nil : keys ([] : OrderedMap α) = [] := rfl

@[simp] theorem keys_cons (entry : String × α) (rest : OrderedMap α) :
    keys (entry :: rest) = entry.1 :: keys rest := rfl

@[simp] theorem keys_append (front back : OrderedMap α) :
    keys (front ++ back) = keys front ++ keys back := List.map_append

/-- The first entry of a map is distinct from all others. -/
theorem distinct_cons {key : String} {value : α} {rest : OrderedMap α} :
    Distinct ((key, value) :: rest) ↔ key ∉ keys rest ∧ Distinct rest :=
  List.nodup_cons

/-- A key has no value exactly when it has no entry. -/
theorem get?_eq_none_iff {key : String} {map : OrderedMap α} :
    get? key map = none ↔ key ∉ keys map := by
  -- The lookup passes over an entry exactly when that has another key.
  induction map with
  | nil => simp [get?]
  | cons entry rest ih =>
    obtain ⟨found, value⟩ := entry
    by_cases same : found = key
    · simp [get?, same]
    · simp [get?, same, ih, Ne.symm same]

/-- The value of a key comes from an entry of the map. -/
theorem mem_of_get? {key : String} {value : α} {map : OrderedMap α}
    (found : get? key map = some value) : (key, value) ∈ map := by
  induction map with
  | nil => simp [get?] at found
  | cons entry rest ih =>
    obtain ⟨other, old⟩ := entry
    rw [get?] at found
    split at found
    · -- The first entry answers, so it is the one found.
      rename_i same
      simp_all
    · exact List.mem_cons_of_mem _ (ih found)

/-- In a map with distinct keys every entry answers the lookup of its key. -/
theorem get?_of_mem {key : String} {value : α} {map : OrderedMap α} (distinct : Distinct map)
    (member : (key, value) ∈ map) : get? key map = some value := by
  induction map with
  | nil => simp at member
  | cons entry rest ih =>
    obtain ⟨other, old⟩ := entry
    obtain ⟨fresh, distinct⟩ := distinct_cons.mp distinct
    rw [get?]
    rcases List.mem_cons.mp member with same | member
    · cases same
      rw [if_pos rfl]
    · -- An entry of the same key in front would repeat the key.
      have later : key ∈ keys rest := List.mem_map.mpr ⟨(key, value), member, rfl⟩
      rw [if_neg (fun same : other = key => fresh (same ▸ later)), ih distinct member]

/-- An inserted value answers the lookup of its key. -/
@[simp] theorem get?_insert_self (key : String) (value : α) (map : OrderedMap α) :
    get? key (insert key value map) = some value := by
  induction map with
  | nil => simp [insert, get?]
  | cons entry rest ih =>
    obtain ⟨found, old⟩ := entry
    -- The entry of the key is replaced, and a lookup stops at it.
    by_cases same : found = key
    · simp [insert, get?, same]
    · simp [insert, get?, same, ih]

/-- Insertion changes no lookup but that of its key. -/
theorem get?_insert_of_ne {key other : String} (differ : other ≠ key) (value : α)
    (map : OrderedMap α) : get? other (insert key value map) = get? other map := by
  induction map with
  | nil => simp [insert, get?, Ne.symm differ]
  | cons entry rest ih =>
    obtain ⟨found, old⟩ := entry
    by_cases same : found = key
    · -- The replaced entry has another key than the one looked up.
      subst found
      simp [insert, get?, Ne.symm differ]
    · simp [insert, get?, same, ih]

/-- Inserting a new key puts its entry last. -/
theorem insert_of_not_mem {key : String} {map : OrderedMap α} (fresh : key ∉ keys map)
    (value : α) : insert key value map = map ++ [(key, value)] := by
  -- The insertion passes over every entry, because none of them has the key.
  induction map with
  | nil => rfl
  | cons entry rest ih =>
    obtain ⟨found, old⟩ := entry
    simp only [keys_cons, List.mem_cons, not_or] at fresh
    rw [insert, if_neg (Ne.symm fresh.1), ih fresh.2, List.cons_append]

/-- Insertion adds its key and removes none. -/
theorem mem_keys_insert {key other : String} {value : α} {map : OrderedMap α} :
    other ∈ keys (insert key value map) ↔ other = key ∨ other ∈ keys map := by
  induction map with
  | nil => simp [insert]
  | cons entry rest ih =>
    obtain ⟨found, old⟩ := entry
    -- A key that is found keeps its place, and any other is looked for further on.
    by_cases same : found = key
    · subst found
      simp [insert]
    · simp only [insert, if_neg same, keys_cons, List.mem_cons, ih]
      exact or_left_comm

/-- An entry after an insertion is the inserted one or an old one. -/
theorem mem_insert {key : String} {value : α} {map : OrderedMap α} {entry : String × α}
    (member : entry ∈ insert key value map) : entry = (key, value) ∨ entry ∈ map := by
  induction map with
  | nil => exact Or.inl (by simpa [insert] using member)
  | cons first rest ih =>
    obtain ⟨found, old⟩ := first
    rw [insert] at member
    -- The inserted entry replaces the first one, or goes in somewhere behind it.
    split at member
    · rename_i same
      subst found
      exact (List.mem_cons.mp member).imp_right (List.mem_cons_of_mem _)
    · rcases List.mem_cons.mp member with same | member
      · exact Or.inr (by simp [same])
      · exact (ih member).imp_right (List.mem_cons_of_mem _)

/-- Insertion keeps keys distinct. -/
theorem Distinct.insert {map : OrderedMap α} (distinct : Distinct map) (key : String)
    (value : α) : Distinct (insert key value map) := by
  induction map with
  | nil => simp [OrderedMap.insert, Distinct]
  | cons entry rest ih =>
    obtain ⟨found, old⟩ := entry
    obtain ⟨fresh, distinct⟩ := distinct_cons.mp distinct
    rw [OrderedMap.insert]
    split
    · exact distinct_cons.mpr ⟨fresh, distinct⟩
    · rename_i differ
      -- The first key stays new, because only the inserted key was added behind it.
      exact distinct_cons.mpr ⟨fun later => (mem_keys_insert.mp later).elim differ fresh,
        ih distinct⟩

/-- Merging keeps keys distinct, whatever the overriding entries are. -/
theorem Distinct.merge {map : OrderedMap α} (distinct : Distinct map)
    (overrides : OrderedMap α) : Distinct (merge map overrides) := by
  -- Each overriding entry is inserted into a map that is still without repeated keys.
  induction overrides generalizing map with
  | nil => exact distinct
  | cons entry rest ih => exact ih (distinct.insert entry.1 entry.2)

/-- Entries inserted in turn make a map with distinct keys. -/
theorem distinct_ofEntries (entries : List (String × α)) : Distinct (ofEntries entries) :=
  distinct_nil.merge entries

/-- An entry after a merge is an overriding one or an old one. -/
theorem mem_merge {map overrides : OrderedMap α} {entry : String × α}
    (member : entry ∈ merge map overrides) : entry ∈ overrides ∨ entry ∈ map := by
  induction overrides generalizing map with
  | nil => exact Or.inr member
  | cons first rest ih =>
    -- An entry comes from a later override, from the first one, or from the map.
    rcases ih member with later | earlier
    · exact Or.inl (List.mem_cons_of_mem _ later)
    · exact (mem_insert earlier).imp_left fun same => by simp [same]

/-- An entry made from a list of entries is one of them. -/
theorem mem_of_mem_ofEntries {entries : List (String × α)} {entry : String × α}
    (member : entry ∈ ofEntries entries) : entry ∈ entries :=
  (mem_merge member).resolve_right (by simp)

/-- Merging changes no lookup of a key that is not overridden. -/
theorem get?_merge_of_not_mem {key : String} {map overrides : OrderedMap α}
    (absent : key ∉ keys overrides) : get? key (merge map overrides) = get? key map := by
  -- No override has the key, so no insertion changes what is looked up.
  induction overrides generalizing map with
  | nil => rfl
  | cons entry rest ih =>
    simp only [keys_cons, List.mem_cons, not_or] at absent
    exact (ih absent.2).trans (get?_insert_of_ne absent.1 entry.2 map)

/-- A key that is overridden has its overriding value, and every other key its own. -/
theorem get?_merge {overrides : OrderedMap α} (distinct : Distinct overrides)
    (map : OrderedMap α) (key : String) :
    get? key (merge map overrides) = (get? key overrides).or (get? key map) := by
  induction overrides generalizing map with
  | nil => rfl
  | cons entry rest ih =>
    obtain ⟨first, value⟩ := entry
    obtain ⟨fresh, distinct⟩ := distinct_cons.mp distinct
    refine (ih distinct (insert first value map)).trans ?_
    rw [get?]
    -- The first override is not overridden again by those behind it.
    split
    · rename_i same
      subst same
      rw [get?_eq_none_iff.mpr fresh, get?_insert_self]
      rfl
    · rename_i differ
      rw [get?_insert_of_ne (Ne.symm differ)]

/-- Merging new entries with distinct keys puts them behind the map. -/
theorem merge_eq_append {map overrides : OrderedMap α} (distinct : Distinct (map ++ overrides)) :
    merge map overrides = map ++ overrides := by
  induction overrides generalizing map with
  | nil => simp [merge]
  | cons entry rest ih =>
    obtain ⟨key, value⟩ := entry
    have joined : map ++ (key, value) :: rest = (map ++ [(key, value)]) ++ rest := by simp
    -- The first overriding key is not in the map, or it would stand there twice.
    have fresh : key ∉ keys map := by
      intro earlier
      simp only [Distinct, keys_append, keys_cons] at distinct
      exact (List.nodup_append.mp distinct).2.2 key earlier key (by simp) rfl
    rw [joined] at distinct ⊢
    rw [← ih distinct, ← insert_of_not_mem fresh]
    rfl

/-- Entries with distinct keys are already a map. -/
theorem ofEntries_of_distinct {entries : OrderedMap α} (distinct : Distinct entries) :
    ofEntries entries = entries :=
  merge_eq_append distinct

/-- The last entry of a fresh key is replaced in its place. -/
theorem insert_concat {key : String} {base : OrderedMap α}
    (fresh : key ∉ keys base) (old new : α) :
    insert key new (base ++ [(key, old)]) = base ++ [(key, new)] := by
  -- The entries in front have other keys, so the last one is the one replaced.
  induction base with
  | nil => simp [insert]
  | cons entry rest ih =>
    rw [keys_cons, List.mem_cons, not_or] at fresh
    rw [List.cons_append, insert, if_neg (Ne.symm fresh.1), ih fresh.2, List.cons_append]

/-- The last entry of a fresh key is found. -/
theorem get?_concat {key : String} {base : OrderedMap α}
    (fresh : key ∉ keys base) (value : α) :
    get? key (base ++ [(key, value)]) = some value := by
  -- The entries in front have other keys, so the lookup goes on to the last one.
  induction base with
  | nil => simp [get?]
  | cons entry rest ih =>
    rw [keys_cons, List.mem_cons, not_or] at fresh
    rw [List.cons_append, get?, if_neg (Ne.symm fresh.1), ih fresh.2]

/-- A key that is inserted again keeps its place and takes the last value. -/
theorem insert_insert_self (key : String) (old new : α) (map : OrderedMap α) :
    insert key new (insert key old map) = insert key new map := by
  induction map with
  | nil => simp [insert]
  | cons entry rest ih =>
    obtain ⟨found, value⟩ := entry
    by_cases same : found = key
    · simp [insert, same]
    · simp [insert, same, ih]

/-- A present key is replaced before or after another one is inserted, with the same result. -/
theorem insert_comm_of_mem {key other : String} {map : OrderedMap α} (present : key ∈ keys map)
    (differ : key ≠ other) (value value' : α) :
    insert key value (insert other value' map) = insert other value' (insert key value map) := by
  induction map with
  | nil => simp at present
  | cons entry rest ih =>
    obtain ⟨found, old⟩ := entry
    by_cases first : found = key
    · -- The present key stands first, and the other insertion passes over it.
      subst first
      simp [insert, differ]
    · have later : key ∈ keys rest := by
        simpa [Ne.symm first] using present
      by_cases second : found = other
      · subst second
        simp [insert, first]
      · simp [insert, first, second, ih later]

/-- A present key is replaced before or after a merge that does not override it. -/
theorem insert_merge_of_not_mem {key : String} {map overrides : OrderedMap α}
    (present : key ∈ keys map) (absent : key ∉ keys overrides) (value : α) :
    insert key value (merge map overrides) = merge (insert key value map) overrides := by
  induction overrides generalizing map with
  | nil => rfl
  | cons entry rest ih =>
    rw [keys_cons, List.mem_cons, not_or] at absent
    -- The first override is another key, so it commutes with the replacement.
    have stays : key ∈ keys (insert entry.1 entry.2 map) := mem_keys_insert.mpr (.inr present)
    refine (ih stays absent.2).trans ?_
    rw [insert_comm_of_mem present absent.1]
    rfl

/-- An insertion into the overriding entries is an insertion after the merge. -/
theorem merge_insert {overrides : OrderedMap α} (distinct : Distinct overrides)
    (map : OrderedMap α) (key : String) (value : α) :
    merge map (insert key value overrides) = insert key value (merge map overrides) := by
  induction overrides generalizing map with
  | nil => rfl
  | cons entry rest ih =>
    obtain ⟨found, old⟩ := entry
    obtain ⟨fresh, distinct⟩ := distinct_cons.mp distinct
    rw [insert]
    split
    · -- The first override has the key, and none behind it has it again.
      rename_i same
      subst same
      have present : found ∈ keys (insert found old map) := mem_keys_insert.mpr (.inl rfl)
      change merge (insert found value map) rest =
        insert found value (merge (insert found old map) rest)
      rw [insert_merge_of_not_mem present fresh, insert_insert_self]
    · exact ih distinct (insert found old map)

/-- Two merges one after the other are one merge of entries that were merged first. -/
theorem merge_merge {overrides : OrderedMap α} (distinct : Distinct overrides)
    (map later : OrderedMap α) :
    merge (merge map overrides) later = merge map (merge overrides later) := by
  -- The induction is on the later entries, each of which goes into the first ones.
  induction later generalizing overrides with
  | nil => rfl
  | cons entry rest ih =>
    have inserted := ih (distinct.insert entry.1 entry.2)
    rw [merge_insert distinct] at inserted
    exact inserted

/-- Merging is done in two parts as well as in one. -/
theorem merge_append (map front back : OrderedMap α) :
    merge map (front ++ back) = merge (merge map front) back :=
  List.foldl_append

/-- Inserting the value that a key has changes nothing. -/
theorem insert_of_get? {key : String} {value : α} {map : OrderedMap α}
    (found : get? key map = some value) : insert key value map = map := by
  induction map with
  | nil => simp [get?] at found
  | cons entry rest ih =>
    obtain ⟨other, old⟩ := entry
    rw [get?] at found
    rw [insert]
    split at found
    · rename_i same
      rw [if_pos same, Option.some.inj found]
    · rename_i differ
      rw [if_neg differ, ih found]

/-- Merging entries that a map has already changes nothing. -/
theorem merge_of_get? {map overrides : OrderedMap α}
    (found : ∀ entry ∈ overrides, get? entry.1 map = some entry.2) : merge map overrides = map := by
  induction overrides with
  | nil => rfl
  | cons entry rest ih =>
    obtain ⟨first, others⟩ := List.forall_mem_cons.mp found
    change merge (insert entry.1 entry.2 map) rest = map
    rw [insert_of_get? first, ih others]

/-- Merging the same entries once more changes nothing. -/
theorem merge_again {overrides : OrderedMap α} (distinct : Distinct overrides)
    (map : OrderedMap α) : merge (merge map overrides) overrides = merge map overrides := by
  refine merge_of_get? fun entry inside => ?_
  rw [get?_merge distinct, get?_of_mem distinct inside]
  rfl

/-- Replacing a present key moves no key. -/
theorem keys_insert_of_mem {key : String} {map : OrderedMap α} (present : key ∈ keys map)
    (value : α) : keys (insert key value map) = keys map := by
  induction map with
  | nil => simp at present
  | cons entry rest ih =>
    obtain ⟨found, old⟩ := entry
    rw [insert]
    split
    · rfl
    · rename_i differ
      have later : key ∈ keys rest := by simpa [Ne.symm differ] using present
      rw [keys_cons, ih later, keys_cons]

/-- After a merge the keys of the map come first, and the new ones in the order of the overrides. -/
theorem keys_merge {overrides : OrderedMap α} (distinct : Distinct overrides)
    (map : OrderedMap α) :
    keys (merge map overrides) = keys map ++ (keys overrides).filter (· ∉ keys map) := by
  induction overrides generalizing map with
  | nil => simp [merge]
  | cons entry rest ih =>
    obtain ⟨key, value⟩ := entry
    obtain ⟨fresh, distinct⟩ := distinct_cons.mp distinct
    refine (ih distinct (insert key value map)).trans ?_
    by_cases present : key ∈ keys map
    · rw [keys_insert_of_mem present, keys_cons, List.filter_cons_of_neg (by simpa using present)]
    · -- A new key goes last, and no later override repeats it.
      have others : (keys rest).filter (· ∉ keys (insert key value map)) =
          (keys rest).filter (· ∉ keys map) := by
        refine List.filter_congr fun other inside => ?_
        have differ : other ≠ key := fun same => fresh (same ▸ inside)
        simp [mem_keys_insert, differ]
      rw [others, insert_of_not_mem present, keys_append, keys_cons, keys_cons,
        List.filter_cons_of_pos (by simpa using present)]
      simp

/-- A key is looked up in one list of entries and then in the other. -/
theorem get?_append (key : String) (front back : OrderedMap α) :
    get? key (front ++ back) = (get? key front).or (get? key back) := by
  induction front with
  | nil => rfl
  | cons entry rest ih =>
    rw [List.cons_append, get?, get?, ih]
    split <;> rfl

/-- The last overriding entry of a key decides its value after a merge. -/
theorem get?_merge_last (map entries : OrderedMap α) (key : String) :
    get? key (merge map entries) = (get? key entries.reverse).or (get? key map) := by
  induction entries generalizing map with
  | nil => rfl
  | cons entry rest ih =>
    obtain ⟨first, value⟩ := entry
    refine (ih (insert first value map)).trans ?_
    rw [List.reverse_cons, get?_append, Option.or_assoc]
    -- The first entry counts when no later one has the key.
    by_cases same : first = key
    · subst same
      rw [get?_insert_self]
      simp [get?]
    · rw [get?_insert_of_ne (Ne.symm same)]
      simp [get?, same]

end SyncStore.OrderedMap
