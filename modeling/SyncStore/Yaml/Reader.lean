import SyncStore.Store.StoreError
import SyncStore.Text.Blank
import SyncStore.Yaml.Link
import SyncStore.Yaml.Resolution

/-! YAML text is read into data: nodes become values, and aliases the values
of the nodes they name. -/

namespace SyncStore.Yaml

/-- The value of plain text; floats that are not finite have none, and so do
integers outside a word. -/
def Plain.value? (text : String) : Plain → Option Value
  | .null => some .null
  | .bool b => some (.bool b)
  | .integer n => (WordInt.ofInt? n).map fun n => .number (.int n)
  | .float (.finite x) => some (.number (.float x))
  | .float _ => some .null
  | .text => some (.string text)

/-- The tags that every document knows start in this way. -/
def knownTag (name : String) : String := "tag:yaml.org,2002:" ++ name

/-- A tag of the document itself starts with an exclamation mark and has no values. -/
def isLocal (tag : Option String) : Bool := tag.any fun tag => tag.toList.head? = some '!'

/-- The value of a scalar under a tag, which must fit the tag where the tag is known. -/
def taggedValue? (tag text : String) : Option Value :=
  if tag = knownTag "bool" then (boolean? text).map .bool
  else if tag = knownTag "int" then
    (integer? text.toList).bind fun n => (Plain.integer n).value? text
  else if tag = knownTag "float" then
    (float? text.toList).bind fun x => (Plain.float x).value? text
  else if tag = knownTag "null" then if isNull text then some .null else none
  else if isLocal (some tag) then none
  else some (.string text)

/-- The value of a scalar; without a tag only plain text stands for anything but itself. -/
def scalarValue? (tag : Option String) (isPlain : Bool) (text : String) : Option Value :=
  match tag with
  | some tag => taggedValue? tag text
  | none => if isPlain then (Plain.ofText text).value? text else some (.string text)

/-- Values are read item by item while the followed aliases are counted. -/
def collectItems (step : Nat → Node Nat → Option (Value × Nat)) :
    Nat → List (Node Nat) → Option (List Value × Nat)
  | followed, [] => some ([], followed)
  | followed, item :: rest =>
    match step followed item with
    | none => none
    | some (value, followed) =>
      (collectItems step followed rest).map fun (values, followed) => (value :: values, followed)

/-- Members are read key by key and value by value. -/
def collectEntries (key : Nat → Node Nat → Option (String × Nat))
    (step : Nat → Node Nat → Option (Value × Nat)) :
    Nat → List (Node Nat × Node Nat) → Option (List (String × Value) × Nat)
  | followed, [] => some ([], followed)
  | followed, (name, node) :: rest =>
    match key followed name with
    | none => none
    | some (name, followed) =>
      match step followed node with
      | none => none
      | some (value, followed) =>
        (collectEntries key step followed rest).map fun (members, followed) =>
          ((name, value) :: members, followed)

/-- For each part of a document this many aliases may be followed. -/
def aliasesPerPart : Nat := 100

/-- An alias is followed to its node, and the count of the followed aliases has a limit. -/
def follow (root : Node Nat) (followed : Nat) : Node Nat → Option (Node Nat × Nat)
  | .alias n =>
    if aliasesPerPart * root.size ≤ followed then none
    else (root.target? n).map fun node => (node, followed + 1)
  | node => some (node, followed)

/-- A key is the text of a scalar, whatever the scalar stands for. -/
def keyText? (root : Node Nat) (followed : Nat) (node : Node Nat) : Option (String × Nat) :=
  match follow root followed node with
  | some (.scalar _ _ text, followed) => some (text, followed)
  | _ => none

/-- The value of a node whose collections may be nested this deep. -/
def valueOf? (root : Node Nat) (depth followed : Nat) (node : Node Nat) : Option (Value × Nat) :=
  match follow root followed node, depth with
  | some (.scalar properties isPlain text, followed), _ =>
    (scalarValue? properties.tag isPlain text).map fun value => (value, followed)
  | some (.sequence properties items, followed), depth + 1 =>
    if isLocal properties.tag then none
    else (collectItems (valueOf? root depth) followed items).map fun (values, followed) =>
      (.array values, followed)
  | some (.mapping properties entries, followed), depth + 1 =>
    if isLocal properties.tag then none
    else (collectEntries (keyText? root) (valueOf? root depth) followed entries).map
      fun (members, followed) =>
        -- A repeated key keeps its first place and takes its last value.
        (.object (OrderedMap.ofEntries members), followed)
  | _, _ => none

/-- Collections may be nested this deep. -/
def maxDepth : Nat := 128

/-- The value of a text with one document. -/
def value? (text : String) : Option Value := do
  let tokens ← Token.ofText? text.toList
  let node ← Node.ofTokens? tokens
  let (root, _) ← node.number []
  let (value, _) ← valueOf? root maxDepth 0 root
  return value

/-- Text is read as data; blank text and null hold no data, and every other
root must be a mapping. -/
def read (text : String) : Except StoreError Data :=
  if (trimBlanks text.toList).isEmpty then .ok []
  else
    match value? text with
    | none => .error (.serialization none .malformedText)
    | some (.object members) => .ok members
    | some .null => .ok []
    | some found => .error (.invalidData none (.rootNotMapping found))

end SyncStore.Yaml
