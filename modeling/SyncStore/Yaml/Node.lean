import SyncStore.Yaml.Token

/-! A YAML document is a node: an alias, a scalar, a sequence of nodes or a
mapping between nodes. -/

namespace SyncStore.Yaml

/-- A node may carry a name, of some type of names, and a tag. -/
structure Properties (ν : Type) where
  anchor : Option ν
  tag : Option String

namespace Properties

variable {ν : Type}

/-- Neither a name nor a tag. -/
def none : Properties ν := ⟨.none, .none⟩

/-- Whether there is a name or a tag. -/
def isPresent (properties : Properties ν) : Bool :=
  properties.anchor.isSome || properties.tag.isSome

end Properties

/-- A node of a document; an alias stands for the node that carries its name. -/
inductive Node (ν : Type) where
  | alias (name : ν)
  | scalar (properties : Properties ν) (isPlain : Bool) (text : String)
  | sequence (properties : Properties ν) (items : List (Node ν))
  | mapping (properties : Properties ν) (entries : List (Node ν × Node ν))

namespace Node

/-- A place without a node holds an empty plain scalar. -/
def empty {ν : Type} : Node ν := .scalar .none true ""

/-- Handles of tags and what they stand for, the first one counting. -/
abbrev Handles := List (String × String)

/-- The handles that every document knows. -/
def knownHandles : Handles := [("!", "!"), ("!!", "tag:yaml.org,2002:")]

/-- A tag without a handle is its suffix, and an unknown handle is refused. -/
def resolveTag (handles : Handles) (handle suffix : String) : Option String :=
  if handle.isEmpty then some suffix else (handles.lookup handle).map (· ++ suffix)

/-- A name and a tag may stand in front of a node, in either order. -/
def readProperties (handles : Handles) : List Token → Option (Properties String × List Token)
  | .anchor name :: .tag handle suffix :: rest =>
    (resolveTag handles handle suffix).map fun tag => (⟨some name, some tag⟩, rest)
  | .tag handle suffix :: .anchor name :: rest =>
    (resolveTag handles handle suffix).map fun tag => (⟨some name, some tag⟩, rest)
  | .anchor name :: rest => some (⟨some name, .none⟩, rest)
  | .tag handle suffix :: rest =>
    (resolveTag handles handle suffix).map fun tag => (⟨.none, some tag⟩, rest)
  | rest => some (.none, rest)

/-- A lone exclamation mark is no tag of a scalar that is written out. -/
def withoutBareTag (properties : Properties String) : Properties String :=
  if properties.tag = some "!" then { properties with tag := .none } else properties

/-- In a block the next indicator shows that a node is left out. -/
def endsBlockNode : List Token → Bool
  | .key :: _ => true
  | .value :: _ => true
  | .blockEntry :: _ => true
  | .blockEnd :: _ => true
  | _ => false

/-- In a mapping a dash may start a sequence at the indentation of the keys. -/
def endsBlockMember : List Token → Bool
  | .blockEntry :: _ => false
  | rest => endsBlockNode rest

/-- In a sequence a key may start the mapping of an item. -/
def endsBlockItem : List Token → Bool
  | .blockEntry :: _ => true
  | .blockEnd :: _ => true
  | _ => false

/-- Between brackets a comma or the closing bracket shows that a value is left out. -/
def endsFlowNode (close : Token) : List Token → Bool
  | token :: _ => token = .flowEntry || token = close
  | [] => false

/-- A comma stands in front of every item between brackets but the first. -/
def passComma (isFirst : Bool) (close : Token) (tokens : List Token) : Option (List Token) :=
  match tokens with
  | [] => .none
  | token :: rest =>
    if isFirst || token = close then some tokens
    else if token = .flowEntry then some rest
    else .none

mutual

/--
A node is read where blocks are allowed or not.

Where `dashes` is set, dashes without a block of their own make a sequence.
-/
def read (handles : Handles) (steps : Nat) (inBlock dashes : Bool) (tokens : List Token) :
    Option (Node String × List Token) :=
  match steps with
  | 0 => .none
  | steps + 1 =>
    match tokens with
    | .alias name :: rest => some (.alias name, rest)
    | tokens =>
      match readProperties handles tokens with
      | .none => .none
      | some (properties, .scalar isPlain text :: rest) =>
        some (.scalar (withoutBareTag properties) isPlain text, rest)
      | some (properties, .flowSequence :: rest) =>
        (readFlowItems handles steps true rest).map fun (items, rest) =>
          (.sequence properties items, rest)
      | some (properties, .flowMapping :: rest) =>
        (readFlowEntries handles steps true rest).map fun (entries, rest) =>
          (.mapping properties entries, rest)
      | some (properties, rest) =>
        match inBlock, dashes, rest with
        | true, true, .blockEntry :: rest =>
          (readDashes handles steps (.blockEntry :: rest)).map fun (items, rest) =>
            (.sequence properties items, rest)
        | true, _, .blockSequence :: rest =>
          (readItems handles steps rest).map fun (items, rest) => (.sequence properties items, rest)
        | true, _, .blockMapping :: rest =>
          (readEntries handles steps rest).map fun (entries, rest) =>
            (.mapping properties entries, rest)
        | _, _, rest =>
          if properties.isPresent then some (.scalar properties true "", rest) else .none

/-- The items of a block end with it. -/
def readItems (handles : Handles) (steps : Nat) (tokens : List Token) :
    Option (List (Node String) × List Token) :=
  match steps with
  | 0 => .none
  | steps + 1 =>
    match tokens with
    | .blockEnd :: rest => some ([], rest)
    | .blockEntry :: rest => do
      let (item, rest) ←
        if endsBlockItem rest then some (empty, rest) else read handles steps true false rest
      (readItems handles steps rest).map fun (items, rest) => (item :: items, rest)
    | _ => .none

/-- Dashes at the indentation of a mapping end in front of anything else. -/
def readDashes (handles : Handles) (steps : Nat) (tokens : List Token) :
    Option (List (Node String) × List Token) :=
  match steps with
  | 0 => .none
  | steps + 1 =>
    match tokens with
    | .blockEntry :: rest => do
      let (item, rest) ←
        if endsBlockNode rest then some (empty, rest) else read handles steps true false rest
      (readDashes handles steps rest).map fun (items, rest) => (item :: items, rest)
    | rest => some ([], rest)

/-- The entries of a block end with it, and every entry has a key. -/
def readEntries (handles : Handles) (steps : Nat) (tokens : List Token) :
    Option (List (Node String × Node String) × List Token) :=
  match steps with
  | 0 => .none
  | steps + 1 =>
    match tokens with
    | .blockEnd :: rest => some ([], rest)
    | .key :: rest => do
      let (key, rest) ←
        if endsBlockMember rest then some (empty, rest) else read handles steps true true rest
      let (value, rest) ←
        match rest with
        | .value :: rest =>
          if endsBlockMember rest then some (empty, rest) else read handles steps true true rest
        | rest => some (empty, rest)
      (readEntries handles steps rest).map fun (entries, rest) => ((key, value) :: entries, rest)
    | _ => .none

/-- The items between brackets are nodes, or single entries that make a mapping each. -/
def readFlowItems (handles : Handles) (steps : Nat) (isFirst : Bool) (tokens : List Token) :
    Option (List (Node String) × List Token) :=
  match steps with
  | 0 => .none
  | steps + 1 =>
    match passComma isFirst .flowSequenceEnd tokens with
    | .none => .none
    | some (.flowSequenceEnd :: rest) => some ([], rest)
    | some (.key :: rest) => do
      let (key, rest) ←
        -- The token that shows a missing key is passed with it.
        if endsFlowNode .flowSequenceEnd rest || rest.head? = some .value then
          some (empty, rest.drop 1)
        else read handles steps false false rest
      let (value, rest) ← readFlowValue handles steps .flowSequenceEnd rest
      (readFlowItems handles steps false rest).map fun (items, rest) =>
        (.mapping .none [(key, value)] :: items, rest)
    | some rest => do
      let (item, rest) ← read handles steps false false rest
      (readFlowItems handles steps false rest).map fun (items, rest) => (item :: items, rest)

/-- The entries between braces; a node that is no key has no value. -/
def readFlowEntries (handles : Handles) (steps : Nat) (isFirst : Bool) (tokens : List Token) :
    Option (List (Node String × Node String) × List Token) :=
  match steps with
  | 0 => .none
  | steps + 1 =>
    match passComma isFirst .flowMappingEnd tokens with
    | .none => .none
    | some (.flowMappingEnd :: rest) => some ([], rest)
    | some (.key :: rest) => do
      let (key, rest) ←
        if endsFlowNode .flowMappingEnd rest || rest.head? = some .value then some (empty, rest)
        else read handles steps false false rest
      let (value, rest) ← readFlowValue handles steps .flowMappingEnd rest
      (readFlowEntries handles steps false rest).map fun (entries, rest) =>
        ((key, value) :: entries, rest)
    | some rest => do
      let (key, rest) ← read handles steps false false rest
      (readFlowEntries handles steps false rest).map fun (entries, rest) =>
        ((key, empty) :: entries, rest)

/-- The value of an entry between brackets stands behind a colon, or is left out. -/
def readFlowValue (handles : Handles) (steps : Nat) (close : Token) (tokens : List Token) :
    Option (Node String × List Token) :=
  match steps with
  | 0 => .none
  | steps + 1 =>
    match tokens with
    | .value :: rest =>
      if endsFlowNode close rest then some (empty, rest) else read handles steps false false rest
    | rest => some (empty, rest)

end

/-- What the directives in front of a document say. -/
structure Directives where
  hasVersion : Bool
  handles : Handles

/-- Each directive is given once, and the version is 1.1 or 1.2. -/
def readDirectives (found : Directives) : List Token → Option (Directives × List Token)
  | .version major minor :: rest =>
    if found.hasVersion || major ≠ 1 || (minor ≠ 1 && minor ≠ 2) then .none
    else readDirectives { found with hasVersion := true } rest
  | .tagDirective handle start :: rest =>
    if (found.handles.lookup handle).isSome then .none
    else readDirectives { found with handles := found.handles ++ [(handle, start)] } rest
  | rest => some (found, rest)

/-- Behind a document only its end may follow. -/
def endsDocuments (tokens : List Token) : Bool := tokens.all (· = .documentEnd)

/-- Whether a token starts or ends a document. -/
def isBoundary : Token → Bool
  | .version _ _ => true
  | .tagDirective _ _ => true
  | .documentStart => true
  | .documentEnd => true
  | _ => false

/-- The node of a document behind its start; it may be left out. -/
def readContent (handles : Handles) (tokens : List Token) : Option (Node String × List Token) :=
  if tokens.head?.all isBoundary then some (empty, tokens)
  else read handles (3 * tokens.length + 3) true false tokens

/-- The tokens of a text with a single document; a text without a document has an empty node. -/
def ofTokens? (tokens : List Token) : Option (Node String) :=
  let found :=
    match readDirectives ⟨false, []⟩ tokens with
    | .none => .none
    | some (_, []) => if tokens.isEmpty then some (empty, []) else .none
    | some (directives, .documentStart :: rest) =>
      readContent (directives.handles ++ knownHandles) rest
    | some (_, rest) =>
      if rest.length = tokens.length then
        read knownHandles (3 * tokens.length + 3) true false tokens
      else .none
  match found with
  | some (node, rest) => if endsDocuments rest then some node else .none
  | .none => .none

end Node

end SyncStore.Yaml
