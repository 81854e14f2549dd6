import SyncStore.OrderedMap
import SyncStore.Toml.Document

/-! Statements are assembled into tables, and no statement may define again what another defined. -/

namespace SyncStore.Toml

/-- How a table came about decides which statements may still extend it. -/
inductive TableKind where
  | stated
  | implied
  | dotted
  deriving DecidableEq

/-- A table under construction; a list of tables always has a last one, which is still open. -/
inductive Draft where
  | value (v : Inline)
  | table (kind : TableKind) (entries : List (String × Draft))
  | tables (earlier : List (List (String × Draft))) (last : List (String × Draft))

/-- The entries of a table under construction. -/
abbrev Drafts := List (String × Draft)

/-- A key with its value; a key of several parts leads through the tables of its path. -/
structure Entry where
  path : List String
  key : String
  value : Inline

/-- A header opens a table, or the next table of a list. -/
structure Header where
  path : List String
  key : String
  isElement : Bool

/-- A section is a header and the entries under it. -/
structure Section where
  header : Header
  entries : List Entry

namespace Drafts

/--
A change is made to the table at the end of a path, and missing tables on the way are created.

A dotted path never leads through a table that has its own header.
-/
def changeAt (dotted : Bool) (change : TableKind → Drafts → Option Drafts) :
    (path : List String) → TableKind → Drafts → Option Drafts
  | [], kind, entries => change kind entries
  | key :: path, _, entries =>
    match OrderedMap.get? key entries with
    -- The tables on the way remember that no header states them.
    | none =>
      let kind : TableKind := if dotted then .dotted else .implied
      (changeAt dotted change path kind []).map fun inner =>
        OrderedMap.insert key (.table kind inner) entries
    | some (.table kind inner) =>
      -- A table with a header of its own is closed for dotted keys.
      if dotted && kind = .stated then none
      else (changeAt dotted change path kind inner).map fun inner =>
        OrderedMap.insert key (.table kind inner) entries
    | some (.tables earlier last) =>
      -- A path through a list of tables leads into its last table.
      (changeAt dotted change path .stated last).map fun last =>
        OrderedMap.insert key (.tables earlier last) entries
    -- A value has nothing inside that could be changed.
    | some (.value _) => none

/-- Only a dotted key extends a dotted table, and no key is given twice. -/
def addEntry (entries : Drafts) (entry : Entry) : Option Drafts :=
  let dotted := !entry.path.isEmpty
  changeAt dotted
    (fun kind inner =>
      -- A dotted key ends in a table that only dotted keys may extend.
      if (kind = .dotted) = dotted && !OrderedMap.contains entry.key inner
      then some (OrderedMap.insert entry.key (.value entry.value) inner)
      else none)
    entry.path .stated entries

/-- Entries are added one after the other. -/
def addEntries (entries : Drafts) (added : List Entry) : Option Drafts :=
  added.foldlM addEntry entries

/-- A header without brackets around it twice is new, or states a table that was only implied. -/
def openTable (key : String) (added : List Entry) (entries : Drafts) : Option Drafts :=
  match OrderedMap.get? key entries with
  | none => (addEntries [] added).map fun inner => entries ++ [(key, .table .stated inner)]
  -- The table moves behind the others, to where its header stands.
  | some (.table .implied inner) =>
    (addEntries inner added).map fun inner =>
      OrderedMap.erase key entries ++ [(key, .table .stated inner)]
  | some _ => none

/-- A header of an element starts a list or continues one. -/
def openElement (key : String) (added : List Entry) (entries : Drafts) : Option Drafts :=
  match OrderedMap.get? key entries with
  | none => (addEntries [] added).map fun inner => entries ++ [(key, .tables [] inner)]
  -- The table that was open is closed, and the new one takes its place.
  | some (.tables earlier last) =>
    (addEntries [] added).map fun inner =>
      OrderedMap.insert key (.tables (earlier ++ [last]) inner) entries
  | some _ => none

/-- A section is added at the path of its header. -/
def addSection (root : Drafts) (added : Section) : Option Drafts :=
  let change := if added.header.isElement then openElement else openTable
  -- Headers may lead through any table, stated or not.
  changeAt false (fun _ entries => change added.header.key added.entries entries)
    added.header.path .stated root

end Drafts

mutual

/-- The finished item. -/
def Draft.item : Draft → Item
  | .value v => .value v
  | .table _ entries => .table (finishedEntries entries)
  | .tables earlier last => .tables (finishedTables earlier ++ [finishedEntries last])

/-- The finished entries of a table. -/
def finishedEntries : List (String × Draft) → List (String × Item)
  | [] => []
  | (key, draft) :: rest => (key, draft.item) :: finishedEntries rest

/-- The finished tables of a list. -/
def finishedTables : List (List (String × Draft)) → List (List (String × Item))
  | [] => []
  | entries :: rest => finishedEntries entries :: finishedTables rest

end

mutual

/-- The inline form of what the entries of an inline table built; they never
build a list of tables. -/
def Draft.inline : Draft → Inline
  | .value v => v
  | .table _ entries => .table (inlineDrafts entries)
  | .tables _ last => .table (inlineDrafts last)

/-- The inline forms of entries. -/
def inlineDrafts : List (String × Draft) → List (String × Inline)
  | [] => []
  | (key, draft) :: rest => (key, draft.inline) :: inlineDrafts rest

end

/-- The entries between braces make an inline table. -/
def assembleInline (entries : List Entry) : Option Inline :=
  (Drafts.addEntries [] entries).map fun drafts => .table (inlineDrafts drafts)

/-- The entries in front of all headers and the sections behind them make a document. -/
def assemble (entries : List Entry) (sections : List Section) : Option Document :=
  (Drafts.addEntries [] entries).bind fun root =>
    (sections.foldlM Drafts.addSection root).map finishedEntries

end SyncStore.Toml
