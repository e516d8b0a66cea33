import ModelClient.Json.Doc
import ModelClient.Toml.Scalar

/-!
# Tables of TOML

A table is built up line by line: a header names the table that the lines after it belong to, and a
key of several parts makes tables on its way. No value and no table may be given twice. A table that
was only passed through by headers can still be given by one of its own; a table that a key made
cannot. A key adds to tables that keys made. On its way to such a table it may pass through tables
that headers passed through, and into the last table of a list, but not through one that a header
gave.
-/

namespace ModelClient.Toml

open Json

/-- How a table came to be. -/
inductive Origin where
  /-- A header, or the document itself, gives it. -/
  | given
  /-- A header passed through it. -/
  | passed
  /-- A key of several parts made it. -/
  | keyed
deriving DecidableEq, Repr

/-- What a name stands for in a table: a value, a table, or a list of tables, the last one first. -/
inductive Node where
  | value (doc : Doc)
  | table (origin : Origin) (entries : List (String × Node))
  | tables (items : List (List (String × Node)))

/-- Named nodes in the order in which they were given. -/
abbrev Entries := List (String × Node)

namespace Entries

/-- The entries with what `change` makes of the node of a name, if there is one, or of nothing. -/
def alter (name : String) (change : Option Node → Option Node) : Entries → Option Entries
  | [] => (change none).map fun node => [(name, node)]
  | (key, node) :: rest =>
    if key = name then (change (some node)).map fun node => (key, node) :: rest
    else (alter name change rest).map ((key, node) :: ·)

/-- Puts a value under a key of one or more parts. The last part but one has to name a table that
keys made. -/
def put (value : Doc) : (key : List String) → Entries → Option Entries
  | [], _ => none
  | [name], entries => entries.alter name fun
    | none => some (.value value)
    | some _ => none
  | name :: next :: key, entries => entries.alter name fun
    | none => (put value (next :: key) []).map (.table .keyed)
    | some (.table .keyed entries) => (put value (next :: key) entries).map (.table .keyed)
    | some (.table .passed entries) =>
      if key.isEmpty then none else (put value (next :: key) entries).map (.table .passed)
    | some (.tables (last :: items)) =>
      if key.isEmpty then none
      else (put value (next :: key) last).map fun last => .tables (last :: items)
    | some (.table .given _) | some (.tables []) | some (.value _) => none

/-- Changes the table at the end of a path of headers, making the tables that are missing on the way
to it. Of a list of tables the last one is meant. -/
def within (change : Entries → Option Entries) : (path : List String) → Entries → Option Entries
  | [], entries => change entries
  | name :: path, entries => entries.alter name fun
    | none => (within change path []).map (.table .passed)
    | some (.table origin entries) => (within change path entries).map (.table origin)
    | some (.tables (last :: items)) =>
      (within change path last).map fun last => .tables (last :: items)
    | some (.tables []) | some (.value _) => none

/-- Gives the table of a name by a header. -/
def give (name : String) (entries : Entries) : Option Entries :=
  entries.alter name fun
    | none => some (.table .given [])
    | some (.table .passed entries) => some (.table .given entries)
    | some _ => none

/-- Adds a table to the list of a name by a header. -/
def addTable (name : String) (entries : Entries) : Option Entries :=
  entries.alter name fun
    | none => some (.tables [[]])
    | some (.tables items) => some (.tables ([] :: items))
    | some _ => none

end Entries

mutual

/-- The document of a node. -/
def Node.toDoc : Node → Doc
  | .value d => d
  | .table _ entries => .obj .toml (entriesToDoc entries)
  | .tables items => .arr .toml (itemsToDoc items).reverse

/-- The documents of a table's nodes. -/
def entriesToDoc : List (String × Node) → List (Option String × Doc)
  | [] => []
  | (name, node) :: rest => (some name, node.toDoc) :: entriesToDoc rest

/-- The documents of a list of tables. -/
def itemsToDoc : List (List (String × Node)) → List Doc
  | [] => []
  | entries :: rest => .obj .toml (entriesToDoc entries) :: itemsToDoc rest

end

end ModelClient.Toml
