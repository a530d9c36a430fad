import LiveFragment.Document

/-! The tables of a TOML text while they are being filled. How a table came to be decides how it
may be extended: a header may restate only a table that other headers implied, and a dotted key may
extend only tables that dotted keys made. -/

namespace LiveFragment.Toml

/-- How a table came to be. -/
inductive Standing
  /-- Named within the path of a header. -/
  | implied
  /-- Named within a dotted key. -/
  | dotted
  /-- Opened by a header. -/
  | stated
deriving DecidableEq, Repr

inductive Node
  | leaf (document : Document)
  | table (standing : Standing) (entries : List (String × Node))
  /-- Tables under one name, each opened by a header in double brackets. -/
  | tables (list : List (List (String × Node)))
deriving Inhabited

abbrev Entries := List (String × Node)

namespace Entries

def find? (entries : Entries) (key : String) : Option Node := List.lookup key entries

def replace (entries : Entries) (key : String) (node : Node) : Entries :=
  entries.map fun entry => if entry.1 = key then (key, node) else entry

def remove (entries : Entries) (key : String) : Entries := entries.filter (·.1 ≠ key)

/-- Changes the table at the end of a path. Tables that are missing on the way are made with the
given standing; of tables under one name the last is meant. -/
def change (standing : Standing) (apply : Standing → Entries → Option Entries) :
    List String → Standing → Entries → Option Entries
  | [], here, entries => apply here entries
  | key :: path, _, entries =>
    match entries.find? key with
    | none => do
      let inner ← change standing apply path standing []
      some (entries ++ [(key, .table standing inner)])
    | some (.leaf _) => none
    | some (.table held inner) =>
      if standing = .dotted ∧ held = .stated then none
      else do
        let inner ← change standing apply path held inner
        some (entries.replace key (.table held inner))
    | some (.tables list) => do
      let inner ← change standing apply path .stated (list.getLast?.getD [])
      some (entries.replace key (.tables (list.dropLast ++ [inner])))

/-- Puts a value into a table under a dotted key. -/
def put (path : List String) (key : String) (document : Document) (here : Standing)
    (entries : Entries) : Option Entries :=
  let place (reached : Standing) (entries : Entries) : Option Entries :=
    if decide (reached = .dotted) = path.isEmpty then none
    else if (entries.find? key).isSome then none
    else some (entries ++ [(key, .leaf document)])
  change .dotted place path here entries

/-- Opens the table of a header. A table that was only implied so far moves behind its
neighbours. -/
def openTable (path : List String) (key : String) (root : Entries) : Option Entries :=
  let open' (_ : Standing) (entries : Entries) : Option Entries :=
    match entries.find? key with
    | none => some (entries ++ [(key, .table .stated [])])
    | some (.table .implied inner) => some (entries.remove key ++ [(key, .table .stated inner)])
    | some _ => none
  change .implied open' path .stated root

/-- Opens one more table under the name of a header in double brackets. -/
def openNext (path : List String) (key : String) (root : Entries) : Option Entries :=
  let open' (_ : Standing) (entries : Entries) : Option Entries :=
    match entries.find? key with
    | none => some (entries ++ [(key, .tables [[]])])
    | some (.tables list) => some (entries.replace key (.tables (list ++ [[]])))
    | some _ => none
  change .implied open' path .stated root

end Entries

mutual

def Node.toDocument : Node → Document
  | .leaf document => document
  | .table _ entries => .table (Entries.toFields entries)
  | .tables list => .list (Entries.toDocuments list)

def Entries.toFields : List (String × Node) → List (String × Document)
  | [] => []
  | (key, node) :: rest => (key, node.toDocument) :: Entries.toFields rest

def Entries.toDocuments : List (List (String × Node)) → List Document
  | [] => []
  | entries :: rest => .table (Entries.toFields entries) :: Entries.toDocuments rest

end

end LiveFragment.Toml
