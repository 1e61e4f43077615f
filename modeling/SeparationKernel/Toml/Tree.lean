import SeparationKernel.Datum

/-! The tables of a configuration file while it is read. How a table came to be decides what may
still be added to it. -/
namespace SeparationKernel.Toml

/-- How a table came to be: on the way to a table with a header, by its own header, or by a key with
dots. -/
inductive Origin where
  | implied
  | header
  | dotted
deriving DecidableEq, Repr

inductive Node where
  /-- Complete, as is a table in braces. -/
  | value (value : Datum)
  | table (origin : Origin) (entries : List (String × Node))
  /-- Tables under one name. Only the latest can still change. -/
  | tables (earlier : List (List (String × Node))) (latest : List (String × Node))
deriving Repr

abbrev Entries := List (String × Node)

namespace Entries

/-- Changes what stands under a key, or puts something new under it, last. -/
def change? (key : String) (f : Option Node → Option Node) : Entries → Option Entries
  | [] => (f none).map fun node => [(key, node)]
  | (k, node) :: rest =>
    if k = key then (f (some node)).map fun node => (k, node) :: rest
    else (change? key f rest).map ((k, node) :: ·)

def descend? (f : Entries → Option Entries) : List String → Entries → Option Entries
  | [], es => f es
  | key :: path, es =>
    es.change? key fun
      | none => (descend? f path []).map (.table .implied)
      | some (.table origin inner) => (descend? f path inner).map (.table origin)
      | some (.tables earlier latest) => (descend? f path latest).map (.tables earlier)
      | some (.value _) => none

/-- A table gets its header. One that was implied before goes last. -/
def openTable? (key : String) (es : Entries) : Option Entries :=
  match es.lookup key with
  | none => some (es ++ [(key, .table .header [])])
  | some (.table .implied inner) =>
    some (es.filter (·.1 ≠ key) ++ [(key, .table .header inner)])
  | some _ => none

def appendTable? (key : String) (es : Entries) : Option Entries :=
  es.change? key fun
    | none => some (.tables [] [])
    | some (.tables earlier latest) => some (.tables (earlier ++ [latest]) [])
    | some _ => none

/-- Puts a value under a key with dots. Its tables must not have headers. -/
def assign? (key : String) (value : Datum) : List String → Entries → Option Entries
  | [], es => es.change? key fun
    | none => some (.value value)
    | some _ => none
  | k :: path, es =>
    es.change? k fun
      | none => (assign? key value path []).map (.table .dotted)
      | some (.table .dotted inner) => (assign? key value path inner).map (.table .dotted)
      | some (.table .implied inner) =>
        if path.isEmpty then none else (assign? key value path inner).map (.table .implied)
      | some _ => none

end Entries

mutual

def Node.toDatum : Node → Datum
  | .value value => value
  | .table _ entries => .record (toFields entries)
  | .tables earlier latest => .list (toRecords earlier ++ [.record (toFields latest)])

def toFields : List (String × Node) → List (String × Datum)
  | [] => []
  | (key, node) :: rest => (key, node.toDatum) :: toFields rest

def toRecords : List (List (String × Node)) → List Datum
  | [] => []
  | entries :: rest => .record (toFields entries) :: toRecords rest

end

def Entries.toDatum (es : Entries) : Datum := .record (toFields es)

end SeparationKernel.Toml
