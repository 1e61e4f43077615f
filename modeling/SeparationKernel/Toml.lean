import SeparationKernel.Toml.Value

/-! Configuration files as data. The order of keys in the file is kept. -/
namespace SeparationKernel.Toml

/-- One line of a file, or several if its value goes on. -/
inductive Statement where
  | table (path : List String) (key : String)
  | appendedTable (path : List String) (key : String)
  | assignment (path : List String) (key : String) (value : Datum)
deriving Repr

def headerKey? (closing cs : List Char) : Option ((List String × String) × List Char) :=
  (dottedKey? keyLengthMax (skipBlanks cs)).bind fun (key, cs) =>
    let cs := skipBlanks cs
    if closing.isPrefixOf cs then some (key, cs.drop closing.length) else none

def statement? : Reader Statement
  | '[' :: '[' :: cs =>
    (headerKey? [']', ']'] cs).map fun ((path, key), rest) => (.appendedTable path key, rest)
  | '[' :: cs => (headerKey? [']'] cs).map fun ((path, key), rest) => (.table path key, rest)
  | cs =>
    (dottedKey? keyLengthMax cs).bind fun ((path, key), cs) =>
      (skipEquals? cs).bind fun cs =>
        (outerValue? cs).map fun (value, rest) => (.assignment path key value, rest)

/-- The entries of a file, with the path of the header that assignments belong to. -/
structure Document where
  entries : Entries := []
  current : List String := []

namespace Document

def perform? (d : Document) : Statement → Option Document
  | .table path key =>
    (d.entries.descend? (·.openTable? key) path).map fun entries =>
      { entries, current := path ++ [key] }
  | .appendedTable path key =>
    (d.entries.descend? (·.appendTable? key) path).map fun entries =>
      { entries, current := path ++ [key] }
  | .assignment path key value =>
    (d.entries.descend? (·.assign? key value path) d.current).map fun entries =>
      { d with entries }

def read? (d : Document) : Nat → List Char → Option Document
  | 0, _ => none
  | n + 1, cs =>
    match skipLines false cs with
    | none => none
    | some [] => some d
    | some cs =>
      (statement? cs).bind fun (s, cs) =>
        (skipLineEnd? cs).bind fun cs => (d.perform? s).bind fun d => d.read? n cs

end Document

/-- The contents of a file, if it is well formed. A byte order mark in front is left out. -/
def read? (text : String) : Option Datum :=
  let cs := text.toList
  let cs := if cs.head? = some '\uFEFF' then cs.drop 1 else cs
  (Document.read? {} (cs.length + 1) cs).map fun d => d.entries.toDatum

end SeparationKernel.Toml
