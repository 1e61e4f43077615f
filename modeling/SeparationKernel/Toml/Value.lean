import SeparationKernel.Toml.Calendar
import SeparationKernel.Toml.Number
import SeparationKernel.Toml.Tree

/-! Values of a configuration file. Lists and tables nest only so deep, and a table in braces may go
on over several lines. -/
namespace SeparationKernel.Toml

def nestingMax : Nat := 80

/-- May stand in a value without quotes. A blank may, between a date and a time of day. -/
def isScalar (c : Char) : Bool := !(['=', ',', '[', ']', '{', '}', '#', '\r', '\n'].contains c)

/-- A quote comes right after a blank. There it opens a string, elsewhere it is like a letter. -/
def opensString : List Char → Bool
  | b :: q :: cs => (isBlank b && (q = '"' || q = '\'')) || opensString (q :: cs)
  | _ => false

def word? (cs : List Char) : Option Datum :=
  match cs with
  | ['t', 'r', 'u', 'e'] => some (.bool true)
  | ['f', 'a', 'l', 's', 'e'] => some (.bool false)
  | cs => if isMoment cs then some .foreign else number? cs

/-- A value without quotes, which no string may follow. Blanks after it do not belong to it. -/
def scalar? : Reader Datum := fun cs =>
  let text := cs.takeWhile isScalar
  if opensString text then none
  else (word? (text.reverse.dropWhile isBlank).reverse).map (·, cs.dropWhile isScalar)

def skipEquals? (cs : List Char) : Option (List Char) :=
  match skipBlanks cs with
  | '=' :: cs => some (skipBlanks cs)
  | _ => none

def skipEqualsInBraces? (cs : List Char) : Option (List Char) :=
  match skipLines false cs with
  | some ('=' :: cs) => skipLines false cs
  | _ => none

mutual

/-- A value, in at most as many steps as the first argument allows. The second one tells how many
lists and tables may still be opened. -/
def value? : (steps room : Nat) → Reader Datum
  | 0, _, _ => none
  | n + 1, room, cs =>
    match cs with
    | '[' :: cs =>
      if room = 0 then none
      else (items? n (room - 1) cs).map fun (items, rest) => (.list items, rest)
    | '{' :: cs =>
      if room = 0 then none
      else (fields? n (room - 1) [] cs).map fun (entries, rest) => (entries.toDatum, rest)
    | '"' :: _ => (string? cs).map fun (text, rest) => (.text text, rest)
    | '\'' :: _ => (string? cs).map fun (text, rest) => (.text text, rest)
    | _ => scalar? cs

def items? : (steps room : Nat) → Reader (List Datum)
  | 0, _, _ => none
  | n + 1, room, cs =>
    match skipLines false cs with
    | none => none
    | some (']' :: rest) => some ([], rest)
    | some cs =>
      (value? n room cs).bind fun (item, cs) =>
        match skipLines false cs with
        | some (',' :: cs) => (items? n room cs).map fun (items, rest) => (item :: items, rest)
        | some (']' :: rest) => some ([item], rest)
        | _ => none

def fields? : (steps room : Nat) → Entries → Reader Entries
  | 0, _, _, _ => none
  | n + 1, room, entries, cs =>
    match skipLines false cs with
    | none => none
    | some ('}' :: rest) => some (entries, rest)
    | some cs =>
      (dottedKey? keyLengthMax cs).bind fun ((path, key), cs) =>
        (skipEqualsInBraces? cs).bind fun cs =>
          (value? n room cs).bind fun (value, cs) =>
            (entries.assign? key value path).bind fun entries =>
              match skipLines false cs with
              | some (',' :: cs) => fields? n room entries cs
              | some ('}' :: rest) => some (entries, rest)
              | _ => none

end

def outerValue? : Reader Datum := fun cs => value? (2 * cs.length + 2) nestingMax cs

end SeparationKernel.Toml
