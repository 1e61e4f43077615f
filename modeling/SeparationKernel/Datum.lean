/-! Values as data formats write them, and how typed values are read from them. A record is read by
the names of its fields; a list can stand for a record, with the values in the order of the fields.
-/
namespace SeparationKernel

inductive Datum where
  | null
  | bool (value : Bool)
  | int (value : Int)
  /-- A number that is no integer, or a date. No type has such values. -/
  | foreign
  | text (value : String)
  | list (items : List Datum)
  | record (entries : List (String × Datum))
deriving Repr, Inhabited

namespace Datum

/-- Which fields may be left out: none, those of a record but not the last ones of a list, or both.
-/
inductive Presence where
  | required
  | optional
  | defaulted
deriving DecidableEq, Repr

structure Shape where
  fields : List (String × Presence)
  /-- Fields not listed are refused. -/
  isClosed : Bool := true

def Shape.ofNames (names : List String) : Shape where
  fields := names.map (·, .required)

/-- Whether a field of the record is there more than once. -/
def Shape.isRepeatedIn (shape : Shape) (entries : List (String × Datum)) : Bool :=
  shape.fields.any fun f => 1 < (entries.map (·.1)).count f.1

/-- The values of the fields, in order, if the value has the shape. -/
def arrange? (shape : Shape) : Datum → Option (List (Option Datum))
  | .record entries =>
    if shape.isClosed && entries.any (fun e => (shape.fields.lookup e.1).isNone) then none
    else if shape.isRepeatedIn entries then none
    else
      shape.fields.mapM fun (name, presence) =>
        match entries.lookup name with
        | some value => some (some value)
        | none => if presence = .required then none else some none
  | .list items =>
    if items.length ≤ shape.fields.length &&
        (shape.fields.drop items.length).all (·.2 = .defaulted) then
      some (items.map some ++ List.replicate (shape.fields.length - items.length) none)
    else none
  | _ => none

def require? (shape : Shape) (d : Datum) : Option (List Datum) :=
  (d.arrange? shape).bind (·.mapM id)

def cutTo (n : Nat) : Datum → Datum
  | .list items => .list (items.take n)
  | d => d

/-- An integer below `size` that is not negative. -/
def nat? (size : Nat) : Datum → Option Nat
  | .int value => if 0 ≤ value ∧ value < size then some value.toNat else none
  | _ => none

def byte? (d : Datum) : Option UInt8 := (d.nat? UInt8.size).map .ofNat

def halfword? (d : Datum) : Option UInt16 := (d.nat? UInt16.size).map .ofNat

def word? (d : Datum) : Option UInt32 := (d.nat? UInt32.size).map .ofNat

def doubleword? (d : Datum) : Option UInt64 := (d.nat? UInt64.size).map .ofNat

def bool? : Datum → Option Bool
  | .bool value => some value
  | _ => none

def text? : Datum → Option String
  | .text value => some value
  | _ => none

def list? {α : Type} (item? : Datum → Option α) : Datum → Option (List α)
  | .list items => items.mapM item?
  | _ => none

/-- A record whose fields have any names, in order. -/
def entries? {α : Type} (item? : Datum → Option α) : Datum → Option (List (String × α))
  | .record entries => entries.mapM fun (name, d) => (item? d).map (name, ·)
  | _ => none

/-- One of several alternatives: its name, or a record with the name for its only field, which holds
what comes with the alternative. -/
def choice? : Datum → Option (String × Datum)
  | .text name => some (name, .null)
  | .record [(name, content)] => some (name, content)
  | _ => none

def ofByte (n : UInt8) : Datum := .int n.toNat

def ofHalfword (n : UInt16) : Datum := .int n.toNat

def ofWord (n : UInt32) : Datum := .int n.toNat

@[simp] theorem nat?_int {size n : Nat} (h : n < size) : (int n).nat? size = some n := by
  have h' : ((n : Int) < (size : Int)) := by omega
  simp [nat?, h']

@[simp] theorem byte?_ofByte (n : UInt8) : (ofByte n).byte? = some n := by
  rw [byte?, ofByte, nat?_int n.toNat_lt]
  simp

@[simp] theorem halfword?_ofHalfword (n : UInt16) : (ofHalfword n).halfword? = some n := by
  rw [halfword?, ofHalfword, nat?_int n.toNat_lt]
  simp

@[simp] theorem word?_ofWord (n : UInt32) : (ofWord n).word? = some n := by
  rw [word?, ofWord, nat?_int n.toNat_lt]
  simp

end Datum
end SeparationKernel
