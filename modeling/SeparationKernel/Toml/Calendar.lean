import SeparationKernel.Toml.Text

/-! Dates and times of day of a configuration file. No key has one, so only the form is checked. -/
namespace SeparationKernel.Toml

def fixed? (n min max : Nat) : Reader Nat := fun cs =>
  ((cs.take n).mapM (digit? 10)).bind fun ds =>
    let value := ds.foldl (10 * · + ·) 0
    if ds.length = n && min ≤ value && value ≤ max then some (value, cs.drop n) else none

def after? (c : Char) : List Char → Option (List Char)
  | d :: cs => if d = c then some cs else none
  | [] => none

def isLeapYear (year : Nat) : Bool := year % 4 = 0 && (year % 100 ≠ 0 || year % 400 = 0)

def daysIn (year month : Nat) : Nat :=
  if month = 2 then if isLeapYear year then 29 else 28
  else if [4, 6, 9, 11].contains month then 30
  else 31

/-- What follows a date, as in `2024-02-29`. -/
def skipDate? (cs : List Char) : Option (List Char) := do
  let (year, cs) ← fixed? 4 0 9999 cs
  let (month, cs) ← fixed? 2 1 12 (← after? '-' cs)
  let (_, cs) ← fixed? 2 1 (daysIn year month) (← after? '-' cs)
  return cs

def skipHourMinute? (cs : List Char) : Option (List Char) := do
  let (_, cs) ← fixed? 2 0 23 cs
  let (_, cs) ← fixed? 2 0 59 (← after? ':' cs)
  return cs

/-- What follows seconds, which may be left out. One may be a leap second, and it may have a
fraction. -/
def skipSeconds? : List Char → Option (List Char)
  | ':' :: cs =>
    (fixed? 2 0 60 cs).bind fun
      | (_, '.' :: cs) =>
        let rest := cs.dropWhile isDecimalDigit
        if rest.length < cs.length then some rest else none
      | (_, cs) => some cs
  | cs => some cs

def skipTime? (cs : List Char) : Option (List Char) := (skipHourMinute? cs).bind skipSeconds?

/-- What follows the distance from universal time, which may be left out. -/
def skipOffset? : List Char → Option (List Char)
  | 'Z' :: cs => some cs
  | 'z' :: cs => some cs
  | '+' :: cs => skipHourMinute? cs
  | '-' :: cs => skipHourMinute? cs
  | cs => some cs

def isMoment (cs : List Char) : Bool :=
  match skipDate? cs with
  | none => skipTime? cs == some []
  | some [] => true
  | some (c :: cs) => ['T', 't', ' '].contains c && (skipTime? cs).bind skipOffset? == some []

end SeparationKernel.Toml
