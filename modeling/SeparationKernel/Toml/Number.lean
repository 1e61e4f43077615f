import SeparationKernel.Datum
import SeparationKernel.Toml.Text

/-! Numbers of a configuration file. No key has a number with a fraction or an exponent, so of those
only the form is checked. -/
namespace SeparationKernel.Toml

/-- Every underscore stands right between two digits. The flag tells of one before the text. A sign
is no digit. -/
def separates (isDigit : Char → Bool) : (afterDigit : Bool) → List Char → Bool
  | _, [] => true
  | afterDigit, '_' :: cs => afterDigit && cs.head?.any isDigit && separates isDigit false cs
  | _, c :: cs => separates isDigit (isDigit c) cs

def natural? (base : Nat) (cs : List Char) : Option Nat :=
  ((cs.filter (· ≠ '_')).mapM (digit? base)).bind fun ds =>
    if ds.isEmpty then none else some (ds.foldl (base * · + ·) 0)

def integer (base : Nat) (cs : List Char) : Datum :=
  match natural? base cs with
  | some n => .int n
  | none => .foreign

def based? (base : Nat) (cs : List Char) : Option Datum :=
  if cs.all (fun c => c = '_' || (digit? base c).isSome) && separates isHexDigit false cs then
    some (integer base cs)
  else none

/-- No leading zeros. What follows an underscore need not be decimal, but then there is no value.
-/
def decimal? (cs : List Char) : Option Datum :=
  if (cs.head? = some '0' && 1 < cs.length) || !separates isHexDigit false cs then none
  else some (integer 10 cs)

def skipDigits? (leadingZeros : Bool) (cs : List Char) : Option (List Char) :=
  let digits := cs.takeWhile fun c => isDecimalDigit c || c = '_'
  let count := digits.countP isDecimalDigit
  if count = 0 || (!leadingZeros && 1 < count && digits.head? = some '0') then none
  else some (cs.drop digits.length)

def skipFraction? : List Char → Option (List Char)
  | '.' :: cs => skipDigits? true cs
  | cs => some cs

def skipSign : List Char → List Char
  | '+' :: cs => cs
  | '-' :: cs => cs
  | cs => cs

def skipExponent? : List Char → Option (List Char)
  | 'e' :: cs => skipDigits? true (skipSign cs)
  | 'E' :: cs => skipDigits? true (skipSign cs)
  | cs => some cs

def isReal (cs : List Char) : Bool :=
  ((skipDigits? false cs).bind skipFraction?).bind skipExponent? == some [] &&
    separates isDecimalDigit false cs

/-- A number without its sign, in decimal. What comes after the first digits tells the kind. A space
is refused, while a tab after an underscore only keeps the digits from having a value. -/
def plain? (cs : List Char) : Option Datum :=
  let rest := cs.dropWhile isDecimalDigit
  if cs.isEmpty || rest.contains ' ' then none
  else if rest.any (['.', 'e', 'E'].contains ·) then
    if isReal cs then some .foreign else none
  else if rest.isEmpty || rest.head? = some '_' then decimal? cs
  else none

def unsigned? (signed : Bool) : List Char → Option Datum
  | '0' :: 'x' :: cs => if signed then none else based? 16 cs
  | '0' :: 'o' :: cs => if signed then none else based? 8 cs
  | '0' :: 'b' :: cs => if signed then none else based? 2 cs
  | ['i', 'n', 'f'] => some .foreign
  | ['n', 'a', 'n'] => some .foreign
  | cs => plain? cs

def negated : Datum → Datum
  | .int n => .int (-n)
  | d => d

def number? : List Char → Option Datum
  | '+' :: cs => unsigned? true cs
  | '-' :: cs => (unsigned? true cs).map negated
  | cs => unsigned? false cs

end SeparationKernel.Toml
