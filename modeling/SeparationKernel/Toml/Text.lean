/-! The parts of a configuration file below values: blanks, line ends and comments, strings and
keys. Each reader takes the characters from where it stands on, and gives those after what it read.
-/
namespace SeparationKernel.Toml

/-- Reads something from the front of a text, unless it is not there. -/
abbrev Reader (α : Type) := List Char → Option (α × List Char)

def isBlank (c : Char) : Bool := c = ' ' || c = '\t'

/-- Tab is no control character here. -/
def isControl (c : Char) : Bool := (c.toNat < 0x20 && c ≠ '\t') || c.toNat = 0x7F

def skipBlanks (cs : List Char) : List Char := cs.dropWhile isBlank

def skipNewline? : List Char → Option (List Char)
  | '\n' :: cs => some cs
  | '\r' :: '\n' :: cs => some cs
  | _ => none

def skipLines (inComment : Bool) : List Char → Option (List Char)
  | [] => some []
  | '\n' :: cs => skipLines false cs
  | '\r' :: '\n' :: cs => skipLines false cs
  | c :: cs =>
    if inComment then if isControl c then none else skipLines true cs
    else if isBlank c then skipLines false cs
    else if c = '#' then skipLines true cs
    else some (c :: cs)

def skipLineEnd? (cs : List Char) : Option (List Char) :=
  let cs := skipBlanks cs
  let cs := if cs.head? = some '#' then cs.dropWhile fun c => !isControl c else cs
  if cs.isEmpty then some [] else skipNewline? cs

def digit? (base : Nat) (c : Char) : Option Nat :=
  let value :=
    if '0' ≤ c ∧ c ≤ '9' then c.toNat - 48
    else if 'a' ≤ c ∧ c ≤ 'f' then c.toNat - 87
    else if 'A' ≤ c ∧ c ≤ 'F' then c.toNat - 55
    else 16
  if value < base then some value else none

def isDecimalDigit (c : Char) : Bool := (digit? 10 c).isSome

def isHexDigit (c : Char) : Bool := (digit? 16 c).isSome

def codePoint? (digits : List Char) : Option Char :=
  (digits.mapM (digit? 16)).bind fun ds =>
    let n := ds.foldl (fun n d => 16 * n + d) 0
    if n.isValidChar then some (Char.ofNat n) else none

def escaped? : Char → Option Char
  | 'b' => some '\x08'
  | 't' => some '\t'
  | 'n' => some '\n'
  | 'f' => some '\x0c'
  | 'r' => some '\r'
  | 'e' => some '\x1b'
  | '"' => some '"'
  | '\\' => some '\\'
  | _ => none

def before (c : Char) (read : Option (List Char × List Char)) : Option (List Char × List Char) :=
  read.map fun (text, rest) => (c :: text, rest)

def basicText : Reader (List Char)
  | [] => none
  | '"' :: cs => some ([], cs)
  | '\\' :: 'x' :: a :: b :: cs => (codePoint? [a, b]).bind fun x => before x (basicText cs)
  | '\\' :: 'u' :: a :: b :: c :: d :: cs =>
    (codePoint? [a, b, c, d]).bind fun x => before x (basicText cs)
  | '\\' :: 'U' :: a :: b :: c :: d :: e :: f :: g :: h :: cs =>
    (codePoint? [a, b, c, d, e, f, g, h]).bind fun x => before x (basicText cs)
  | '\\' :: c :: cs => (escaped? c).bind fun x => before x (basicText cs)
  | c :: cs => if isControl c then none else before c (basicText cs)

/-- The rest of a string in single quotes, which knows no escapes. -/
def literalText : Reader (List Char)
  | [] => none
  | '\'' :: cs => some ([], cs)
  | c :: cs => if isControl c then none else before c (literalText cs)

def endsLine (cs : List Char) : Bool := (skipNewline? (skipBlanks cs)).isSome

/-- The rest of a string in triple double quotes. Up to two quotes may stand before the closing
ones. A backslash at the end of a line leaves out all blanks and line ends that follow. -/
def multilineBasicText (trimming : Bool) : Reader (List Char)
  | [] => none
  | '"' :: '"' :: '"' :: '"' :: '"' :: cs => some (['"', '"'], cs)
  | '"' :: '"' :: '"' :: '"' :: cs => some (['"'], cs)
  | '"' :: '"' :: '"' :: cs => some ([], cs)
  | '\n' :: cs =>
    if trimming then multilineBasicText true cs else before '\n' (multilineBasicText false cs)
  | '\r' :: '\n' :: cs =>
    if trimming then multilineBasicText true cs
    else before '\r' (before '\n' (multilineBasicText false cs))
  | '\\' :: 'x' :: a :: b :: cs =>
    (codePoint? [a, b]).bind fun x => before x (multilineBasicText false cs)
  | '\\' :: 'u' :: a :: b :: c :: d :: cs =>
    (codePoint? [a, b, c, d]).bind fun x => before x (multilineBasicText false cs)
  | '\\' :: 'U' :: a :: b :: c :: d :: e :: f :: g :: h :: cs =>
    (codePoint? [a, b, c, d, e, f, g, h]).bind fun x => before x (multilineBasicText false cs)
  | '\\' :: c :: cs =>
    if endsLine (c :: cs) then multilineBasicText true cs
    else (escaped? c).bind fun x => before x (multilineBasicText false cs)
  | c :: cs =>
    if trimming && isBlank c then multilineBasicText true cs
    else if isControl c then none
    else before c (multilineBasicText false cs)

def multilineLiteralText : Reader (List Char)
  | [] => none
  | '\'' :: '\'' :: '\'' :: '\'' :: '\'' :: cs => some (['\'', '\''], cs)
  | '\'' :: '\'' :: '\'' :: '\'' :: cs => some (['\''], cs)
  | '\'' :: '\'' :: '\'' :: cs => some ([], cs)
  | '\n' :: cs => before '\n' (multilineLiteralText cs)
  | '\r' :: '\n' :: cs => before '\r' (before '\n' (multilineLiteralText cs))
  | c :: cs => if isControl c then none else before c (multilineLiteralText cs)

/-- A line end right after the opening quotes is not part of the string. -/
def skipFirstNewline (cs : List Char) : List Char := (skipNewline? cs).getD cs

def string? (cs : List Char) : Option (String × List Char) :=
  let read :=
    match cs with
    | '"' :: '"' :: '"' :: cs => multilineBasicText false (skipFirstNewline cs)
    | '\'' :: '\'' :: '\'' :: cs => multilineLiteralText (skipFirstNewline cs)
    | '"' :: cs => basicText cs
    | '\'' :: cs => literalText cs
    | _ => none
  read.map fun (text, rest) => (.ofList text, rest)

def isBareKey (c : Char) : Bool := c.isAlphanum || c = '_' || c = '-'

def simpleKey? : Reader String
  | '"' :: cs => (basicText cs).map fun (text, rest) => (.ofList text, rest)
  | '\'' :: cs => (literalText cs).map fun (text, rest) => (.ofList text, rest)
  | cs =>
    let key := cs.takeWhile isBareKey
    if key.isEmpty then none else some (.ofList key, cs.dropWhile isBareKey)

/-- How many keys may be joined by dots. -/
def keyLengthMax : Nat := 80

def dottedKey? : Nat → Reader (List String × String)
  | 0, _ => none
  | n + 1, cs =>
    (simpleKey? cs).bind fun (key, cs) =>
      match skipBlanks cs with
      | '.' :: cs =>
        (dottedKey? n (skipBlanks cs)).map fun ((path, last), rest) => ((key :: path, last), rest)
      | _ => some (([], key), cs)

end SeparationKernel.Toml
