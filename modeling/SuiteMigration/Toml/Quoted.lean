/-!
Quoted texts of TOML documents: basic and literal ones, on one line or several. A reader gives what
it has read and the rest of the document.
-/

set_option autoImplicit false
set_option relaxedAutoImplicit false

namespace SuiteMigration.Toml

abbrev Reader (α : Type) := List Char → Option (α × List Char)

def isSpace (c : Char) : Bool :=
  c == ' ' || c == '\t'

/-- Characters that may stand in a line: no controls but the tab. -/
def isPlain (c : Char) : Bool :=
  c == '\t' || (decide (32 ≤ c.toNat) && c.toNat != 127)

def spaces (cs : List Char) : List Char :=
  cs.dropWhile isSpace

/-- The rest after an end of line. -/
def newline? : List Char → Option (List Char)
  | '\n' :: rest => some rest
  | '\r' :: '\n' :: rest => some rest
  | _ => none

/-- Puts a character before what a reader has read. -/
def push (c : Char) (result : Option (List Char × List Char)) : Option (List Char × List Char) :=
  result.map fun (text, rest) ↦ (c :: text, rest)

def hexDigit? (c : Char) : Option Nat :=
  if '0' ≤ c && c ≤ '9' then some (c.toNat - 48)
  else if 'a' ≤ c && c ≤ 'f' then some (c.toNat - 87)
  else if 'A' ≤ c && c ≤ 'F' then some (c.toNat - 55)
  else none

def hexNumber? (digits : List Char) : Option Nat :=
  digits.foldlM (fun n c ↦ (hexDigit? c).map (16 * n + ·)) 0

/-- The character with a code, if it is one. -/
def charOfCode? (code : Nat) : Option Char :=
  if code < 0xD800 || (0xE000 ≤ code && code < 0x110000) then some (Char.ofNat code) else none

/-- The character of an escape, after the backslash. -/
def escape? : Reader Char
  | 'b' :: rest => some (Char.ofNat 8, rest)
  | 't' :: rest => some ('\t', rest)
  | 'n' :: rest => some ('\n', rest)
  | 'f' :: rest => some (Char.ofNat 12, rest)
  | 'r' :: rest => some ('\r', rest)
  | '"' :: rest => some ('"', rest)
  | '\\' :: rest => some ('\\', rest)
  | 'u' :: rest => coded 4 rest
  | 'U' :: rest => coded 8 rest
  | _ => none
where
  coded (width : Nat) (cs : List Char) : Option (Char × List Char) := do
    let digits := cs.take width
    if digits.length < width then none
    else return (← charOfCode? (← hexNumber? digits), cs.drop width)

/-- The rest of a basic text on one line; `fuel` bounds its length. -/
def basic : Nat → Reader (List Char)
  | 0, _ => none
  | _, [] => none
  | _, '"' :: rest => some ([], rest)
  | fuel + 1, '\\' :: rest => do
      let (c, rest) ← escape? rest
      push c (basic fuel rest)
  | fuel + 1, c :: rest => if isPlain c then push c (basic fuel rest) else none

/-- The rest of a literal text on one line. -/
def literal : Reader (List Char)
  | [] => none
  | '\x27' :: rest => some ([], rest)
  | c :: rest => if isPlain c then push c (literal rest) else none

/-- The spaces and line ends from here on are left out; `fuel` bounds their number. -/
def fold : Nat → List Char → List Char
  | 0, cs => cs
  | fuel + 1, cs =>
      let cs := spaces cs
      match newline? cs with
      | some rest => fold fuel rest
      | none => cs

/-- The rest of a basic text on several lines. Up to two quotes may stand before the closing ones. A
backslash at the end of a line leaves out the white space up to the next character. -/
def basicLines : Nat → Reader (List Char)
  | 0, _ => none
  | _, [] => none
  | _, '"' :: '"' :: '"' :: '"' :: '"' :: rest => some (['"', '"'], rest)
  | _, '"' :: '"' :: '"' :: '"' :: rest => some (['"'], rest)
  | _, '"' :: '"' :: '"' :: rest => some ([], rest)
  | fuel + 1, '\\' :: rest =>
      match newline? (spaces rest) with
      | some after => basicLines fuel (fold after.length after)
      | none => do
          let (c, rest) ← escape? rest
          push c (basicLines fuel rest)
  | fuel + 1, c :: rest =>
      match newline? (c :: rest) with
      | some after => push '\n' (basicLines fuel after)
      | none => if isPlain c then push c (basicLines fuel rest) else none

/-- The rest of a literal text on several lines. -/
def literalLines : Nat → Reader (List Char)
  | 0, _ => none
  | _, [] => none
  | _, '\x27' :: '\x27' :: '\x27' :: '\x27' :: '\x27' :: rest => some (['\x27', '\x27'], rest)
  | _, '\x27' :: '\x27' :: '\x27' :: '\x27' :: rest => some (['\x27'], rest)
  | _, '\x27' :: '\x27' :: '\x27' :: rest => some ([], rest)
  | fuel + 1, c :: rest =>
      match newline? (c :: rest) with
      | some after => push '\n' (literalLines fuel after)
      | none => if isPlain c then push c (literalLines fuel rest) else none

def asString (result : Option (List Char × List Char)) : Option (String × List Char) :=
  result.map fun (text, rest) ↦ (String.ofList text, rest)

/-- A line end right after the opening quotes is left out. -/
def afterOpening (cs : List Char) : List Char :=
  (newline? cs).getD cs

/-- A quoted text on one line. -/
def quotedLine? : Reader String
  | '"' :: rest => asString (basic rest.length rest)
  | '\x27' :: rest => asString (literal rest)
  | _ => none

/-- A quoted text. -/
def quoted? : Reader String
  | '"' :: '"' :: '"' :: rest =>
      let body := afterOpening rest
      asString (basicLines body.length body)
  | '\x27' :: '\x27' :: '\x27' :: rest =>
      let body := afterOpening rest
      asString (literalLines body.length body)
  | cs => quotedLine? cs

end SuiteMigration.Toml
