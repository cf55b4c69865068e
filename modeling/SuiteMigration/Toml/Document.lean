import SuiteMigration.Toml.Number

/-!
TOML documents. A document that breaks any rule has no value.
-/

set_option autoImplicit false
set_option relaxedAutoImplicit false

namespace SuiteMigration.Toml

/-- Arrays, tables between braces and the parts of a dotted key stay below this depth. -/
def nestingLimit : Nat :=
  80

/-- The rest after a comment, which starts with a number sign. -/
def comment (cs : List Char) : List Char :=
  match cs with
  | '#' :: rest => rest.dropWhile isPlain
  | _ => cs

/-- The rest after the end of a line, which may have a comment. -/
def lineEnd? (cs : List Char) : Option (List Char) :=
  match comment (spaces cs) with
  | [] => some []
  | rest => newline? rest

def isBare (c : Char) : Bool :=
  isDigit c || ('a' ≤ c && c ≤ 'z') || ('A' ≤ c && c ≤ 'Z') || c == '_' || c == '-'

/-- One part of a key. -/
def keyPart? (cs : List Char) : Option (String × List Char) :=
  match cs with
  | '"' :: _ | '\x27' :: _ => quotedLine? cs
  | _ =>
      let name := cs.takeWhile isBare
      if name.isEmpty then none else some (String.ofList name, cs.dropWhile isBare)

/-- A key with the white space around it; `limit` bounds the number of its parts. -/
def key? : Nat → Reader (List String × String)
  | 0, _ => none
  | limit + 1, cs => do
      let (part, rest) ← keyPart? (spaces cs)
      match spaces rest with
      | '.' :: after =>
          let ((path, last), rest) ← key? limit after
          return ((part :: path, last), rest)
      | after => return (([], part), after)

/-- White space, comments and line ends inside an array; `fuel` bounds their number. -/
def gap : Nat → List Char → List Char
  | 0, cs => cs
  | fuel + 1, cs =>
      let cs := spaces cs
      match newline? (comment cs) with
      | some rest => gap fuel rest
      | none => cs

mutual

/-- A value; `depth` bounds its nesting and `fuel` the number of steps. -/
def value? (depth : Nat) : Nat → Reader Value
  | 0, _ => none
  | fuel + 1, cs =>
      match cs with
      | '[' :: rest =>
          if depth ≤ 1 then none
          else do
            let (items, rest) ← items? (depth - 1) fuel (gap rest.length rest)
            return (.array items, rest)
      | '\x7b' :: rest =>
          if depth ≤ 1 then none
          else do
            let (pairs, rest) ←
              match spaces rest with
              | '\x7d' :: after => some ([], after)
              | after => pairs? (depth - 1) fuel after
            return (.table .inline (← pairs.foldlM addInline []), rest)
      | 't' :: 'r' :: 'u' :: 'e' :: rest => some (.boolean true, rest)
      | 'f' :: 'a' :: 'l' :: 's' :: 'e' :: rest => some (.boolean false, rest)
      | c :: _ =>
          if c == '"' || c == '\x27' then
            (quoted? cs).map fun (text, rest) ↦ (.text text, rest)
          else number? cs
      | [] => none

/-- The rest of an array. -/
def items? (depth : Nat) : Nat → Reader (List Value)
  | 0, _ => none
  | fuel + 1, cs =>
      match cs with
      | ']' :: rest => some ([], rest)
      | _ => do
          let (item, rest) ← value? depth fuel cs
          match gap rest.length rest with
          | ',' :: after =>
              let (items, rest) ← items? depth fuel (gap after.length after)
              return (item :: items, rest)
          | ']' :: after => return ([item], after)
          | _ => none

/-- The rest of a table between braces. -/
def pairs? (depth : Nat) : Nat → Reader (List Pair)
  | 0, _ => none
  | fuel + 1, cs => do
      let ((path, key), rest) ← key? (nestingLimit - 1) cs
      let (value, rest) ← value? depth fuel (spaces (← expect? '=' rest))
      match spaces rest with
      | ',' :: after =>
          let (pairs, rest) ← pairs? depth fuel after
          return (⟨path, key, value⟩ :: pairs, rest)
      | '\x7d' :: after => return ([⟨path, key, value⟩], after)
      | _ => none

end

/-- A line with a key and a value. -/
def pair? (cs : List Char) : Option (Pair × List Char) := do
  let ((path, key), rest) ← key? (nestingLimit - 1) cs
  let (value, rest) ← value? nestingLimit (2 * rest.length + 2) (spaces (← expect? '=' rest))
  return (⟨path, key, value⟩, ← lineEnd? rest)

/-- A line with a header. -/
def heading? : Reader Heading
  | '[' :: '[' :: rest => do
      let ((path, key), rest) ← key? (nestingLimit - 1) rest
      return (.tables path key, ← lineEnd? (← expect? ']' (← expect? ']' rest)))
  | '[' :: rest => do
      let ((path, key), rest) ← key? (nestingLimit - 1) rest
      return (.table path key, ← lineEnd? (← expect? ']' rest))
  | _ => none

/-- Adds a pair to the section that is being read. -/
def Section.add (s : Section) (p : Pair) : Section :=
  { s with pairs := s.pairs ++ [p] }

/-- The sections from a line on, of which the first has been begun; `fuel` bounds the number of
lines. -/
def sections? : Nat → Section → List Char → Option (List Section)
  | 0, _, _ => none
  | fuel + 1, current, cs =>
      match spaces cs with
      | [] => some [current]
      | '[' :: rest => do
          let (heading, after) ← heading? ('[' :: rest)
          let others ← sections? fuel ⟨heading, []⟩ after
          return current :: others
      | c :: rest =>
          if c == '#' || c == '\n' || c == '\r' then do
            sections? fuel current (← lineEnd? (c :: rest))
          else do
            let (pair, after) ← pair? (c :: rest)
            sections? fuel (current.add pair) after

def withoutMark (cs : List Char) : List Char :=
  match cs with
  | '\ufeff' :: rest => rest
  | _ => cs

/-- The root table of a document. -/
def parse? (text : String) : Option Entries := do
  let cs := withoutMark text.toList
  let sections ← sections? (cs.length + 1) ⟨.root, []⟩ cs
  sections.foldlM addSection []

end SuiteMigration.Toml
