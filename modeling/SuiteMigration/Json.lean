import SuiteMigration.Text.Decimal

/-!
JSON values and their text, laid out with one entry a line.
-/

set_option autoImplicit false
set_option relaxedAutoImplicit false

namespace SuiteMigration

inductive Json where
  | null
  | boolean (b : Bool)
  | natural (n : Nat)
  | real (x : Float)
  | text (s : String)
  | list (items : List Json)
  | object (fields : List (String × Json))

namespace Json

def ofOption {α : Type} (f : α → Json) : Option α → Json
  | some a => f a
  | none => .null

/-- A character inside quotes. -/
def quoteChar (c : Char) : List Char :=
  match c with
  | '"' => ['\\', '"']
  | '\\' => ['\\', '\\']
  | '\n' => ['\\', 'n']
  | '\r' => ['\\', 'r']
  | '\t' => ['\\', 't']
  | _ =>
      if c.toNat == 8 then ['\\', 'b']
      else if c.toNat == 12 then ['\\', 'f']
      else if c.toNat < 32 then
        let digits := Nat.toDigits 16 c.toNat
        ['\\', 'u'] ++ List.replicate (4 - digits.length) '0' ++ digits
      else [c]

def quote (s : String) : String :=
  String.ofList (['"'] ++ s.toList.flatMap quoteChar ++ ['"'])

/-- Entries between brackets, one a line. -/
def enclose (opening closing : String) (indent : Nat) (entries : List String) : String :=
  if entries.isEmpty then opening ++ closing
  else
    let margin := String.ofList (List.replicate (indent + 2) ' ')
    opening ++ "\n" ++ String.intercalate ",\n" (entries.map (margin ++ ·)) ++ "\n" ++
      String.ofList (List.replicate indent ' ') ++ closing

mutual

/-- The text of a value that starts at an indentation. -/
def renderAt (indent : Nat) : Json → String
  | .null => "null"
  | .boolean b => if b then "true" else "false"
  | .natural n => toString n
  | .real x => Text.expansion x
  | .text s => quote s
  | .list items => enclose "[" "]" indent (renderItems (indent + 2) items)
  | .object fields => enclose "\x7b" "\x7d" indent (renderFields (indent + 2) fields)

def renderItems (indent : Nat) : List Json → List String
  | [] => []
  | item :: rest => renderAt indent item :: renderItems indent rest

def renderFields (indent : Nat) : List (String × Json) → List String
  | [] => []
  | (key, value) :: rest =>
      (quote key ++ ": " ++ renderAt indent value) :: renderFields indent rest

end

def render (j : Json) : String :=
  renderAt 0 j

end Json

end SuiteMigration
