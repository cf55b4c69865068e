import SuiteMigration.Text.Character
import SuiteMigration.Text.Table.Unprintable

/-!
Quoted rendering of a text for diagnostics: quotes, backslashes and the common controls are written
with a backslash, other unprintable characters by their code point.
-/

set_option autoImplicit false
set_option relaxedAutoImplicit false

namespace SuiteMigration.Text

/-- The code point of a character between braces, in lower-case hexadecimal. -/
def codePoint (c : Char) : List Char :=
  ['\\', 'u', '\x7b'] ++ Nat.toDigits 16 c.toNat ++ ['\x7d']

/-- A character inside quotes of the given kind. -/
def quoteChar (quote : Char) (c : Char) : List Char :=
  if c == quote then ['\\', quote]
  else if c == '\\' then ['\\', '\\']
  else if c == '\n' then ['\\', 'n']
  else if c == '\t' then ['\\', 't']
  else if c == '\r' then ['\\', 'r']
  else if c.toNat == 0 then ['\\', '0']
  else if Table.contains Table.graphemeExtend c.toNat then codePoint c
  else if Table.contains Table.unprintable c.toNat then codePoint c
  else [c]

def quoted (s : String) : String :=
  String.ofList (['"'] ++ s.toList.flatMap (quoteChar '"') ++ ['"'])

def quotedChar (c : Char) : String :=
  String.ofList (['\x27'] ++ quoteChar '\x27' c ++ ['\x27'])

end SuiteMigration.Text
