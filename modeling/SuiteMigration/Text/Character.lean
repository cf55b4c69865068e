import SuiteMigration.Text.Table.Alphabetic
import SuiteMigration.Text.Table.Numeric
import SuiteMigration.Text.Table.Cased
import SuiteMigration.Text.Table.Connector

/-!
Character classes of Unicode. Source files, feature files and keyword files are all read with
these classes, so an accented letter is a letter and a no-break space is white space everywhere.
-/

set_option autoImplicit false
set_option relaxedAutoImplicit false

namespace SuiteMigration.Text

/-- White space: the Unicode property White_Space. -/
def isBlank (c : Char) : Bool :=
  Table.contains
    [⟨0x9, 0xD, 1⟩, ⟨0x20, 0x20, 1⟩, ⟨0x85, 0x85, 1⟩, ⟨0xA0, 0xA0, 1⟩, ⟨0x1680, 0x1680, 1⟩,
     ⟨0x2000, 0x200A, 1⟩, ⟨0x2028, 0x2029, 1⟩, ⟨0x202F, 0x202F, 1⟩, ⟨0x205F, 0x205F, 1⟩,
     ⟨0x3000, 0x3000, 1⟩] c.toNat

def isAlphabetic (c : Char) : Bool :=
  Table.contains Table.alphabetic c.toNat

/-- Any kind of number: digits, letter numbers and other numbers such as superscripts. -/
def isNumeric (c : Char) : Bool :=
  Table.contains Table.numeric c.toNat

def isAlphanumeric (c : Char) : Bool :=
  isAlphabetic c || isNumeric c

def isUppercase (c : Char) : Bool :=
  Table.contains Table.uppercase c.toNat

def isLowercase (c : Char) : Bool :=
  Table.contains Table.lowercase c.toNat

/-- A decimal digit of any script. -/
def isDecimal (c : Char) : Bool :=
  Table.contains Table.decimal c.toNat

/-- A character that belongs to a word: a letter, a mark, a decimal digit, connector punctuation
or a joining control. -/
def isWordChar (c : Char) : Bool :=
  isAlphabetic c || isDecimal c || Table.contains Table.connector c.toNat

def isAsciiDigit (c : Char) : Bool :=
  decide ('0' ≤ c) && decide (c ≤ '9')

def isAsciiLetter (c : Char) : Bool :=
  (decide ('a' ≤ c) && decide (c ≤ 'z')) || (decide ('A' ≤ c) && decide (c ≤ 'Z'))

/-- ASCII white space: space, tab, line feed, form feed and carriage return. -/
def isAsciiBlank (c : Char) : Bool :=
  c == ' ' || c == '\t' || c == '\n' || c == '\x0c' || c == '\r'

def isAscii (c : Char) : Bool :=
  decide (c.toNat < 128)

end SuiteMigration.Text
