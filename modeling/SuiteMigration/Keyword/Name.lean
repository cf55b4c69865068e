import SuiteMigration.Text.Basic

/-!
Names of keywords and variables: title case, the words of an identifier, constants and scalar
references.
-/

set_option autoImplicit false
set_option relaxedAutoImplicit false

namespace SuiteMigration.Keyword

open SuiteMigration.Text

/-- A word with its first character in upper case. -/
def capitalize : List Char → List Char
  | [] => []
  | c :: rest => upperChar c ++ rest

/-- The words of a text, each capitalized, joined by single spaces. -/
def titleChars (cs : List Char) : List Char :=
  Chars.join [' '] ((Chars.words cs).map capitalize)

def titleCase (text : String) : String :=
  String.ofList (titleChars text.toList)

def separatesWords (c : Char) : Bool :=
  c == '_' || c == '-' || isBlank c

/-- Whether a new word starts at an upper-case `c`: after a lower-case letter or a digit, or before
a lower-case letter. -/
def startsWord (before : Char) (c : Char) (after : Option Char) : Bool :=
  isUppercase c && (isLowercase before || isAsciiDigit before || after.any isLowercase)

/-- The words of an identifier. `current` is the word being read and `before` the character before
the rest, which matters only inside a word. -/
def identifierWordsFrom : List Char → Char → List Char → List (List Char)
  | current, _, [] => if current.isEmpty then [] else [current.reverse]
  | current, before, c :: rest =>
      if separatesWords c then
        if current.isEmpty then identifierWordsFrom [] c rest
        else current.reverse :: identifierWordsFrom [] c rest
      else if !current.isEmpty && startsWord before c rest.head? then
        current.reverse :: identifierWordsFrom [c] c rest
      else identifierWordsFrom (c :: current) c rest

/-- The words of an identifier in camel or snake case. -/
def identifierWords (name : String) : List String :=
  (identifierWordsFrom [] ' ' name.toList).map String.ofList

/-- The keyword name for an identifier: its words in title case. -/
def ofIdentifier (name : String) : String :=
  titleCase (String.intercalate " " (identifierWords name))

/-- The constant name for an identifier: its words in upper case, joined by underscores. -/
def constant (name : String) : String :=
  String.intercalate "_" ((identifierWords name).map toUpper)

/-- The reference to a scalar variable. -/
def scalar (name : String) : String :=
  "$\x7b" ++ name ++ "\x7d"

end SuiteMigration.Keyword
