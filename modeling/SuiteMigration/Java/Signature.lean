import SuiteMigration.Java.Outline

/-!
A loose scan for method signatures, for sources that cannot be outlined. A signature is a modifier,
a name after white space, a parameter list and an opening brace.
-/

set_option autoImplicit false
set_option relaxedAutoImplicit false

namespace SuiteMigration.Java

open SuiteMigration.Text

def signatureWords : List String :=
  ["public", "private", "protected", "void", "static"]

/-- A character that may stand between the modifier and the parameter list. -/
def isSignatureChar (c : Char) : Bool :=
  isWordChar c || isBlank c || c == '<' || c == '>' || c == '[' || c == ']' || c == ','

/-- The method name at the end of the text between modifier and parameter list: the last word, with
white space before it. -/
def signatureName? (cs : List Char) : Option (List Char) :=
  let reversed := (Chars.trimEnd cs).reverse
  let name := (reversed.takeWhile isWordChar).reverse
  match name.head?, (reversed.dropWhile isWordChar).head? with
  | some first, some before => if isIdentifierStart first && isBlank before then some name else none
  | _, _ => none

/-- What may follow the parameter list: nothing, or a list of exceptions. -/
def isThrowsClause (cs : List Char) : Bool :=
  match Chars.trimStart cs with
  | [] => true
  | rest =>
      match Chars.afterStart? "throws".toList rest with
      | some types =>
          !types.isEmpty && types.all fun c ↦ isWordChar c || c == '.' || c == ',' || isBlank c
      | none => false

/-- Whether the text after an opening parenthesis, up to the brace, closes the parameter list. -/
def closesParameters (cs : List Char) : Bool :=
  match Chars.breakOnLast? [')'] cs with
  | some (_, rest) => isThrowsClause rest
  | none => false

/-- A signature at the start of a text: the method's name and the length of the signature. -/
def signature? (cs : List Char) : Option (List Char × Nat) := do
  let keyword ← signatureWords.find? fun word ↦ Chars.startsWith cs word.toList
  let rest := cs.drop keyword.length
  let between := rest.takeWhile isSignatureChar
  let name ← signatureName? between
  match rest.dropWhile isSignatureChar with
  | '(' :: tail =>
      let inside := tail.takeWhile fun c ↦ c != ';' && c != '\x7b'
      if (tail.drop inside.length).head? == some '\x7b' && closesParameters inside then
        some (name, keyword.length + between.length + 1 + inside.length + 1)
      else none
  | _ => none

/-- The names in the signatures of a text; `skip` characters belong to the last signature. -/
def signatureNamesFrom : Nat → List Char → List String
  | _, [] => []
  | skip + 1, _ :: rest => signatureNamesFrom skip rest
  | 0, c :: rest =>
      match signature? (c :: rest) with
      | some (name, length) => String.ofList name :: signatureNamesFrom (length - 1) rest
      | none => signatureNamesFrom 0 rest

/-- Drops every string that occurred before. -/
def distinct (strings : List String) : List String :=
  (strings.foldl (fun seen s ↦ if seen.contains s then seen else s :: seen) []).reverse

/-- The method names of a source, each once, without control keywords. -/
def signatureNames (source : String) : List String :=
  distinct ((signatureNamesFrom 0 source.toList).filter fun name ↦ !isControlKeyword name)

end SuiteMigration.Java
