/-!
Lexical regions of Java source. Every character gets one mark: it is code, part of a literal, or
part of a comment. A string or character literal ends at its quote or at the end of the line, a
text block at three quotes. Text in which braces, semicolons and commas count is then simply the
text marked as code.
-/

set_option autoImplicit false
set_option relaxedAutoImplicit false

namespace SuiteMigration.Java

inductive Region where
  | code
  | string
  | character
  | textBlock
  | lineComment
  | blockComment
  deriving DecidableEq, Repr

/-- What a character is part of. The characters that close a comment have marks of their own,
because they stand for the white space that the comment leaves behind. -/
inductive MarkKind where
  | code
  | literal
  | comment
  | lineEnd
  | blockEnd
  deriving DecidableEq, Repr

structure Mark where
  char : Char
  kind : MarkKind
  deriving DecidableEq, Repr

/-- Marks a text that starts in the given region. In a text block a backslash protects the next
character only if `blockEscapes` holds. -/
def marksFrom (blockEscapes : Bool) : Region → List Char → List Mark
  | _, [] => []
  | .code, '/' :: '/' :: rest =>
      ⟨'/', .comment⟩ :: ⟨'/', .comment⟩ :: marksFrom blockEscapes .lineComment rest
  | .code, '/' :: '*' :: rest =>
      ⟨'/', .comment⟩ :: ⟨'*', .comment⟩ :: marksFrom blockEscapes .blockComment rest
  | .code, '"' :: '"' :: '"' :: rest =>
      ⟨'"', .literal⟩ :: ⟨'"', .literal⟩ :: ⟨'"', .literal⟩ ::
        marksFrom blockEscapes .textBlock rest
  | .code, c :: rest =>
      if c == '"' then ⟨c, .literal⟩ :: marksFrom blockEscapes .string rest
      else if c == '\x27' then ⟨c, .literal⟩ :: marksFrom blockEscapes .character rest
      else ⟨c, .code⟩ :: marksFrom blockEscapes .code rest
  | .string, '\\' :: c :: rest =>
      ⟨'\\', .literal⟩ :: ⟨c, .literal⟩ :: marksFrom blockEscapes .string rest
  | .string, c :: rest =>
      ⟨c, .literal⟩ ::
        marksFrom blockEscapes (if c == '"' || c == '\n' then .code else .string) rest
  | .character, '\\' :: c :: rest =>
      ⟨'\\', .literal⟩ :: ⟨c, .literal⟩ :: marksFrom blockEscapes .character rest
  | .character, c :: rest =>
      ⟨c, .literal⟩ ::
        marksFrom blockEscapes (if c == '\x27' || c == '\n' then .code else .character) rest
  | .textBlock, '"' :: '"' :: '"' :: rest =>
      ⟨'"', .literal⟩ :: ⟨'"', .literal⟩ :: ⟨'"', .literal⟩ :: marksFrom blockEscapes .code rest
  | .textBlock, '\\' :: c :: rest =>
      if blockEscapes then
        ⟨'\\', .literal⟩ :: ⟨c, .literal⟩ :: marksFrom blockEscapes .textBlock rest
      else ⟨'\\', .literal⟩ :: marksFrom blockEscapes .textBlock (c :: rest)
  | .textBlock, c :: rest => ⟨c, .literal⟩ :: marksFrom blockEscapes .textBlock rest
  | .lineComment, c :: rest =>
      if c == '\n' then ⟨c, .lineEnd⟩ :: marksFrom blockEscapes .code rest
      else ⟨c, .comment⟩ :: marksFrom blockEscapes .lineComment rest
  | .blockComment, '*' :: '/' :: rest =>
      ⟨'*', .comment⟩ :: ⟨'/', .blockEnd⟩ :: marksFrom blockEscapes .code rest
  | .blockComment, c :: rest => ⟨c, .comment⟩ :: marksFrom blockEscapes .blockComment rest

/-- The marks of a text that starts as code. -/
def marks (cs : List Char) : List Mark :=
  marksFrom true .code cs

def Mark.isCode (mark : Mark) (c : Char) : Bool :=
  mark.kind == .code && mark.char == c

/-- The text behind a list of marks. -/
def textOf (ms : List Mark) : List Char :=
  ms.map Mark.char

end SuiteMigration.Java
