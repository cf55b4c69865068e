import SuiteMigration.Java.Region

/-!
Removal of comments. A block comment leaves one space, a line comment leaves its line end, and a
comment that is never closed leaves nothing. Literals are kept as they are.
-/

set_option autoImplicit false
set_option relaxedAutoImplicit false

namespace SuiteMigration.Java

/-- What stays of one character when comments are removed. -/
def Mark.withoutComment (mark : Mark) : List Char :=
  match mark.kind with
  | .code | .literal => [mark.char]
  | .comment => []
  | .lineEnd => ['\n']
  | .blockEnd => [' ']

def stripCommentChars (cs : List Char) : List Char :=
  (marks cs).flatMap Mark.withoutComment

def stripComments (text : String) : String :=
  String.ofList (stripCommentChars text.toList)

end SuiteMigration.Java
