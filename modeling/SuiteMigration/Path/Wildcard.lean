import SuiteMigration.Text.Basic

/-!
Wildcard patterns for file names: a star stands for any characters, a question mark for one. A star
in the name is matched by a star of the pattern as an ordinary character first.
-/

set_option autoImplicit false
set_option relaxedAutoImplicit false

namespace SuiteMigration.Path

open SuiteMigration.Text

/-- The first answer of `attempt` on the suffixes of a text, from the longest on. -/
def firstAnswer (attempt : List Char → Option Bool) : List Char → Bool
  | [] => (attempt []).getD false
  | c :: rest =>
      match attempt (c :: rest) with
      | some answer => answer
      | none => firstAnswer attempt rest

/-- Matches a pattern against a text. There is no answer if the text differs from the pattern before
its first star; from a star on the answer is that of the first suffix that has one. -/
def wildcardAttempt : List Char → List Char → Option Bool
  | [], text => if text.isEmpty then some true else none
  | q :: pattern, text =>
      match text with
      | [] => some ((q :: pattern).all (· == '*'))
      | c :: rest =>
          if q == '?' || q == c then wildcardAttempt pattern rest
          else if q == '*' then some (firstAnswer (wildcardAttempt pattern) (c :: rest))
          else none

def wildcardMatch (text pattern : List Char) : Bool :=
  (wildcardAttempt pattern text).getD false

/-- Whether a file name matches one of the patterns of a list separated by bars. -/
def matchesPattern (name patterns : String) : Bool :=
  ((Chars.splitOn '|' patterns.toList).map Chars.trim).any fun pattern ↦
    !pattern.isEmpty && wildcardMatch name.toList pattern

end SuiteMigration.Path
