import SuiteMigration.Java.Argument
import SuiteMigration.Java.Delimiter

/-!
Call chains: expressions such as `a.b(x).c()`, read as a list of links.
-/

set_option autoImplicit false
set_option relaxedAutoImplicit false

namespace SuiteMigration.Java

open SuiteMigration.Text

/-- One link of a chain: a name, or a call with its arguments. -/
structure Link where
  name : String
  args? : Option (List String)
  deriving DecidableEq, Repr

def Link.args (l : Link) : List String :=
  l.args?.getD []

def Link.isCall (l : Link) (name : String) : Bool :=
  l.name == name && l.args?.isSome

def isChainNameChar (c : Char) : Bool :=
  isAsciiLetter c || isAsciiDigit c || c == '_' || c == '$'

def skipAsciiBlanks (cs : List Char) : List Char :=
  cs.dropWhile isAsciiBlank

/-- A name with which the text starts, after white space; `new` and the type after it are one
name. -/
def chainName? (cs : List Char) : Option (String × List Char) :=
  let start := skipAsciiBlanks cs
  let name := String.ofList (start.takeWhile isChainNameChar)
  let rest := start.dropWhile isChainNameChar
  if name.isEmpty then none
  else if name == "new" then
    let start := skipAsciiBlanks rest
    let type := String.ofList (start.takeWhile isChainNameChar)
    if type.isEmpty then none else some ("new " ++ type, start.dropWhile isChainNameChar)
  else some (name, rest)

/-- One link and the text after it. -/
def chainLink? (cs : List Char) : Option (Link × List Char) := do
  let (name, rest) ← chainName? cs
  match skipAsciiBlanks rest with
  | '(' :: inside =>
      let cut ← enclosed? '(' ')' ('(' :: inside)
      return (⟨name, some (splitArguments (String.ofList cut.before))⟩, cut.after)
  | after => return (⟨name, none⟩, after)

/-- The links of a chain; `fuel` bounds their number. -/
def chainFrom : Nat → List Char → Option (List Link)
  | 0, _ => none
  | fuel + 1, cs => do
      let (link, rest) ← chainLink? cs
      match skipAsciiBlanks rest with
      | [] => return [link]
      | '.' :: more => return link :: (← chainFrom fuel more)
      | _ => none

/-- Drops the leading `this`, unless it is the whole chain. -/
def dropThis : List Link → List Link
  | first :: second :: rest =>
      if first.name == "this" && first.args?.isNone then dropThis (second :: rest)
      else first :: second :: rest
  | links => links

/-- The links of an expression, if it is a chain and nothing else. -/
def callChain? (expr : String) : Option (List Link) :=
  let cs := expr.toList
  (chainFrom (cs.length + 1) cs).map dropThis

end SuiteMigration.Java
