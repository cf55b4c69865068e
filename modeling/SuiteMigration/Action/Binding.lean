import SuiteMigration.Java.Outline

/-!
Bindings: statements that declare or assign a variable. The left side is an optional `final`, an
optional type with type arguments and brackets, and a name.
-/

set_option autoImplicit false
set_option relaxedAutoImplicit false

namespace SuiteMigration

open SuiteMigration.Text SuiteMigration.Java

structure Binding where
  name : String
  value : String
  deriving DecidableEq, Repr

/-- A name, an equals sign and a value. -/
def assignment? (cs : List Char) : Option Binding := do
  let (name, rest) ← identifier? cs
  match Chars.trimStart rest with
  | '=' :: value =>
      let value := Chars.trim value
      if value.isEmpty then none else some ⟨String.ofList name, String.ofList value⟩
  | _ => none

/-- The rest of a declaration after its type: optional brackets, white space and the assignment. -/
def afterType? (cs : List Char) : Option Binding := do
  assignment? (← skipBlanks? ((Chars.afterStart? ['[', ']'] cs).getD cs))

/-- A declaration whose type arguments end at some `>`: the first that works counts. -/
def afterTypeArguments? : List Char → Option Binding
  | [] => none
  | c :: rest =>
      if c == '>' then
        match afterType? rest with
        | some binding => some binding
        | none => afterTypeArguments? rest
      else afterTypeArguments? rest

/-- A declaration with a type. -/
def typedBinding? (cs : List Char) : Option Binding :=
  match cs with
  | c :: rest =>
      if isIdentifierStart c then
        match rest.dropWhile fun c ↦ isWordChar c || c == '.' with
        | '<' :: args =>  afterTypeArguments? args
        | after => afterType? after
      else none
  | [] => none

/-- A declaration with a type, or an assignment. -/
def unmodifiedBinding? (cs : List Char) : Option Binding :=
  match typedBinding? cs with
  | some binding => some binding
  | none => assignment? cs

/-- The binding that a trimmed statement is. A leading `final` is a modifier where that gives a
binding, and a name otherwise; a comparison is no binding. -/
def binding? (statement : String) : Option Binding := do
  let cs := statement.toList
  let modified := do unmodifiedBinding? (← skipBlanks? (← Chars.afterStart? "final".toList cs))
  let binding ←
    match modified with
    | some binding => some binding
    | none => unmodifiedBinding? cs
  if startsWith binding.value "=" then none else some binding

end SuiteMigration
