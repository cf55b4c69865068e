import SuiteMigration.Mode
import SuiteMigration.Text.Basic

/-!
The arguments of the command line. An option with a value takes the next argument, or what follows
an equals sign; an option may be given once, unless it collects values.
-/

set_option autoImplicit false
set_option relaxedAutoImplicit false

namespace SuiteMigration.Cli

open SuiteMigration.Text

structure Options where
  repository : String := "."
  configuration : Option String := none
  sourceBranch : String := "main"
  targetBranch : Option String := none
  operation : Operation := .migration
  mode : Mode := .enhanced
  tier : Tier := .quickRefresh
  force : Bool := false
  ai : Bool := false
  model : Option String := none
  batchSize : Option Nat := none
  dryRun : Bool := false
  createPullRequest : Bool := false
  sourcePaths : List String := []
  json : Bool := false
  deriving DecidableEq, Repr

/-- Why the program does not run. -/
inductive Refusal where
  | usage
  | help
  | version
  deriving DecidableEq, Repr

/-- How an option changes the options. -/
inductive Effect where
  | flag (set : Options → Options)
  /-- The value is refused where there is no result. -/
  | value (set : String → Options → Option Options)
  | help
  | version

def nonEmpty (text : String) : Option String :=
  if text.isEmpty then none else some text

def operation? : String → Option Operation
  | "migration" => some .migration
  | "transformation" => some .transformation
  | "both" => some .migrationAndTransformation
  | _ => none

def mode? : String → Option Mode
  | "manual" => some .manual
  | "enhanced" => some .enhanced
  | "hybrid" => some .hybrid
  | _ => none

/-- A decimal number, which may have a plus sign. -/
def number? (text : String) : Option Nat :=
  let digits := (afterStart? "+" text).getD text
  if digits.isEmpty || !digits.toList.all Char.isDigit then none
  else
    let n := digits.toList.foldl (fun n c ↦ 10 * n + (c.toNat - 48)) 0
    if n < Nat.pow 2 64 then some n else none

/-- The effects of the long options. -/
def effect? : String → Option Effect
  | "repo" => some (.value fun v o ↦ do return { o with repository := ← nonEmpty v })
  | "config" => some (.value fun v o ↦ do return { o with configuration := some (← nonEmpty v) })
  | "source-branch" => some (.value fun v o ↦ some { o with sourceBranch := v })
  | "target-branch" => some (.value fun v o ↦ some { o with targetBranch := some v })
  | "operation" => some (.value fun v o ↦ do return { o with operation := ← operation? v })
  | "mode" => some (.value fun v o ↦ do return { o with mode := ← mode? v })
  | "tier" =>
      some (.value fun v o ↦ do return { o with tier := ← Tier.ofNumber? (← number? v) })
  | "force" => some (.flag fun o ↦ { o with force := true })
  | "ai" => some (.flag fun o ↦ { o with ai := true })
  | "model" => some (.value fun v o ↦ some { o with model := some v })
  | "batch-size" => some (.value fun v o ↦ do return { o with batchSize := some (← number? v) })
  | "dry-run" => some (.flag fun o ↦ { o with dryRun := true })
  | "create-pr" => some (.flag fun o ↦ { o with createPullRequest := true })
  | "source-path" =>
      some (.value fun v o ↦ some { o with sourcePaths := o.sourcePaths ++ [v] })
  | "json" => some (.flag fun o ↦ { o with json := true })
  | "help" => some .help
  | "version" => some .version
  | _ => none

/-- Whether an option may be given more than once. -/
def isRepeatable (name : String) : Bool :=
  name == "source-path"

/-- An argument that is a long option: its name and the value after an equals sign. -/
def longOption? (argument : String) : Option (String × Option String) :=
  (afterStart? "--" argument).map fun text ↦
    match breakOn? "=" text with
    | some (name, value) => (name, some value)
    | none => (text, none)

/-- Whether an argument cannot be a value: it starts with a hyphen and is not one. -/
def looksLikeOption (argument : String) : Bool :=
  startsWith argument "-" && argument != "-"

/-- What has been read of the arguments. -/
structure Progress where
  options : Options := {}
  /-- The options that have been given. -/
  seen : List String := []
  /-- The option that waits for its value. -/
  pending : Option (String → Options → Option Options) := none
  /-- Whether two hyphens have ended the options. -/
  isClosed : Bool := false

def Progress.setValue (p : Progress) (set : String → Options → Option Options) (value : String) :
    Except Refusal Progress :=
  match set value p.options with
  | some options => .ok { p with options, pending := none }
  | none => .error .usage

/-- Reads a long option. -/
def Progress.readOption (p : Progress) (name : String) (attached : Option String) :
    Except Refusal Progress :=
  let next := { p with seen := name :: p.seen }
  if p.seen.contains name && !isRepeatable name then .error .usage
  else
    match effect? name, attached with
    | some (.flag set), none => .ok { next with options := set p.options }
    | some (.value set), some value => next.setValue set value
    | some (.value set), none => .ok { next with pending := some set }
    | some .help, none => .error .help
    | some .version, none => .error .version
    | _, _ => .error .usage

/-- Reads the next argument. -/
def Progress.read (p : Progress) (argument : String) : Except Refusal Progress :=
  if p.isClosed then .error .usage
  else if argument == "--" then .ok { p with isClosed := true }
  else
    match p.pending with
    | some set => if looksLikeOption argument then .error .usage else p.setValue set argument
    | none =>
        if argument == "-h" then .error .help
        else if argument == "-V" then .error .version
        else
          match longOption? argument with
          | some (name, attached) => p.readOption name attached
          | none => .error .usage

/-- The options that arguments give. -/
def parse (arguments : List String) : Except Refusal Options := do
  let p ← arguments.foldlM Progress.read {}
  if p.pending.isSome then throw .usage
  return p.options

end SuiteMigration.Cli
