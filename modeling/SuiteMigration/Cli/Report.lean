import SuiteMigration.Run.Result
import SuiteMigration.Text.Basic
import SuiteMigration.Text.Decimal

/-!
What the command line shows of a run: a line for each event, and a summary at the end.
-/

set_option autoImplicit false
set_option relaxedAutoImplicit false

namespace SuiteMigration.Cli

open SuiteMigration.Run

/-- A number in three columns. -/
def column (n : Nat) : String :=
  let text := toString n
  String.ofList (List.replicate (3 - text.length) ' ') ++ text

def eventLine (e : Event) : String :=
  "  [" ++ column e.percent ++ "%] " ++ e.message

def headline (r : Response) : String :=
  if r.isSuccess then "  + Migration complete"
  else
    match r.failure with
    | some f => "  x Migration failed [" ++ f.code.label ++ "]: " ++ f.message
    | none => "  x Migration failed [E_INTERNAL]: unknown error"

def optionalLine (label : String) (value : Option String) : List String :=
  value.toList.map (label ++ ·)

def failureLines (s : Summary) : List String :=
  if s.readFailures + s.transformFailures + s.commitFailures == 0 then []
  else
    [s!"    Failures:      {s.readFailures} read, {s.transformFailures} transform, " ++
      s!"{s.commitFailures} commit"]

def validationLines (s : Summary) : List String :=
  if s.validationFailures == 0 then []
  else [s!"    Validation:    {s.validationFailures} file(s) with issues"]

def usageLines (u : Completion.Usage) : List String :=
  if u.enabled then
    [s!"    AI:            {u.produced} produced, {u.fallbacks} fell back, " ++
      s!"{u.promptTokens + u.completionTokens} tokens, $" ++ Text.fixed 4 u.totalCost]
  else []

def resultLines (results : List FileResult) : List String :=
  results.filterMap fun r ↦ r.verdict.reason?.map fun reason ↦
    "    - " ++ r.source ++ ": " ++ reason

/-- The summary of a run, which starts with an empty line. -/
def summaryLines (r : Response) : List String :=
  let s := r.summary
  ["", headline r] ++
  optionalLine "    Branch:        " r.status.branch ++
  [s!"    Discovered:    {s.discovered}",
   s!"    Transformed:   {s.transformed} ({s.degraded} placeholders, {s.unchanged} unchanged)",
   s!"    Committed:     {s.committed} in {s.batches} batch(es)"] ++
  failureLines s ++ validationLines s ++ usageLines r.usage ++
  optionalLine "    Pull request:  " r.status.pullRequest ++
  resultLines r.results

def unlines (content : List String) : String :=
  String.join (content.map (· ++ "\n"))

end SuiteMigration.Cli
