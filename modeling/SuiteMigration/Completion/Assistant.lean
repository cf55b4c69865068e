import SuiteMigration.Completion.Prompt
import SuiteMigration.Robot.Line

/-!
An assistant that migrates files through a completion service. A reply counts only if it reads as a
keyword file; every other outcome leaves the file to the generators. What the service was used for
is recorded.
-/

set_option autoImplicit false
set_option relaxedAutoImplicit false

namespace SuiteMigration.Completion

open SuiteMigration.Text

inductive Error where
  | timeout
  | rateLimited (message : String)
  | api (status : Nat) (message : String)
  | transport (message : String)
  | malformed (message : String)
  deriving DecidableEq, Repr

def Error.message : Error → String
  | .timeout => "completion timed out"
  | .rateLimited text => "rate limited: " ++ text
  | .api status text => s!"API error {status}: " ++ text
  | .transport text => "transport error: " ++ text
  | .malformed text => "malformed response: " ++ text

structure Response where
  text : String := ""
  promptTokens : Nat := 0
  completionTokens : Nat := 0
  latencyMs : Nat := 0
  cost : Float := 0

/-- What the service answers to one request, and after how many milliseconds. -/
structure Reply where
  delayMs : Nat := 0
  result : Except Error Response

inductive Outcome where
  | produced
  /-- The service answered, but not with a keyword file. -/
  | rejected
  | failed
  deriving DecidableEq, Repr

/-- The name of an outcome in data. -/
def Outcome.key : Outcome → String
  | .produced => "produced"
  | .rejected => "rejected"
  | .failed => "failed"

/-- One file that was offered to the service. -/
structure Record where
  path : String
  role : Role
  outcome : Outcome
  promptTokens : Nat := 0
  completionTokens : Nat := 0
  cost : Float := 0
  latencyMs : Nat := 0
  error : Option String := none

structure Usage where
  enabled : Bool := false
  provider : String := ""
  model : String := ""
  promptTokens : Nat := 0
  completionTokens : Nat := 0
  totalCost : Float := 0
  records : List Record := []

def Usage.add (u : Usage) (r : Record) : Usage :=
  { u with
    promptTokens := u.promptTokens + r.promptTokens
    completionTokens := u.completionTokens + r.completionTokens
    totalCost := u.totalCost + r.cost
    records := u.records ++ [r] }

/-- Number of files that the service produced. -/
def Usage.produced (u : Usage) : Nat :=
  (u.records.filter fun r ↦ r.outcome == .produced).length

/-- Number of offered files that were left to the generators. -/
def Usage.fallbacks (u : Usage) : Nat :=
  u.records.length - u.produced

structure Options where
  provider : String := "openrouter"
  model : String := "anthropic/claude-sonnet-4.5"
  timeoutMs : Nat := 120000
  deriving Repr

/-- Sections that a keyword file may open with. -/
def knownSections : List String :=
  ["setting", "variable", "test case", "task", "keyword", "comment"]

/-- The inside of a text that is fenced like code in a chat. -/
def withoutFence (text : String) : String :=
  let body := trim text
  if startsWith body "```" then
    let inside :=
      match breakOn? "\n" body with
      | some (_, rest) => trimEnd rest
      | none => ""
    trimEnd ((beforeEnd? "```" inside).getD inside)
  else body

/-- The keyword file in a reply, if the text opens with a known section after comments. -/
def wellFormed? (text : String) : Option String := do
  let body := withoutFence text
  let first ← ((lines body).map trim).find? fun line ↦ !line.isEmpty && !startsWith line "#"
  let name ← Robot.sectionName? first
  if knownSections.contains name then some (body ++ "\n") else none

/-- A service that answers from a script, and what it was used for. -/
structure Assistant where
  options : Options
  replies : List Reply
  usage : Usage

def Assistant.new (options : Options) (replies : List Reply) : Assistant :=
  { options, replies
    usage := { enabled := true, provider := options.provider, model := options.model } }

/-- The next result of the service within the time limit, and how long it took. -/
def Assistant.next (a : Assistant) : Except Error Response × Nat :=
  match a.replies with
  | [] => (.error (.transport "no scripted reply"), 0)
  | reply :: _ =>
      if reply.delayMs ≤ a.options.timeoutMs then (reply.result, reply.delayMs)
      else (.error .timeout, a.options.timeoutMs)

/-- The text that a result gives for a file, and the record of it. -/
def judge (path : String) (role : Role) : Except Error Response → Option String × Record
  | .error e => (none, { path, role, outcome := .failed, error := some e.message })
  | .ok r =>
      let record : Record :=
        { path, role, outcome := .produced, promptTokens := r.promptTokens
          completionTokens := r.completionTokens, cost := r.cost, latencyMs := r.latencyMs }
      match wellFormed? r.text with
      | some text => (some text, record)
      | none =>
          (none, { record with
            outcome := .rejected
            error := some "response is not a Robot Framework file" })

/-- Offers a file to the service: the text it gave, if it counts, the assistant afterwards, and the
milliseconds that passed. -/
def Assistant.offer (a : Assistant) (path : String) (role : Role) :
    Option String × Assistant × Nat :=
  let (result, elapsed) := a.next
  let (text, record) := judge path role result
  (text, { a with replies := a.replies.tail, usage := a.usage.add record }, elapsed)

end SuiteMigration.Completion
