import SuiteMigration.Json
import SuiteMigration.Run.Result

/-!
Responses as JSON.
-/

set_option autoImplicit false
set_option relaxedAutoImplicit false

namespace SuiteMigration

def Completion.Record.toJson (r : Completion.Record) : Json :=
  .object ([("path", .text r.path), ("role", .text r.role.key), ("outcome", .text r.outcome.key),
    ("prompt_tokens", .natural r.promptTokens), ("completion_tokens", .natural r.completionTokens),
    ("cost", .real r.cost), ("latency_ms", .natural r.latencyMs)] ++
    r.error.toList.map fun e ↦ ("error", .text e))

def Completion.Usage.jsonFields (u : Completion.Usage) : List (String × Json) :=
  [("enabled", .boolean u.enabled), ("provider", .text u.provider), ("model", .text u.model),
   ("prompt_tokens", .natural u.promptTokens), ("completion_tokens", .natural u.completionTokens),
   ("total_cost", .real u.totalCost),
   ("records", .list (u.records.map Completion.Record.toJson))]

namespace Run

def Status.toJson (s : Status) : Json :=
  .object [("phase", .text s.phase.key), ("percent", .natural s.percent),
    ("branch", .ofOption .text s.branch), ("pr_url", .ofOption .text s.pullRequest)]

def FileResult.toJson (r : FileResult) : Json :=
  .object ([("source_file", .text r.source), ("target_file", .ofOption .text r.target),
    ("status", .text (if r.verdict.isSuccess then "success" else "failed")),
    ("error", .ofOption .text r.verdict.reason?)] ++
    r.verdict.note?.toList.map fun note ↦ ("note", .text note))

def Summary.toJson (s : Summary) : Json :=
  .object [("discovered", .natural s.discovered), ("read_failures", .natural s.readFailures),
    ("transformed", .natural s.transformed), ("transform_failures", .natural s.transformFailures),
    ("degraded", .natural s.degraded), ("validation_failures", .natural s.validationFailures),
    ("unchanged", .natural s.unchanged), ("committed", .natural s.committed),
    ("commit_failures", .natural s.commitFailures), ("batches", .natural s.batches),
    ("skeleton_files", .natural s.skeletonFiles)]

/-- The fields of a response. Branch and pull request stand in the state and beside it. -/
def Response.jsonFields (r : Response) : List (String × Json) :=
  [("state", r.status.toJson), ("results", .list (r.results.map FileResult.toJson)),
   ("summary", r.summary.toJson), ("ai_usage", .object r.usage.jsonFields),
   ("branch", .ofOption .text r.status.branch), ("pr_url", .ofOption .text r.status.pullRequest),
   ("error_code", .ofOption (fun f : Failure ↦ .text f.code.label) r.failure),
   ("error", .ofOption (fun f : Failure ↦ .text f.message) r.failure)]

end Run

end SuiteMigration
