import SuiteMigration.Text.Basic

/-!
Failures of a repository, by what can be done about them, and failures that end a run.
-/

set_option autoImplicit false
set_option relaxedAutoImplicit false

namespace SuiteMigration

open SuiteMigration.Text

namespace Repository

inductive ErrorKind where
  | auth
  | authorization
  | notFound
  | network
  | tls
  /-- The host asks for fewer requests. -/
  | rateLimited
  /-- The response is malformed or empty, which throttling causes. -/
  | malformedResponse
  | timeout
  | unsupported
  | other
  deriving DecidableEq, Repr

structure Error where
  kind : ErrorKind
  message : String
  deriving DecidableEq, Repr

/-- Whether a read that failed like this is tried again after a pause. -/
def Error.isThrottling (e : Error) : Bool :=
  e.kind == .rateLimited || e.kind == .malformedResponse

/-- Words in a message that tell of a passing failure. -/
def transientWords : List String :=
  ["timeout", "timed out", "rate limit", "rate-limit", "network", "connection"]

/-- Whether a write that failed like this is tried once more. -/
def Error.isTransient (e : Error) : Bool :=
  e.kind == .timeout || e.kind == .rateLimited || e.kind == .network ||
    (let message := toLower e.message
     transientWords.any fun word ↦ contains message word)

/-- The kind of failure that a message tells of. -/
def ErrorKind.ofMessage (message : String) : ErrorKind :=
  let lower := toLower message
  let mentions := fun parts : List String ↦ parts.any fun part ↦ contains lower part
  if mentions ["429", "rate limit", "too many requests"] then .rateLimited
  else if mentions ["401", "unauthorized", "bad credentials"] then .auth
  else if mentions ["403", "forbidden", "permission"] then .authorization
  else if mentions ["certificate", "ssl", "tls"] then .tls
  else if mentions ["timed out", "timeout"] then .timeout
  else if mentions ["dns", "resolve host", "connection", "network"] then .network
  else if mentions ["404", "not found"] then .notFound
  else .other

end Repository

/-- Codes of the failures that end a run. -/
inductive ErrorCode where
  | auth
  | authorization
  | notFound
  | network
  | tls
  | branch
  | skeleton
  | pullRequest
  | internal
  deriving DecidableEq, Repr

def ErrorCode.label : ErrorCode → String
  | .auth => "E_AUTH"
  | .authorization => "E_AUTHZ"
  | .notFound => "E_NOT_FOUND"
  | .network => "E_NETWORK"
  | .tls => "E_TLS"
  | .branch => "E_BRANCH"
  | .skeleton => "E_SKELETON"
  | .pullRequest => "E_PULL_REQUEST"
  | .internal => "E_INTERNAL"

/-- A failure that ends a run. -/
structure Failure where
  code : ErrorCode
  message : String
  deriving DecidableEq, Repr

def Failure.describe (f : Failure) : String :=
  "[" ++ f.code.label ++ "] " ++ f.message

/-- What a failed access to the repository means for the user. -/
def Failure.ofAccess (e : Repository.Error) (branch : String) : Failure :=
  match e.kind with
  | .auth =>
      ⟨.auth, "Authentication failed (" ++ e.message ++
        "). Check that your token is set and has not expired."⟩
  | .authorization =>
      ⟨.authorization, "Access denied (" ++ e.message ++
        "). The token needs read and write access to the repository."⟩
  | .notFound =>
      ⟨.notFound, "Repository or branch '" ++ branch ++ "' was not found (" ++ e.message ++
        "). Check the repository path and branch name."⟩
  | .network | .timeout =>
      ⟨.network, "Could not reach the repository host (" ++ e.message ++
        "). Check your network connection and DNS settings."⟩
  | .tls =>
      ⟨.tls, "TLS handshake failed (" ++ e.message ++
        "). Check proxy settings and installed certificates."⟩
  | _ => ⟨.internal, "Repository access check failed: " ++ e.message⟩

end SuiteMigration
