import ProtectionProvider.Client.Call

/-! # Diagnostics

What an operation reports when it cannot do its work, and what it leaves behind.
-/

namespace ProtectionProvider

inductive Diagnostic where
  | noClient (e : ClientError)
  | callFailed (operation : String) (e : ApiError)
  | emptyAttribute (name : String)
  | nullAttribute (name : String)
  | notHttp (endpoint : String)
  | noRegularBackup
  | startAfterEnd
  | noPolicyId
  | emptyPolicyId
  /-- A policy was created, but the answer does not name it. -/
  | unnamedPolicy
  deriving DecidableEq, Repr

namespace Diagnostic

def summary : Diagnostic → String
  | .noClient _ => "initialize-client failed"
  | .callFailed operation _ => operation ++ " failed"
  | .emptyAttribute name => "`" ++ name ++ "` should not be empty"
  | .nullAttribute name => "`" ++ name ++ "` should not be null"
  | .notHttp _ => "`endpoint` is not a valid URL"
  | .noRegularBackup => "`regular` backup settings are required"
  | .startAfterEnd => "`start_time_usecs` should not be after `end_time_usecs`"
  | .noPolicyId => "Protection policy has no id"
  | .emptyPolicyId => "Protection policy id should not be empty"
  | .unnamedPolicy => "CreateProtectionPolicy returned a policy without id"

def detail (complaint : String) : Diagnostic → String
  | .noClient e => e.message
  | .callFailed _ e => e.message complaint
  | .notHttp endpoint => "`" ++ endpoint ++ "` should start with http:// or https://"
  | _ => ""

def path : Diagnostic → List String
  | .emptyAttribute name | .nullAttribute name => [name]
  | .notHttp _ => ["endpoint"]
  | .noRegularBackup => ["backup_policy", "regular"]
  | .startAfterEnd => ["start_time_usecs"]
  | _ => []

/-- What is wrong with a text that has to be there. One that is not known yet may turn out so. -/
def missing (name : String) : Value String → List Diagnostic
  | .value "" => [.emptyAttribute name]
  | .value _ | .unknown => []
  | .null => [.nullAttribute name]

end Diagnostic

/-- What an operation returns, which errors it reports, and which requests it makes. Those that
redirections lead to are not its own. -/
structure Outcome (α : Type) where
  result : Option α
  errors : List Diagnostic := []
  requests : List Http.Request := []

namespace Outcome

variable {α : Type}

def ok (a : α) : Outcome α := { result := some a }

def fail (e : Diagnostic) : Outcome α := { result := none, errors := [e] }

def check (errors : List Diagnostic) : Outcome Unit :=
  { result := if errors = [] then some () else none, errors }

def onRequests (f : List Http.Request → List Http.Request) (o : Outcome α) : Outcome α :=
  { o with requests := f o.requests }

def call (slot : Option Client) (call : Call) (answer : Http.Answer)
    (k : Except ApiError call.reply.Model → Outcome α) : Outcome α :=
  match slot with
  | none => fail (.noClient .notConfigured)
  | some c =>
    let o := k (c.result call answer)
    { o with requests := c.issued call ++ o.requests }

end Outcome

end ProtectionProvider
