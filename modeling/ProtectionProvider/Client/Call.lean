import ProtectionProvider.Client.Basic
import ProtectionProvider.Filter
import ProtectionProvider.Group.Basic
import ProtectionProvider.Json.Basic
import ProtectionProvider.Policy.Basic

/-! # Calls of the API

Each call makes one request. Its result is decided by what comes back to it in the end.
-/

namespace ProtectionProvider

inductive Call where
  | listPolicies (options : Filter.policies.Model)
  | getPolicy (id : String)
  | createPolicy (policy : Policy.protectionPolicy.Model)
  | updatePolicy (id : String) (policy : Policy.protectionPolicy.Model)
  | deletePolicy (id : String)
  | listGroups (options : Filter.groups.Model)
  | getGroup (id : String) (options : Filter.group.Model)
  | listRuns (group : String) (options : Filter.runs.Model)
  | getRun (group run : String) (options : Filter.run.Model)
  | listReports (options : Filter.reports.Model)

namespace Call

def operation : Call → String
  | .listPolicies _ => "GetProtectionPolicies"
  | .getPolicy _ => "GetProtectionPolicyById"
  | .createPolicy _ => "CreateProtectionPolicy"
  | .updatePolicy .. => "UpdateProtectionPolicy"
  | .deletePolicy _ => "DeleteProtectionPolicy"
  | .listGroups _ => "GetProtectionGroups"
  | .getGroup .. => "GetProtectionGroupById"
  | .listRuns .. => "GetProtectionGroupRuns"
  | .getRun .. => "GetProtectionGroupRun"
  | .listReports _ => "GetReports"

def method : Call → Http.Method
  | .createPolicy _ => .post
  | .updatePolicy .. => .put
  | .deletePolicy _ => .delete
  | _ => .get

def segments : Call → List String
  | .listPolicies _ | .createPolicy _ => ["data-protect", "policies"]
  | .getPolicy id | .updatePolicy id _ | .deletePolicy id => ["data-protect", "policies", id]
  | .listGroups _ => ["data-protect", "protection-groups"]
  | .getGroup id _ => ["data-protect", "protection-groups", id]
  | .listRuns group _ => ["data-protect", "protection-groups", group, "runs"]
  | .getRun group run _ => ["data-protect", "protection-groups", group, "runs", run]
  | .listReports _ => ["reports"]

def query : Call → List (String × String)
  | .listPolicies o => Filter.policies.query o
  | .listGroups o => Filter.groups.query o
  | .getGroup _ o => Filter.group.query o
  | .listRuns _ o => Filter.runs.query o
  | .getRun _ _ o => Filter.run.query o
  | .listReports o => Filter.reports.query o
  | _ => []

def body : Call → Option String
  | .createPolicy p | .updatePolicy _ p => some (Policy.protectionPolicy.encode p).toString
  | _ => none

def reply : Call → Fields
  | .listPolicies _ => Policy.listed
  | .getPolicy _ | .createPolicy _ | .updatePolicy .. => Policy.protectionPolicy
  | .deletePolicy _ => .nil
  | .listGroups _ => Group.listed
  | .getGroup .. => Group.protectionGroup
  | .listRuns .. => Group.listedRuns
  | .getRun .. => Group.protectionGroupRun
  | .listReports _ => Reporting.listed

/-- Reads the body of a success. That of a deletion does not matter. -/
def decodeReply? : (call : Call) → String → Option call.reply.Model
  | .deletePolicy _, _ => some ()
  | call, body => (Json.read? body).bind call.reply.decode

end Call

namespace Client

def callUrl (c : Client) (call : Call) : Url := (c.url call.segments).addQuery call.query

/-- The URL that a failed request is reported with. -/
def reportedUrl (u : Url) : Url := if u.credentials?.isSome then u.withoutUser else u

def request (c : Client) (call : Call) : Http.Request where
  method := call.method
  url := (c.callUrl call).withoutUser.withoutFragment
  headers := c.headers (c.callUrl call) call.body
  body := call.body

/-- The request that a call makes, unless its URL is no URI. -/
def issued (c : Client) (call : Call) : List Http.Request :=
  if (reportedUrl (c.callUrl call)).isUri then [c.request call] else []

def bodyText (status : Nat) (body : Text.Octets) : String :=
  if Http.isBodiless status then "" else Text.decodeLossy body

end Client

/-- What a whole answer says. -/
def Call.conclude (call : Call) (status : Nat) (body : Text.Octets) : Except ApiError call.reply.Model :=
  let text := Client.bodyText status body
  if Http.isSuccess status then
    match call.decodeReply? text with
    | some m => .ok m
    | none => .error .undecodable
  else .error (.status status (ApiError.bodyMessage text))

def Client.result (c : Client) (call : Call) (answer : Http.Answer) : Except ApiError call.reply.Model :=
  let url := reportedUrl (c.callUrl call)
  if url.isUri then
    match answer.settled with
    | .dropped => .error (.unanswered (answer.asked Http.redirectLimit url).toString)
    | .cut => .error .truncated
    | .whole status body => call.conclude status body
    | .moved .. => .error (.astray (answer.asked Http.redirectLimit url).toString)
  else .error (.unrequestable url.toString)

end ProtectionProvider
