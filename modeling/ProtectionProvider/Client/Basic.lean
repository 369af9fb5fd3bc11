import ProtectionProvider.Entity.Model
import ProtectionProvider.Http
import ProtectionProvider.Json.Reader
import ProtectionProvider.Text.Basic
import ProtectionProvider.Url.Basic
import ProtectionProvider.Url.Reader

/-! # Clients

A client is built from settings that are checked in a fixed order: the endpoint, the token, then
the values of the headers.
-/

namespace ProtectionProvider

/-! ## Failures -/

inductive ClientError where
  | notConfigured
  | invalidEndpoint (endpoint : String)
  | missingToken
  | invalidHeader (name : String)
  | invalidUserAgent
  deriving DecidableEq, Repr

def ClientError.message : ClientError → String
  | .notConfigured => "provider is not configured"
  | .invalidEndpoint endpoint =>
    "invalid endpoint `" ++ endpoint ++ "`: expected an http:// or https:// URL"
  | .missingToken => "authentication token is empty"
  | .invalidHeader name => "invalid header value for `" ++ name ++ "`"
  | .invalidUserAgent => "could not build HTTP client: builder error"

inductive ApiError where
  /-- The URL is no URI, so no request can be made. -/
  | unrequestable (url : String)
  /-- The request could not be sent, or nothing answered it. -/
  | unanswered (url : String)
  /-- The request was redirected too often. -/
  | astray (url : String)
  | truncated
  | status (code : Nat) (message : String)
  | undecodable
  deriving DecidableEq, Repr

namespace ApiError

/-- What the JSON reader complains of is not decided here. -/
def message (complaint : String) : ApiError → String
  | .unrequestable url => "request failed: builder error for url (" ++ url ++ ")"
  | .unanswered url => "request failed: error sending request for url (" ++ url ++ ")"
  | .astray url => "request failed: error following redirect for url (" ++ url ++ ")"
  | .truncated => "request failed: error decoding response body"
  | .status code message => "API returned " ++ Http.statusLine code ++ ": " ++ message
  | .undecodable => "could not decode response: " ++ complaint

def code? : ApiError → Option Nat
  | .status code _ => some code
  | _ => none

def isNotFound (e : ApiError) : Bool := e.code? == some 404

def details : Fields := .ofList [
  Attribute.text "message" .computed "What went wrong.",
  Attribute.text "error_code" .computed "The kind of error."]

def bodyMessage (body : String) : String :=
  match (Json.read? body).bind details.decode with
  | some (some (message : String), some (code : String), ()) => message ++ " (" ++ code ++ ")"
  | some (some (message : String), none, ()) => message
  | _ => Text.excerpt body

end ApiError

/-! ## Building a client -/

structure Settings where
  endpoint : String
  token : String
  tenant : Option String
  userAgent : Option String
  deriving DecidableEq, Repr

structure Client where
  /-- The endpoint as it is shown. -/
  endpoint : String
  base : Url
  token : String
  tenant : Option String
  userAgent : String

namespace Client

def defaultUserAgent : String := "terraform-provider-backuprecovery/0.1.0"

def tenantHeader : String := "x-ibm-tenant-id"

def hasHttpScheme (endpoint : List Char) : Bool :=
  match Url.afterScheme? endpoint with
  | some (_, _ :: _) => true
  | _ => false

def base? (endpoint : String) : Option Url :=
  let s := Text.trim endpoint.toList
  if hasHttpScheme s then Url.read? s else none

def bearer (token : String) : String := "Bearer " ++ token

def shownEndpoint (endpoint : String) : String :=
  .ofList (Text.dropEndWhile (· == '/') (Text.trim endpoint.toList))

def build (s : Settings) : Except ClientError Client := do
  let some base := base? s.endpoint | throw (.invalidEndpoint s.endpoint)
  if Text.trim s.token.toList = [] then throw .missingToken
  if !Http.isHeaderValue (bearer s.token) then throw (.invalidHeader "Authorization")
  if !s.tenant.all Http.isHeaderValue then throw (.invalidHeader tenantHeader)
  let userAgent := s.userAgent.getD defaultUserAgent
  if !Http.isHeaderValue userAgent then throw .invalidUserAgent
  return ⟨shownEndpoint s.endpoint, base, s.token, s.tenant, userAgent⟩

def url (c : Client) (segments : List String) : Url := c.base.append (segments.map String.toList)

/-- The credentials of a request: those of its URL, or else the token. -/
def authorization (c : Client) (u : Url) : String :=
  match u.credentials? with
  | some (user, password) => Url.basicAuthorization user password
  | none => bearer c.token

def headers (c : Client) (u : Url) (body : Option String) : List (String × String) :=
  [("accept", "*/*"), ("authorization", c.authorization u)] ++
    (body.map fun _ => ("content-type", "application/json")).toList ++
    [("user-agent", c.userAgent)] ++ (c.tenant.map fun t => (tenantHeader, t)).toList

end Client

end ProtectionProvider
