import ProtectionProvider.Url.Basic

/-!
# Requests and answers

A request gets an answer, or it is redirected. The client then goes on at the URL that it is given, and
what comes back from there is what counts, unless it is redirected too often.
-/

namespace ProtectionProvider.Http

inductive Method where
  | get | post | put | delete
  deriving DecidableEq, Repr

def Method.name : Method → String
  | .get => "GET"
  | .post => "POST"
  | .put => "PUT"
  | .delete => "DELETE"

structure Request where
  method : Method
  url : Url
  headers : List (String × String)
  body : Option String

inductive Answer where
  | dropped
  /-- The body ends too early. -/
  | cut
  | whole (status : Nat) (body : Text.Octets)
  /-- A redirection to `target`, where `next` is the answer. The client keeps the method and the body, or
  it goes on with a bare `GET`. -/
  | moved (keeps : Bool) (target : Url) (next : Answer)

def isHeaderValue (s : String) : Bool :=
  s.toList.all fun c => c == '\t' || (0x20 ≤ c.toNat && c.toNat != 0x7F)

/-! ## Redirections -/

def redirectLimit : Nat := 10

namespace Answer

def settle : Nat → Answer → Answer
  | n + 1, .moved _ _ next => settle n next
  | _, a => a

/-- What comes back in the end. It is a redirection only if there are too many. -/
def settled (a : Answer) : Answer := a.settle redirectLimit

/-- The URL that is asked last, if `u` is asked first. -/
def asked : Nat → Url → Answer → Url
  | n + 1, _, .moved _ target next => asked n target next
  | _, u, _ => u

end Answer

namespace Request

/-- Credentials stay with the host that they are for. Where the request comes from is told, unless that
was a URL for `https` and the next one is not. -/
def carried (r : Request) (keeps : Bool) (target : Url) : List (String × String) :=
  let kept := r.headers.filter fun h =>
    (h.1 != "authorization" || r.url.sameHost target) && (h.1 != "content-type" || keeps)
  if r.url.secure && !target.secure then kept
  else kept.filter (·.1 != "referer") ++ [("referer", r.url.toString)]

def redirected (r : Request) (keeps : Bool) (target : Url) : Request where
  method := if keeps then r.method else .get
  url := target.withoutUser.withoutFragment
  headers := r.carried keeps target
  body := if keeps then r.body else none

/-- What redirections make of a request. -/
def followed : Nat → Request → Answer → List Request
  | n + 1, r, .moved keeps target next => r.redirected keeps target :: followed n (r.redirected keeps target) next
  | _, _, _ => []

/-- All requests that go out for one, which gets this answer. -/
def sent (a : Answer) (r : Request) : List Request := r :: r.followed redirectLimit a

end Request

/-! ## Status codes -/

def isSuccess (status : Nat) : Bool := 200 ≤ status && status < 300

def isBodiless (status : Nat) : Bool := status == 204 || status == 304

def reasons : List (Nat × String) := [
  (100, "Continue"),
  (101, "Switching Protocols"),
  (102, "Processing"),
  (200, "OK"),
  (201, "Created"),
  (202, "Accepted"),
  (203, "Non Authoritative Information"),
  (204, "No Content"),
  (205, "Reset Content"),
  (206, "Partial Content"),
  (207, "Multi-Status"),
  (208, "Already Reported"),
  (226, "IM Used"),
  (300, "Multiple Choices"),
  (301, "Moved Permanently"),
  (302, "Found"),
  (303, "See Other"),
  (304, "Not Modified"),
  (305, "Use Proxy"),
  (307, "Temporary Redirect"),
  (308, "Permanent Redirect"),
  (400, "Bad Request"),
  (401, "Unauthorized"),
  (402, "Payment Required"),
  (403, "Forbidden"),
  (404, "Not Found"),
  (405, "Method Not Allowed"),
  (406, "Not Acceptable"),
  (407, "Proxy Authentication Required"),
  (408, "Request Timeout"),
  (409, "Conflict"),
  (410, "Gone"),
  (411, "Length Required"),
  (412, "Precondition Failed"),
  (413, "Payload Too Large"),
  (414, "URI Too Long"),
  (415, "Unsupported Media Type"),
  (416, "Range Not Satisfiable"),
  (417, "Expectation Failed"),
  (418, "I'm a teapot"),
  (421, "Misdirected Request"),
  (422, "Unprocessable Entity"),
  (423, "Locked"),
  (424, "Failed Dependency"),
  (425, "Too Early"),
  (426, "Upgrade Required"),
  (428, "Precondition Required"),
  (429, "Too Many Requests"),
  (431, "Request Header Fields Too Large"),
  (451, "Unavailable For Legal Reasons"),
  (500, "Internal Server Error"),
  (501, "Not Implemented"),
  (502, "Bad Gateway"),
  (503, "Service Unavailable"),
  (504, "Gateway Timeout"),
  (505, "HTTP Version Not Supported"),
  (506, "Variant Also Negotiates"),
  (507, "Insufficient Storage"),
  (508, "Loop Detected"),
  (510, "Not Extended"),
  (511, "Network Authentication Required")]

def reason (status : Nat) : String := (reasons.lookup status).getD "<unknown status code>"

def statusLine (status : Nat) : String := toString status ++ " " ++ reason status

end ProtectionProvider.Http
