import ProtectionProvider.Text.Octets
import ProtectionProvider.Text.Basic

/-! # URLs

Absolute URLs of the schemes `http` and `https`. All parts are kept in their written form.
-/

namespace ProtectionProvider

structure Url where
  /-- Whether the scheme is `https`. -/
  secure : Bool
  user : List Char
  password : Option (List Char)
  host : List Char
  /-- Absent if it is the default of the scheme. -/
  port : Option Nat
  /-- The segments, each written after a slash. There is at least one. -/
  path : List (List Char)
  query : Option (List Char)
  fragment : Option (List Char)

namespace Url

/-! ## Written form -/

def scheme (u : Url) : List Char := (if u.secure then "https" else "http").toList

def userInfo (u : Url) : List Char :=
  match u.user, u.password with
  | [], none => []
  | user, none => user ++ ['@']
  | user, some password => user ++ ':' :: password ++ ['@']

def portText (u : Url) : List Char :=
  match u.port with
  | none => []
  | some n => ':' :: Text.decimal n

def pathText (u : Url) : List Char := u.path.flatMap fun s => '/' :: s

def chars (u : Url) : List Char :=
  u.scheme ++ "://".toList ++ u.userInfo ++ u.host ++ u.portText ++ u.pathText ++
    (u.query.elim [] fun q => '?' :: q) ++ (u.fragment.elim [] fun f => '#' :: f)

def toString (u : Url) : String := .ofList u.chars

def uriLimit : Nat := 65534

/-- Four characters may stand in the host of a URL, but not in a URI. -/
def isUriHostChar (c : Char) : Bool := !"\"`\x7b\x7d".toList.contains c

/-- Whether the URL is a URI as well. Only the host and the length can speak against it. -/
def isUri (u : Url) : Bool := u.host.all isUriHostChar && u.chars.length ≤ uriLimit

def portNumber (u : Url) : Nat := u.port.getD (if u.secure then 443 else 80)

def sameHost (u v : Url) : Bool := u.host == v.host && u.portNumber == v.portNumber

/-! ## Credentials -/

/-- The user name and password, decoded, if the user name is a text and one of them is there. -/
def credentials? (u : Url) : Option (String × Option String) :=
  (Text.decode? (Text.percentDecode u.user)).bind fun user =>
    let password := u.password.bind fun p => Text.decode? (Text.percentDecode p)
    if user = "" ∧ password = none then none else some (user, password)

def withoutUser (u : Url) : Url := { u with user := [], password := none }

def withoutFragment (u : Url) : Url := { u with fragment := none }

def basicAuthorization (user : String) (password : Option String) : String :=
  "Basic " ++ .ofList (Text.base64 (Text.octets (user.toList ++ ':' :: (password.getD "").toList)))

/-! ## Queries -/

def addQuery (u : Url) (pairs : List (String × String)) : Url :=
  match pairs with
  | [] => u
  | _ => { u with query := some (Text.Form.append u.query pairs) }

end Url

end ProtectionProvider
