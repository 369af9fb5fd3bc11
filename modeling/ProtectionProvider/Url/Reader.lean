import ProtectionProvider.Url.Host
import ProtectionProvider.Url.Path

/-! # Reading URLs

The reading is lenient as browsers are: backslashes are slashes, slashes before the host may
repeat, and characters that must not stand where they do are escaped.
-/

namespace ProtectionProvider.Url

def afterStart? : List Char → List Char → Option (List Char)
  | [], s => some s
  | c :: p, d :: s => if c = d then afterStart? p s else none
  | _ :: _, [] => none

def afterScheme? (s : List Char) : Option (Bool × List Char) :=
  match afterStart? "http://".toList s with
  | some r => some (false, r)
  | none => (afterStart? "https://".toList s).map fun r => (true, r)

def isSlash (c : Char) : Bool := c == '/' || c == '\\'

def isUserChar (c : Char) : Bool := isPathChar c && !"/:;=@[\\]^|".toList.contains c

def isQueryChar (c : Char) : Bool := isVisible c && !"\"#<>'".toList.contains c

def isFragmentChar (c : Char) : Bool := isVisible c && !"\"<>`".toList.contains c

def splitBefore (p : Char → Bool) (s : List Char) : List Char × List Char :=
  (s.takeWhile fun c => !p c, s.dropWhile fun c => !p c)

def splitUser (s : List Char) : List Char × List Char :=
  let host := (s.reverse.takeWhile (· != '@')).reverse
  (s.take (s.length - host.length - 1), host)

def splitHost : List Char → List Char × List Char
  | '[' :: s =>
    let (inner, rest) := splitBefore (· == ']') s
    ('[' :: inner ++ rest.take 1, rest.drop 1)
  | s => splitBefore (· == ':') s

def port? (secure : Bool) : List Char → Option (Option Nat)
  | [] | [':'] => some none
  | ':' :: s =>
    (Text.numeral? 10 s).bind fun n =>
      if 65535 < n then none
      else if n = (if secure then 443 else 80) then some none
      else some (some n)
  | _ => none

def readPath (s : List Char) : List (List Char) :=
  let s := s.map fun c => if c = '\\' then '/' else c
  resolve [] (((s.drop 1).splitOn '/').map (Text.percentEncode isPathChar))

def readRest? (secure : Bool) (s : List Char) : Option Url := do
  let s := s.dropWhile isSlash
  let (authority, s) := splitBefore (fun c => isSlash c || c == '?' || c == '#') s
  let (before, s) := splitBefore (· == '#') s
  let (path, query) := splitBefore (· == '?') before
  let (info, hostPort) := splitUser authority
  let (user, password) := splitBefore (· == ':') info
  let (hostText, portText) := splitHost hostPort
  let host ← Host.read? hostText
  let port ← port? secure portText
  return {
    secure, host, port
    user := Text.percentEncode isUserChar user
    password :=
      if password.length ≤ 1 then none
      else some (Text.percentEncode isUserChar (password.drop 1))
    path := readPath path
    query := match query with
      | [] => none
      | _ :: q => some (Text.percentEncode isQueryChar q)
    fragment := match s with
      | [] => none
      | _ :: f => some (Text.percentEncode isFragmentChar f) }

def isEdge (c : Char) : Bool := c.toNat ≤ 0x20

def read? (s : List Char) : Option Url :=
  (afterScheme? (s.reverse.dropWhile isEdge).reverse).bind fun (secure, r) =>
    readRest? secure (r.filter fun c => !isSkipped c)

end ProtectionProvider.Url
