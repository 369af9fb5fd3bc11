import ProtectionProvider.Text.Octets
import ProtectionProvider.Url.Basic

/-! # Paths

Resolving the dot segments of a path, and appending segments to it.
-/

namespace ProtectionProvider.Url

def isSkipped (c : Char) : Bool := c == '\t' || c == '\n' || c == '\r'

def isVisible (c : Char) : Bool := 0x21 ≤ c.toNat && c.toNat ≤ 0x7E

def isPathChar (c : Char) : Bool := isVisible c && !"\"#<>?`\x7b\x7d".toList.contains c

def isSegmentChar (c : Char) : Bool := isPathChar c && !(['/', '%', '\\'].contains c)

/-! ## Dot segments -/

def afterDot? : List Char → Option (List Char)
  | '.' :: r => some r
  | '%' :: '2' :: 'e' :: r => some r
  | '%' :: '2' :: 'E' :: r => some r
  | _ => none

def isSingleDot (s : List Char) : Bool := afterDot? s == some []

def isDoubleDot (s : List Char) : Bool := (afterDot? s).bind afterDot? == some []

/-- A letter and a colon or bar, which `..` does not remove. -/
def isDrive : List Char → Bool
  | [a, b] => a.isAlpha && (b == ':' || b == '|')
  | _ => false

/-- Drops the last segment, as `..` does. -/
def parent (segments : List (List Char)) : List (List Char) :=
  match segments.getLast? with
  | some s => if isDrive s then segments else segments.dropLast
  | none => []

/-- Appends the segments of a path after `before`, resolving those that are dots. -/
def resolve (before : List (List Char)) : List (List Char) → List (List Char)
  | [] => before
  | [s] =>
    if isDoubleDot s then parent before ++ [[]]
    else if isSingleDot s then before ++ [[]]
    else before ++ [s]
  | s :: r =>
    if isDoubleDot s then resolve (parent before) r
    else if isSingleDot s then resolve before r
    else resolve (before ++ [s]) r

/-! ## Appending -/

/-- The segments after which another one is written: those of the root path are none. -/
def stem : List (List Char) → List (List Char)
  | [[]] => []
  | segments => segments

def dropEmptyLast (segments : List (List Char)) : List (List Char) :=
  if 1 < segments.length ∧ segments.getLast? = some [] then segments.dropLast else segments

/-- Appends one segment. The segments `.` and `..` change nothing. What becomes one of them only
without its tabs and line ends is resolved. -/
def pushSegment (path : List (List Char)) (segment : List Char) : List (List Char) :=
  if segment = ['.'] ∨ segment = ['.', '.'] then path
  else
    let s := segment.filter fun c => !isSkipped c
    if s = ['.', '.'] then parent (stem path) ++ [[]]
    else if s = ['.'] then stem path ++ [[]]
    else stem path ++ [Text.percentEncode isSegmentChar s]

def append (u : Url) (segments : List (List Char)) : Url :=
  { u with path := segments.foldl pushSegment (dropEmptyLast u.path) }

end ProtectionProvider.Url
