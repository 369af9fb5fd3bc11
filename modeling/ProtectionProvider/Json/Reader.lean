import ProtectionProvider.Json.Basic
import ProtectionProvider.Text.Basic

/-! # Reading JSON

One character at a time, with the open containers on a stack, so that a text may nest as deep as it
is long.
-/

namespace ProtectionProvider.Json

def isBlank (c : Char) : Bool := c == ' ' || c == '\t' || c == '\n' || c == '\r'

/-! ## Numbers -/

inductive NumeralPart where
  | sign | zero | digits | point | fraction | exponent | exponentSign | exponentDigits
  deriving DecidableEq

structure Numeral where
  part : NumeralPart
  /-- The characters read, last first. -/
  read : List Char

namespace Numeral

def start? (c : Char) : Option Numeral :=
  if c = '-' then some ⟨.sign, [c]⟩
  else if c = '0' then some ⟨.zero, [c]⟩
  else if c.isDigit then some ⟨.digits, [c]⟩
  else none

def nextPart? (c : Char) : NumeralPart → Option NumeralPart
  | .sign => if c = '0' then some .zero else if c.isDigit then some .digits else none
  | .zero => if c = '.' then some .point else if c = 'e' ∨ c = 'E' then some .exponent else none
  | .digits =>
    if c.isDigit then some .digits
    else if c = '.' then some .point
    else if c = 'e' ∨ c = 'E' then some .exponent
    else none
  | .point => if c.isDigit then some .fraction else none
  | .fraction =>
    if c.isDigit then some .fraction else if c = 'e' ∨ c = 'E' then some .exponent else none
  | .exponent =>
    if c.isDigit then some .exponentDigits
    else if c = '+' ∨ c = '-' then some .exponentSign
    else none
  | .exponentSign | .exponentDigits => if c.isDigit then some .exponentDigits else none

def next? (n : Numeral) (c : Char) : Option Numeral :=
  (nextPart? c n.part).map fun part => ⟨part, c :: n.read⟩

def natOf (ds : List Char) : Nat := Text.natOfDigits 10 (ds.map fun c => c.toNat - '0'.toNat)

def intOf : List Char → Int
  | '-' :: ds => -(natOf ds : Int)
  | ds => natOf ds

def value? (n : Numeral) : Option Json :=
  let literal := n.read.reverse
  match n.part with
  | .zero => some (if literal = ['0'] then .int 0 else .decimal (.ofList literal))
  | .digits => some (.int (intOf literal))
  | .fraction | .exponentDigits => some (.decimal (.ofList literal))
  | _ => none

end Numeral

/-! ## Strings -/

inductive Escape where
  | none
  | backslash
  /-- `left` hexadecimal digits are missing. -/
  | unicode (left : Nat) (n : Nat)

structure Quoted where
  points : List Nat
  escape : Escape

namespace Quoted

def shortEscape? (c : Char) : Option Nat :=
  if c = '"' ∨ c = '\\' ∨ c = '/' then some c.toNat
  else if c = 'b' then some 0x08
  else if c = 'f' then some 0x0C
  else if c = 'n' then some 0x0A
  else if c = 'r' then some 0x0D
  else if c = 't' then some 0x09
  else Option.none

def next? (q : Quoted) (c : Char) : Option Quoted :=
  match q.escape with
  | .none =>
    if c = '\\' then some { q with escape := .backslash }
    else if c.toNat < 0x20 then Option.none
    else some ⟨c.toNat :: q.points, .none⟩
  | .backslash =>
    if c = 'u' then some { q with escape := .unicode 4 0 }
    else (shortEscape? c).map fun n => ⟨n :: q.points, .none⟩
  | .unicode left n =>
    (Text.hexValue? c).map fun d =>
      if left ≤ 1 then ⟨(16 * n + d) :: q.points, .none⟩
      else { q with escape := .unicode (left - 1) (16 * n + d) }

def ends (q : Quoted) (c : Char) : Bool :=
  match q.escape with
  | .none => c = '"'
  | _ => false

def isHigh (n : Nat) : Bool := 0xD800 ≤ n && n ≤ 0xDBFF

def isLow (n : Nat) : Bool := 0xDC00 ≤ n && n ≤ 0xDFFF

/-- Joins each high surrogate with the low one that follows it. -/
def joinPairs : List Nat → Text
  | [] => []
  | [n] => [n]
  | m :: n :: r =>
    if isHigh m && isLow n then (0x10000 + (m - 0xD800) * 0x400 + (n - 0xDC00)) :: joinPairs r
    else m :: joinPairs (n :: r)

def text (q : Quoted) : Text := joinPairs q.points.reverse

end Quoted

/-! ## Values -/

/-- An open container, with what has been read of it, last first. -/
inductive Frame where
  | array (items : List Json)
  | member (members : List (Text × Json)) (name : Text)

inductive Stage where
  | value
  | firstItem
  | nextItem (items : List Json)
  | firstName
  | name (members : List (Text × Json))
  | nameText (members : List (Text × Json)) (q : Quoted)
  | colon (members : List (Text × Json)) (name : Text)
  | nextMember (members : List (Text × Json))
  | text (q : Quoted)
  | number (n : Numeral)
  | word (rest : List Char) (j : Json)
  | done (j : Json)

structure Reading where
  /-- The open containers, innermost first. -/
  frames : List Frame
  stage : Stage

namespace Reading

def put (frames : List Frame) (j : Json) : Reading :=
  match frames with
  | [] => ⟨[], .done j⟩
  | .array items :: fs => ⟨fs, .nextItem (j :: items)⟩
  | .member ms name :: fs => ⟨fs, .nextMember ((name, j) :: ms)⟩

def open? (frames : List Frame) (c : Char) : Option Reading :=
  if c = '{' then some ⟨frames, .firstName⟩
  else if c = '[' then some ⟨frames, .firstItem⟩
  else if c = '"' then some ⟨frames, .text ⟨[], .none⟩⟩
  else if c = 'n' then some ⟨frames, .word ['u', 'l', 'l'] .null⟩
  else if c = 't' then some ⟨frames, .word ['r', 'u', 'e'] (.bool true)⟩
  else if c = 'f' then some ⟨frames, .word ['a', 'l', 's', 'e'] (.bool false)⟩
  else (Numeral.start? c).map fun n => ⟨frames, .number n⟩

def after? (r : Reading) (c : Char) : Option Reading :=
  if isBlank c then some r else
  match r.stage with
  | .nextItem items =>
    if c = ',' then some ⟨.array items :: r.frames, .value⟩
    else if c = ']' then some (put r.frames (.array items.reverse))
    else none
  | .nextMember ms =>
    if c = ',' then some ⟨r.frames, .name ms⟩
    else if c = '}' then some (put r.frames (.object ms.reverse))
    else none
  | _ => none

def next? (r : Reading) (c : Char) : Option Reading :=
  match r.stage with
  | .value => if isBlank c then some r else open? r.frames c
  | .firstItem =>
    if isBlank c then some r
    else if c = ']' then some (put r.frames (.array []))
    else open? (.array [] :: r.frames) c
  | .firstName =>
    if isBlank c then some r
    else if c = '"' then some ⟨r.frames, .nameText [] ⟨[], .none⟩⟩
    else if c = '}' then some (put r.frames (.object []))
    else none
  | .name ms =>
    if isBlank c then some r
    else if c = '"' then some ⟨r.frames, .nameText ms ⟨[], .none⟩⟩
    else none
  | .nameText ms q =>
    if q.ends c then some ⟨r.frames, .colon ms q.text⟩
    else (q.next? c).map fun q => ⟨r.frames, .nameText ms q⟩
  | .colon ms name =>
    if isBlank c then some r
    else if c = ':' then some ⟨.member ms name :: r.frames, .value⟩
    else none
  | .text q =>
    if q.ends c then some (put r.frames (.string q.text))
    else (q.next? c).map fun q => ⟨r.frames, .text q⟩
  | .number n =>
    match n.next? c with
    | some n => some ⟨r.frames, .number n⟩
    -- a number ends where the next character cannot belong to it
    | none => n.value?.bind fun j => (put r.frames j).after? c
  | .word [] _ => none
  | .word [x] j => if c = x then some (put r.frames j) else none
  | .word (x :: xs) j => if c = x then some ⟨r.frames, .word xs j⟩ else none
  | .nextItem _ | .nextMember _ | .done _ => r.after? c

def value? (r : Reading) : Option Json :=
  match r.frames, r.stage with
  | [], .done j => some j
  | [], .number n => n.value?
  | _, _ => none

end Reading

def readChars? (s : List Char) : Option Json :=
  (s.foldlM Reading.next? ⟨[], .value⟩).bind Reading.value?

def read? (s : String) : Option Json := readChars? s.toList

end ProtectionProvider.Json
