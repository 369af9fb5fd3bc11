import ProtectionProvider.Text.Octets
import ProtectionProvider.Text.Basic

/-! # Hosts

A host is an address of version 6 in brackets, an address of version 4, or a domain name. There is no
IDNA here: a name with a character beyond ASCII is refused instead of being mapped, and a label that
begins with `xn--` is taken without a look at what it encodes.
-/

namespace ProtectionProvider.Host

/-! ## Version 4 -/

/-- One part of an address: decimal, octal after `0`, hexadecimal after `0x`. -/
def part? : List Char → Option Nat
  | [] => none
  | '0' :: 'x' :: s => Text.numeral? 16 s
  | '0' :: 'X' :: s => Text.numeral? 16 s
  | '0' :: c :: s => Text.numeral? 8 (c :: s)
  | s => Text.numeral? 10 s

def parts (s : List Char) : List (List Char) :=
  let l := s.splitOn '.'
  if 1 < l.length ∧ l.getLast? = some [] then l.dropLast else l

/-- A name whose last part is a number must be an address. -/
def endsInNumber (s : List Char) : Bool :=
  match (parts s).getLast? with
  | some l => (l ≠ [] && l.all Char.isDigit) || (part? l).isSome
  | none => false

def combine? : Nat → List Nat → Option Nat
  | _, [] => none
  | octets, [n] => if n < 256 ^ octets then some n else none
  | octets, n :: l =>
    if n < 256 then (combine? (octets - 1) l).map fun m => n * 256 ^ (octets - 1) + m else none

def address4? (s : List Char) : Option Nat :=
  let l := parts s
  if l.length ≤ 4 then (l.mapM part?).bind (combine? 4) else none

def dotted (n : Nat) : List Char :=
  List.intercalate ['.'] ([n / 16777216, n / 65536 % 256, n / 256 % 256, n % 256].map
    fun (k : Nat) => Text.decimal k)

/-! ## Version 6 -/

def group? (s : List Char) : Option Nat :=
  if 1 ≤ s.length ∧ s.length ≤ 4 then Text.numeral? 16 s else none

def octet? (s : List Char) : Option Nat :=
  if s = [] ∨ (s.head? = some '0' ∧ s ≠ ['0']) then none
  else (Text.numeral? 10 s).bind fun n => if n < 256 then some n else none

def embedded? (s : List Char) : Option (List Nat) :=
  match (s.splitOn '.').mapM octet? with
  | some [a, b, c, d] => some [256 * a + b, 256 * c + d]
  | _ => none

def groups? : List (List Char) → Option (List Nat)
  | [] => some []
  | [s] => ((group? s).map fun n => [n]) <|> embedded? s
  | s :: l => (group? s).bind fun n => (groups? l).map (n :: ·)

def splitDouble? : List Char → Option (List Char × List Char)
  | ':' :: ':' :: r => some ([], r)
  | c :: r => (splitDouble? r).map fun (a, b) => (c :: a, b)
  | [] => none

def groupsOf? (s : List Char) : Option (List Nat) :=
  if s = [] then some [] else groups? (s.splitOn ':')

def address6? (s : List Char) : Option (List Nat) :=
  match splitDouble? s with
  | none => (groups? (s.splitOn ':')).bind fun l => if l.length = 8 then some l else none
  | some (a, b) => do
    let l ← if a = [] then some [] else (a.splitOn ':').mapM group?
    let r ← groupsOf? b
    if l.length + r.length ≤ 7 then some (l ++ List.replicate (8 - l.length - r.length) 0 ++ r)
    else none

def leadingZeros (l : List Nat) : Nat := (l.takeWhile (· == 0)).length

def longestRun : Nat → List Nat → Nat × Nat
  | _, [] => (0, 0)
  | i, n :: l =>
    let here := leadingZeros (n :: l)
    let rest := longestRun (i + 1) l
    if rest.2 ≤ here then (i, here) else rest

def hexText (n : Nat) : List Char := Nat.toDigits 16 n

/-- The address with its first longest run of at least two zero groups left out. -/
def colons (groups : List Nat) : List Char :=
  let join := fun l : List Nat => List.intercalate [':'] (l.map hexText)
  let (i, n) := longestRun 0 groups
  if n < 2 then join groups
  else join (groups.take i) ++ [':', ':'] ++ join (groups.drop (i + n))

/-! ## Reading -/

def isForbidden (c : Char) : Bool :=
  c.toNat ≤ 0x20 || 0x7F ≤ c.toNat || "#/:<>?@[\\]^|%".toList.contains c

def domain? (s : List Char) : Option (List Char) :=
  (Text.decode? (Text.percentDecode s)).bind fun t =>
    let name := t.toList.map Char.toLower
    if name = [] ∨ name.any isForbidden then none
    else if endsInNumber name then (address4? name).map dotted
    else some name

def read? : List Char → Option (List Char)
  | '[' :: s =>
    if s.getLast? = some ']' then (address6? s.dropLast).map fun l => '[' :: colons l ++ [']']
    else none
  | s => domain? s

end ProtectionProvider.Host
