import ProtectionProvider.Text.Basic

/-! # Octets and text

Octets are read as UTF-8, strictly or with U+FFFD for each longest part that begins no character, and
written as escapes in URLs and forms and in base 64.
-/

namespace ProtectionProvider.Text

abbrev Octets := List UInt8

def octets (s : List Char) : Octets := s.flatMap String.utf8EncodeChar

def decode? (bytes : Octets) : Option String := String.fromUTF8? ⟨bytes.toArray⟩

structure Partial where
  bits : Nat
  missing : Nat
  /-- The bounds of the next octet. -/
  low : UInt8
  high : UInt8

def replacement : Char := '\uFFFD'

def start (b : UInt8) : List Char × Option Partial :=
  if b < 0x80 then ([Char.ofNat b.toNat], none)
  else if 0xC2 ≤ b && b ≤ 0xDF then ([], some ⟨b.toNat - 0xC0, 1, 0x80, 0xBF⟩)
  else if b == 0xE0 then ([], some ⟨0, 2, 0xA0, 0xBF⟩)
  else if b == 0xED then ([], some ⟨0xD, 2, 0x80, 0x9F⟩)
  else if 0xE1 ≤ b && b ≤ 0xEF then ([], some ⟨b.toNat - 0xE0, 2, 0x80, 0xBF⟩)
  else if b == 0xF0 then ([], some ⟨0, 3, 0x90, 0xBF⟩)
  else if b == 0xF4 then ([], some ⟨4, 3, 0x80, 0x8F⟩)
  else if 0xF1 ≤ b && b ≤ 0xF3 then ([], some ⟨b.toNat - 0xF0, 3, 0x80, 0xBF⟩)
  else ([replacement], none)

def next (p : Partial) (b : UInt8) : List Char × Option Partial :=
  if p.low ≤ b && b ≤ p.high then
    let bits := p.bits * 64 + (b.toNat - 0x80)
    if p.missing ≤ 1 then ([Char.ofNat bits], none)
    else ([], some ⟨bits, p.missing - 1, 0x80, 0xBF⟩)
  else
    -- the part read so far is no character, and this octet may start one
    let (cs, q) := start b
    (replacement :: cs, q)

def decodeFrom : Option Partial → Octets → List Char
  | none, [] => []
  | some _, [] => [replacement]
  | none, b :: r => (start b).1 ++ decodeFrom (start b).2 r
  | some p, b :: r => (next p b).1 ++ decodeFrom (next p b).2 r

def decodeLossy (bytes : Octets) : String := .ofList (decodeFrom none bytes)

/-! ## Base 64 -/

def base64Digit (n : Nat) : Char :=
  if n < 26 then Char.ofNat (0x41 + n)
  else if n < 52 then Char.ofNat (0x61 + (n - 26))
  else if n < 62 then Char.ofNat (0x30 + (n - 52))
  else if n = 62 then '+' else '/'

def base64 : Octets → List Char
  | [] => []
  | [a] =>
    let n := a.toNat * 16
    [base64Digit (n / 64), base64Digit (n % 64), '=', '=']
  | [a, b] =>
    let n := (a.toNat * 256 + b.toNat) * 4
    [base64Digit (n / 4096), base64Digit (n / 64 % 64), base64Digit (n % 64), '=']
  | a :: b :: c :: r =>
    let n := (a.toNat * 256 + b.toNat) * 256 + c.toNat
    base64Digit (n / 262144) :: base64Digit (n / 4096 % 64) :: base64Digit (n / 64 % 64) ::
      base64Digit (n % 64) :: base64 r

example : base64 [0x75, 0x3A, 0x70, 0x77] = ['d', 'T', 'p', 'w', 'd', 'w', '=', '='] := by decide

/-! ## Percent encoding -/

def percentOctet (b : UInt8) : List Char := ['%', upperHex (b.toNat / 16), upperHex (b.toNat % 16)]

def percentChar (keep : Char → Bool) (c : Char) : List Char :=
  if keep c then [c] else (String.utf8EncodeChar c).flatMap percentOctet

def percentEncode (keep : Char → Bool) (s : List Char) : List Char := s.flatMap (percentChar keep)

/-- An escape is an octet, and any other character stands for its own octets. -/
def percentDecode : List Char → Octets
  | [] => []
  | '%' :: a :: b :: r =>
    match hexValue? a, hexValue? b with
    | some m, some n => UInt8.ofNat (16 * m + n) :: percentDecode r
    | _, _ => 0x25 :: percentDecode (a :: b :: r)
  | c :: r => String.utf8EncodeChar c ++ percentDecode r

/-! ## Forms -/

namespace Form

def isPlain (c : Char) : Bool :=
  c.isAlphanum || c == '*' || c == '-' || c == '.' || c == '_'

def encodeText (s : String) : List Char :=
  s.toList.flatMap fun c => if c = ' ' then ['+'] else percentChar isPlain c

def encodePair (p : String × String) : List Char := encodeText p.1 ++ '=' :: encodeText p.2

def encode (pairs : List (String × String)) : List Char :=
  List.intercalate ['&'] (pairs.map encodePair)

def append (query : Option (List Char)) (pairs : List (String × String)) : List Char :=
  match query with
  | none | some [] => encode pairs
  | some q => q ++ '&' :: encode pairs

end Form

end ProtectionProvider.Text
