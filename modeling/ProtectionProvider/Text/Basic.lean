/-! # Characters, names and numerals -/

namespace ProtectionProvider.Text

/-! ## White space -/

def isBlank (c : Char) : Bool :=
  let n := c.toNat
  (0x09 ≤ n && n ≤ 0x0D) || n == 0x20 || n == 0x85 || n == 0xA0 || n == 0x1680 ||
  (0x2000 ≤ n && n ≤ 0x200A) || n == 0x2028 || n == 0x2029 || n == 0x202F || n == 0x205F ||
  n == 0x3000

def dropEndWhile (p : Char → Bool) (s : List Char) : List Char :=
  (s.reverse.dropWhile p).reverse

def trim (s : List Char) : List Char := dropEndWhile isBlank (s.dropWhile isBlank)

/-! ## Names of members -/

def camelChars : List Char → List Char
  | [] => []
  | ['_'] => []
  | '_' :: c :: r => c.toUpper :: camelChars r
  | c :: r => c :: camelChars r

def camelCase (name : String) : String := .ofList (camelChars name.toList)

example : camelCase "last_modification_time_usecs" = "lastModificationTimeUsecs" := by decide

/-! ## Numerals -/

def decimal : Int → List Char
  | .ofNat n => Nat.toDigits 10 n
  | .negSucc n => '-' :: Nat.toDigits 10 (n + 1)

def upperHex (n : Nat) : Char := Char.ofNat (if n < 10 then 0x30 + n else 0x37 + n)

def lowerHex (n : Nat) : Char := Char.ofNat (if n < 10 then 0x30 + n else 0x57 + n)

def hexValue? (c : Char) : Option Nat :=
  if '0' ≤ c && c ≤ '9' then some (c.toNat - 0x30)
  else if 'A' ≤ c && c ≤ 'F' then some (c.toNat - 0x37)
  else if 'a' ≤ c && c ≤ 'f' then some (c.toNat - 0x57)
  else none

def digit? (base : Nat) (c : Char) : Option Nat :=
  (hexValue? c).bind fun d => if d < base then some d else none

def natOfDigits (base : Nat) (ds : List Nat) : Nat := ds.foldl (fun n d => base * n + d) 0

def numeral? (base : Nat) (s : List Char) : Option Nat :=
  (s.mapM (digit? base)).map (natOfDigits base)

theorem hexValue?_upperHex {n : Nat} (h : n < 16) : hexValue? (upperHex n) = some n := by
  revert n
  decide

theorem hexValue?_lowerHex {n : Nat} (h : n < 16) : hexValue? (lowerHex n) = some n := by
  revert n
  decide

/-! ## Excerpts -/

/-- The general category `Cc`. -/
def isControl (c : Char) : Bool := c.toNat < 0x20 || (0x7F ≤ c.toNat && c.toNat < 0xA0)

def excerptLength : Nat := 200

/-- The body without controls, cut after `excerptLength` characters with a note of its full size. -/
def excerpt (body : String) : String :=
  let shown := body.toList.filter fun c => !isControl c
  if shown.length ≤ excerptLength then .ofList shown
  else .ofList (shown.take excerptLength) ++
    "... [truncated, " ++ toString body.utf8ByteSize ++ " bytes total]"

end ProtectionProvider.Text
