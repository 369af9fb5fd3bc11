import ProtectionProvider.Text.Basic

/-! # JSON values

Numbers are told apart by how they are written: an integer, or anything with a fraction, an
exponent or the sign of a negative zero. Members keep their order, and names may repeat.
-/

namespace ProtectionProvider

/-- A JSON string as code points: an escape can name a surrogate, which no character is. -/
abbrev Json.Text := List Nat

inductive Json where
  | null
  | bool (b : Bool)
  | int (n : Int)
  /-- A number that is not written as an integer, kept as it is written. -/
  | decimal (literal : String)
  | string (text : Json.Text)
  | array (items : List Json)
  | object (members : List (Json.Text × Json))
  deriving Inhabited

namespace Json

def Text.ofString (s : String) : Text := s.toList.map Char.toNat

def char? (n : Nat) : Option Char := if h : n.isValidChar then some (Char.ofNatAux n h) else none

def Text.toString? (t : Text) : Option String := (t.mapM char?).map String.ofList

def str (s : String) : Json := .string (.ofString s)

def obj (members : List (String × Json)) : Json :=
  .object (members.map fun (name, j) => (.ofString name, j))

theorem char?_toNat (c : Char) : char? c.toNat = some c := by
  rw [char?, dif_pos (show c.toNat.isValidChar from c.valid)]
  rfl

@[simp] theorem Text.toString?_ofString (s : String) : (Text.ofString s).toString? = some s := by
  have h : ∀ l : List Char, (l.map Char.toNat).mapM char? = some l := by
    intro l
    induction l with
    | nil => rfl
    | cons c r ih => simp [List.mapM_cons, char?_toNat, ih]
  simp [toString?, ofString, h]

/-! ## Printing

The compact form. A quote, a backslash, a control character and a surrogate are escaped, and
nothing else is.
-/

def unicodeEscape (n : Nat) : List Char :=
  '\\' :: 'u' :: [n / 4096 % 16, n / 256 % 16, n / 16 % 16, n % 16].map Text.lowerHex

def printPoint (n : Nat) : List Char :=
  if n = 0x22 then ['\\', '"']
  else if n = 0x5C then ['\\', '\\']
  else if n = 0x08 then ['\\', 'b']
  else if n = 0x09 then ['\\', 't']
  else if n = 0x0A then ['\\', 'n']
  else if n = 0x0C then ['\\', 'f']
  else if n = 0x0D then ['\\', 'r']
  else if n < 0x20 then unicodeEscape n
  else match char? n with
    | some c => [c]
    | none => unicodeEscape n

def printText (t : Text) : List Char := '"' :: t.flatMap printPoint ++ ['"']

mutual
def print : Json → List Char
  | .null => "null".toList
  | .bool b => (if b then "true" else "false").toList
  | .int n => Text.decimal n
  | .decimal l => l.toList
  | .string t => printText t
  | .array [] => ['[', ']']
  | .array (j :: l) => '[' :: print j ++ printItems l
  | .object [] => ['{', '}']
  | .object ((t, j) :: l) => '{' :: printText t ++ ':' :: print j ++ printMembers l
  termination_by structural j => j
def printItems : List Json → List Char
  | [] => [']']
  | j :: l => ',' :: print j ++ printItems l
  termination_by structural l => l
def printMembers : List (Text × Json) → List Char
  | [] => ['}']
  | (t, j) :: l => ',' :: printText t ++ ':' :: print j ++ printMembers l
  termination_by structural l => l
end

def toString (j : Json) : String := .ofList j.print

example : (Json.obj [("a", .array [.int (-3), .str "x\"\n"])]).toString =
    "\x7b\"a\":[-3,\"x\\\"\\n\"]\x7d" := by decide

end Json

end ProtectionProvider
