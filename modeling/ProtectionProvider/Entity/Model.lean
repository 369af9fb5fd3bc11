import ProtectionProvider.Json.Basic
import ProtectionProvider.Schema

/-! # Models

What the API says of an entity: each attribute is there or absent. A model is read from an object,
or from an array that lists all its attributes in order, and written as an object that leaves out
what is absent.
-/

namespace ProtectionProvider

mutual
def Kind.Model : Kind → Type
  | .string => String
  | .number => Int64
  | .bool => Bool
  | .strings => List String
  | .object fs => fs.Model
  | .objects fs => List fs.Model
def Fields.Model : Fields → Type
  | .nil => Unit
  | .cons _ k fs => Option k.Model × fs.Model
end

/-! ## Writing -/

mutual
def Kind.encode : (k : Kind) → k.Model → Json
  | .string, s => .str s
  | .number, n => .int n.toInt
  | .bool, b => .bool b
  | .strings, l => .array (l.map .str)
  | .object fs, m => .object (fs.members m)
  | .objects fs, l => .array (l.map fun m => .object (fs.members m))
def Fields.members : (fs : Fields) → fs.Model → List (Json.Text × Json)
  | .nil, () => []
  | .cons a k fs, (v, m) =>
    (v.map fun x => (.ofString a.member, k.encode x)).toList ++ fs.members m
end

def Fields.encode (fs : Fields) (m : fs.Model) : Json := .object (fs.members m)

/-! ## Reading -/

def int64? (n : Int) : Option Int64 :=
  if Int64.minValue.toInt ≤ n ∧ n ≤ Int64.maxValue.toInt then some (Int64.ofInt n) else none

def string? : Json → Option String
  | .string t => t.toString?
  | _ => none

def nullable {α : Type} (read : Json → Option α) : Json → Option (Option α)
  | .null => some none
  | j => (read j).map some

/-- Reads the member `name`, which may be missing and must not be there twice. -/
def readMember {α : Type} (read : Json → Option α) (name : String)
    (members : List (String × Json)) : Option (Option α) :=
  match members.filter fun p => p.1 == name with
  | [] => some none
  | [(_, j)] => nullable read j
  | _ => none

def named? (members : List (Json.Text × Json)) : Option (List (String × Json)) :=
  members.mapM fun (name, j) => (Json.Text.toString? name).map fun s => (s, j)

def readRecord {α : Type} (object : List (String × Json) → Option α)
    (array : List Json → Option α) : Json → Option α
  | .object ms => (named? ms).bind object
  | .array items => array items
  | _ => none

mutual
def Kind.decode : (k : Kind) → Json → Option k.Model
  | .string, j => string? j
  | .number, .int n => int64? n
  | .bool, .bool b => some b
  | .strings, .array items => items.mapM string?
  | .object fs, j => readRecord fs.ofMembers fs.ofItems j
  | .objects fs, .array items => items.mapM (readRecord fs.ofMembers fs.ofItems)
  | _, _ => none
def Fields.ofMembers : (fs : Fields) → List (String × Json) → Option fs.Model
  | .nil, _ => some ()
  | .cons a k fs, ms => do
    let v ← readMember k.decode a.member ms
    let m ← fs.ofMembers ms
    return (v, m)
def Fields.ofItems : (fs : Fields) → List Json → Option fs.Model
  | .nil, [] => some ()
  | .cons _ k fs, j :: items => do
    let v ← nullable k.decode j
    let m ← fs.ofItems items
    return (v, m)
  | _, _ => none
end

def Fields.decode (fs : Fields) (j : Json) : Option fs.Model :=
  readRecord fs.ofMembers fs.ofItems j

/-! ## Places -/

namespace Fields.Model

def get : {fs : Fields} → {k : Kind} → Place fs k → fs.Model → Option k.Model
  | .cons _ _ _, _, .here, (v, _) => v
  | .cons _ _ _, _, .there p, (_, m) => get p m

def set : {fs : Fields} → {k : Kind} → Place fs k → Option k.Model → fs.Model → fs.Model
  | .cons _ _ _, _, .here, v, (_, m) => (v, m)
  | .cons _ _ _, _, .there p, v, (w, m) => (w, set p v m)

/-- Takes the attributes whose role satisfies `p` from the first model and the others from the
second. -/
def select (p : Role → Bool) : {fs : Fields} → fs.Model → fs.Model → fs.Model
  | .nil, (), () => ()
  | .cons a _ _, (v, m), (w, n) => (if p a.role then v else w, select p m n)

end Fields.Model

end ProtectionProvider
