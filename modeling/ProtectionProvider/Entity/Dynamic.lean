import ProtectionProvider.Entity.State

/-! # States without their tables

The form in which states are exchanged. A state is written with all its attributes, and read only
if each is there and holds what its table says.
-/

namespace ProtectionProvider

inductive Dynamic where
  | null
  | unknown
  | bool (b : Bool)
  | int (n : Int)
  /-- A number that is not written as an integer. -/
  | decimal (literal : String)
  | string (s : String)
  | list (items : List Dynamic)
  | object (attributes : List (String × Dynamic))
  deriving Inhabited

/-! ## Writing -/

namespace Dynamic

def ofValue {α : Type} (write : α → Dynamic) : Value α → Dynamic
  | .null => null
  | .unknown => unknown
  | .value a => write a

end Dynamic

mutual
def Kind.toDynamic : (k : Kind) → k.State → Dynamic
  | .string, s => .string s
  | .number, n => .int n.toInt
  | .bool, b => .bool b
  | .strings, l => .list (l.map (.ofValue .string))
  | .object fs, s => .object (fs.toDynamics s)
  | .objects fs, l => .list (l.map fun s => .object (fs.toDynamics s))
def Fields.toDynamics : (fs : Fields) → fs.State → List (String × Dynamic)
  | .nil, () => []
  | .cons a k fs, (v, s) => (a.name, .ofValue k.toDynamic v) :: fs.toDynamics s
end

def Fields.toDynamic (fs : Fields) (s : fs.State) : Dynamic := .object (fs.toDynamics s)

/-! ## Reading -/

namespace Dynamic

def toValue? {α : Type} (read : Dynamic → Option α) : Dynamic → Option (Value α)
  | null => some .null
  | unknown => some .unknown
  | d => (read d).map .value

def string? : Dynamic → Option String
  | string s => some s
  | _ => none

def object? : Dynamic → Option (List (String × Dynamic))
  | object l => some l
  | _ => none

def lookup? (name : String) (l : List (String × Dynamic)) : Option Dynamic :=
  (l.filter fun p => p.1 == name).getLast?.map Prod.snd

end Dynamic

mutual
def Kind.ofDynamic? : (k : Kind) → Dynamic → Option k.State
  | .string, d => d.string?
  | .number, .int n => int64? n
  | .bool, .bool b => some b
  | .strings, .list l => l.mapM (Dynamic.toValue? Dynamic.string?)
  | .object fs, .object l => fs.ofDynamics? l
  | .objects fs, .list l => l.mapM fun d => d.object?.bind fs.ofDynamics?
  | _, _ => none
def Fields.ofDynamics? : (fs : Fields) → List (String × Dynamic) → Option fs.State
  | .nil, _ => some ()
  | .cons a k fs, l => do
    let d ← Dynamic.lookup? a.name l
    let v ← d.toValue? k.ofDynamic?
    let s ← fs.ofDynamics? l
    return (v, s)
end

def Fields.ofDynamic? (fs : Fields) (d : Dynamic) : Option fs.State :=
  d.object?.bind fs.ofDynamics?

end ProtectionProvider
