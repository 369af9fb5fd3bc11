import ProtectionProvider.Text.Basic

/-! # Attribute tables

An entity is described once, by the table of its attributes. Its records, their JSON form and its
schema are all computed from that table.
-/

namespace ProtectionProvider

inductive Role where
  | required
  | optional
  | computed
  /-- The server does, anew after every change. -/
  | revision
  deriving DecidableEq, Repr

def Role.assigned : Role → Bool
  | .required | .optional => false
  | .computed | .revision => true

structure Attribute where
  name : String
  role : Role
  description : String
  member : String := Text.camelCase name
  sensitive : Bool := false
  deriving DecidableEq, Repr

mutual
inductive Kind where
  | string
  /-- A 64-bit signed integer. -/
  | number
  | bool
  | strings
  | object (fields : Fields)
  | objects (fields : Fields)
inductive Fields where
  | nil
  | cons (a : Attribute) (k : Kind) (rest : Fields)
end

namespace Fields

def ofList : List (Attribute × Kind) → Fields
  | [] => nil
  | (a, k) :: l => cons a k (ofList l)

def toList : Fields → List (Attribute × Kind)
  | nil => []
  | cons a k fs => (a, k) :: fs.toList

def attributes (fs : Fields) : List Attribute := fs.toList.map Prod.fst

def append : Fields → Fields → Fields
  | nil, gs => gs
  | cons a k fs, gs => cons a k (fs.append gs)

instance : Append Fields := ⟨append⟩

def find? (fs : Fields) (name : String) : Option (Attribute × Kind) :=
  fs.toList.find? fun p => p.1.name == name

/-- The table of the objects found by following nested attributes from the top. -/
def follow? : Fields → List String → Option Fields
  | fs, [] => some fs
  | fs, name :: path =>
    match fs.find? name with
    | some (_, .object gs) | some (_, .objects gs) => gs.follow? path
    | _ => none

@[simp] theorem toList_ofList (l : List (Attribute × Kind)) : (ofList l).toList = l := by
  induction l with
  | nil => rfl
  | cons p l ih => obtain ⟨a, k⟩ := p; simp [ofList, toList, ih]

@[simp] theorem toList_append (fs gs : Fields) : (fs ++ gs).toList = fs.toList ++ gs.toList := by
  have h : ∀ fs : Fields, (fs.append gs).toList = fs.toList ++ gs.toList := by
    intro fs
    induction fs using Fields.rec (motive_1 := fun _ => True) with
    | nil => rfl
    | cons a k fs _ ih => simp [append, toList, ih]
    | _ => trivial
  exact h fs

end Fields

/-! ## Tables read from the API -/

/-- The attribute as the server sets it, whoever may set it elsewhere. -/
def Attribute.output (a : Attribute) : Attribute := { a with role := .computed }

mutual
def Kind.output : Kind → Kind
  | .object fs => .object fs.output
  | .objects fs => .objects fs.output
  | k => k
def Fields.output : Fields → Fields
  | .nil => .nil
  | .cons a k fs => .cons a.output k.output fs.output
end

structure Schema where
  description : String
  table : Fields
  version : Nat := 1
  blockVersion : Nat := 1

/-! ## Writing tables -/

namespace Attribute

def text (name : String) (role : Role) (description : String) : Attribute × Kind :=
  ({ name, role, description }, .string)

def number (name : String) (role : Role) (description : String) : Attribute × Kind :=
  ({ name, role, description }, .number)

def flag (name : String) (role : Role) (description : String) : Attribute × Kind :=
  ({ name, role, description }, .bool)

def texts (name : String) (role : Role) (description : String) : Attribute × Kind :=
  ({ name, role, description }, .strings)

def nested (name : String) (role : Role) (fields : Fields) (description : String) :
    Attribute × Kind :=
  ({ name, role, description }, .object fields)

def nestedList (name : String) (role : Role) (fields : Fields) (description : String) :
    Attribute × Kind :=
  ({ name, role, description }, .objects fields)

end Attribute

/-! ## Places -/

/-- The place of an attribute of kind `k` in a table. -/
inductive Place : Fields → Kind → Type where
  | here {a : Attribute} {k : Kind} {fs : Fields} : Place (.cons a k fs) k
  | there {a : Attribute} {j k : Kind} {fs : Fields} : Place fs k → Place (.cons a j fs) k

def Place.entry : {fs : Fields} → {k : Kind} → Place fs k → Attribute
  | .cons a _ _, _, .here => a
  | _, _, .there p => p.entry

end ProtectionProvider
