import ProtectionProvider.Value
import ProtectionProvider.Entity.Model

/-! # States

What is planned and stored of an entity: each attribute is a value, null, or not known yet.
-/

namespace ProtectionProvider

mutual
def Kind.State : Kind → Type
  | .string => String
  | .number => Int64
  | .bool => Bool
  | .strings => List (Value String)
  | .object fs => fs.State
  | .objects fs => List fs.State
def Fields.State : Fields → Type
  | .nil => Unit
  | .cons _ k fs => Value k.State × fs.State
end

mutual
def Kind.decEqState : (k : Kind) → DecidableEq k.State
  | .string => inferInstanceAs (DecidableEq String)
  | .number => inferInstanceAs (DecidableEq Int64)
  | .bool => inferInstanceAs (DecidableEq Bool)
  | .strings => inferInstanceAs (DecidableEq (List (Value String)))
  | .object fs => fs.decEqState
  | .objects fs => haveI := fs.decEqState; inferInstanceAs (DecidableEq (List fs.State))
def Fields.decEqState : (fs : Fields) → DecidableEq fs.State
  | .nil => inferInstanceAs (DecidableEq Unit)
  | .cons _ k fs =>
    haveI := k.decEqState
    haveI := fs.decEqState
    inferInstanceAs (DecidableEq (Value k.State × fs.State))
end

instance (k : Kind) : DecidableEq k.State := k.decEqState

instance (fs : Fields) : DecidableEq fs.State := fs.decEqState

/-! ## Models as states -/

mutual
def Kind.flatten : (k : Kind) → k.Model → k.State
  | .string, s => s
  | .number, n => n
  | .bool, b => b
  | .strings, l => l.map .value
  | .object fs, m => fs.flatten m
  | .objects fs, l => l.map fs.flatten
/-- The state of a model, null where the model is silent. -/
def Fields.flatten : (fs : Fields) → fs.Model → fs.State
  | .nil, () => ()
  | .cons _ k fs, (v, m) => (.ofOption (v.map k.flatten), fs.flatten m)
end

mutual
def Kind.expand : (k : Kind) → k.State → k.Model
  | .string, s => s
  | .number, n => n
  | .bool, b => b
  | .strings, l => l.filterMap Value.toOption
  | .object fs, s => fs.expand s
  | .objects fs, l => l.map fs.expand
/-- The model of a state, silent where the state is null or unknown. -/
def Fields.expand : (fs : Fields) → fs.State → fs.Model
  | .nil, () => ()
  | .cons _ k fs, (v, s) => (v.toOption.map k.expand, fs.expand s)
end

/-! ## Parts of a state -/

namespace Fields.State

def get : {fs : Fields} → {k : Kind} → Place fs k → fs.State → Value k.State
  | .cons _ _ _, _, .here, (v, _) => v
  | .cons _ _ _, _, .there p, (_, s) => get p s

def set : {fs : Fields} → {k : Kind} → Place fs k → Value k.State → fs.State → fs.State
  | .cons _ _ _, _, .here, v, (_, s) => (v, s)
  | .cons _ _ _, _, .there p, v, (w, s) => (w, set p v s)

def unknown : (fs : Fields) → fs.State
  | .nil => ()
  | .cons _ _ fs => (.unknown, unknown fs)

def select (p : Role → Bool) : {fs : Fields} → fs.State → fs.State → fs.State
  | .nil, (), () => ()
  | .cons a _ _, (v, s), (w, t) => (if p a.role then v else w, select p s t)

/-- The states have the same attributes of each role that satisfies `p`. -/
def Agree (p : Role → Bool) : {fs : Fields} → fs.State → fs.State → Prop
  | .nil, (), () => True
  | .cons a _ _, (v, s), (w, t) => (p a.role = true → v = w) ∧ Agree p s t

def decideAgree (p : Role → Bool) : {fs : Fields} → (s t : fs.State) → Decidable (Agree p s t)
  | .nil, (), () => .isTrue trivial
  | .cons a _ _, (v, s), (w, t) =>
    haveI := decideAgree p s t
    inferInstanceAs (Decidable ((p a.role = true → v = w) ∧ Agree p s t))

instance (p : Role → Bool) {fs : Fields} (s t : fs.State) : Decidable (Agree p s t) :=
  decideAgree p s t

end Fields.State

end ProtectionProvider
