import Mathlib.Data.List.Forall2
import ProtectionProvider.Proofs.Entity.Settled

/-!
# What is not known yet

A state is completed when values and nulls take the place of what is unknown in it, at any depth. Every
state can be completed in full, so that an attribute that has to be set is set and any other one that
was unknown is null (`Fields.completed_filled`, `Fields.known_filled`).
-/

namespace ProtectionProvider

/-! ## Completing -/

/-- What is known stays, but for what is completed within it, as `P` has it. -/
inductive Value.Completed {α : Type} (P : α → α → Prop) : Value α → Value α → Prop where
  | unknown (w : Value α) : Completed P .unknown w
  | null : Completed P .null .null
  | value {a b : α} (inside : P a b) : Completed P (.value a) (.value b)

mutual
def Kind.Completed : (k : Kind) → k.State → k.State → Prop
  | .string, (s : String), (t : String) => s = t
  | .number, (m : Int64), (n : Int64) => m = n
  | .bool, (b : Bool), (c : Bool) => b = c
  | .strings, (l : List (Value String)), (l' : List (Value String)) => List.Forall₂ (Value.Completed Eq) l l'
  | .object fs, s, t => fs.Completed s t
  | .objects fs, (l : List fs.State), (l' : List fs.State) => List.Forall₂ fs.Completed l l'
def Fields.Completed : (fs : Fields) → fs.State → fs.State → Prop
  | .nil, (), () => True
  | .cons _ k fs, (v, s), (w, t) => v.Completed k.Completed w ∧ fs.Completed s t
end

theorem Fields.Completed.get : ∀ {fs : Fields} {k : Kind} (p : Place fs k) {s t : fs.State}, fs.Completed s t →
    (s.get p).Completed k.Completed (t.get p)
  | .cons _ _ _, _, .here, (_, _), (_, _), h => h.1
  | .cons _ _ _, _, .there p, (_, _), (_, _), h => Fields.Completed.get p h.2

theorem Fields.Completed.set : ∀ {fs : Fields} {k : Kind} (p : Place fs k) {v w : Value k.State} {s t : fs.State},
    fs.Completed s t → v.Completed k.Completed w → fs.Completed (s.set p v) (t.set p w)
  | .cons _ _ _, _, .here, _, _, (_, _), (_, _), h, hv => ⟨hv, h.2⟩
  | .cons _ _ _, _, .there p, _, _, (_, _), (_, _), h, hv => ⟨h.1, Fields.Completed.set p h.2 hv⟩

theorem Fields.completed_unknown : ∀ {fs : Fields} (s : fs.State), fs.Completed (.unknown fs) s
  | .nil, () => trivial
  | .cons _ _ _, (v, s) => ⟨.unknown v, completed_unknown s⟩

/-! ## Completing in full -/

def Attribute.initial {α : Type} (a : Attribute) (x : α) : Value α := if a.role = .required then .value x else .null

mutual
def Kind.sample : (k : Kind) → k.State
  | .string => "-"
  | .number => (0 : Int64)
  | .bool => false
  | .strings => ([] : List (Value String))
  | .object fs => fs.sample
  | .objects fs => ([] : List fs.State)
def Fields.sample : (fs : Fields) → fs.State
  | .nil => ()
  | .cons a k fs => (a.initial k.sample, fs.sample)
end

def Value.filled {α : Type} (v initial : Value α) (f : α → α) : Value α :=
  match v with
  | .null => .null
  | .unknown => initial
  | .value a => .value (f a)

mutual
def Kind.filled : (k : Kind) → k.State → k.State
  | .string, s => s
  | .number, n => n
  | .bool, b => b
  | .strings, (l : List (Value String)) => l.map fun v => v.filled .null id
  | .object fs, s => fs.filled s
  | .objects fs, (l : List fs.State) => l.map fs.filled
def Fields.filled : (fs : Fields) → fs.State → fs.State
  | .nil, () => ()
  | .cons a k fs, (v, s) => (v.filled (a.initial k.sample) k.filled, fs.filled s)
end

theorem Fields.get_filled : ∀ {fs : Fields} {k : Kind} (p : Place fs k) (s : fs.State),
    (fs.filled s).get p = (s.get p).filled (p.entry.initial k.sample) k.filled
  | .cons _ _ _, _, .here, (_, _) => rfl
  | .cons _ _ _, _, .there p, (_, s) => get_filled p s

theorem Value.completed_filled {α : Type} {P : α → α → Prop} {f : α → α} (hf : ∀ a, P a (f a)) (v initial : Value α) :
    v.Completed P (v.filled initial f) := by
  cases v with
  | null => exact .null
  | unknown => exact .unknown initial
  | value a => exact .value (hf a)

theorem forall₂_map_self {α : Type} {P : α → α → Prop} {f : α → α} (hf : ∀ a, P a (f a)) (l : List α) :
    List.Forall₂ P l (l.map f) := by
  rw [List.forall₂_map_right_iff, List.forall₂_same]
  exact fun a _ => hf a

mutual
theorem Kind.completed_filled : ∀ (k : Kind) (s : k.State), k.Completed s (k.filled s)
  | .string, _ => rfl
  | .number, _ => rfl
  | .bool, _ => rfl
  | .strings, l => forall₂_map_self (fun v => v.completed_filled (fun _ => rfl) .null) l
  | .object fs, s => Fields.completed_filled fs s
  | .objects fs, (l : List fs.State) => forall₂_map_self (Fields.completed_filled fs) l
theorem Fields.completed_filled : ∀ (fs : Fields) (s : fs.State), fs.Completed s (fs.filled s)
  | .nil, () => trivial
  | .cons a k fs, (v, s) =>
    ⟨v.completed_filled (Kind.completed_filled k) (a.initial k.sample), Fields.completed_filled fs s⟩
end

/-! ## Nothing is unknown any more -/

theorem Attribute.settled_initial {α : Type} {P : α → Prop} (a : Attribute) {x : α} (hx : P x) :
    (a.initial x).Settled P := by
  unfold initial
  split
  · exact hx
  · trivial

mutual
theorem Kind.settled_sample : ∀ (q : Value String → Prop) (k : Kind), k.Settled q k.sample
  | _, .string => trivial
  | _, .number => trivial
  | _, .bool => trivial
  | _, .strings => fun _ hv => by cases hv
  | q, .object fs => Fields.settled_sample q fs
  | _, .objects _ => fun _ hs => by cases hs
theorem Fields.settled_sample : ∀ (q : Value String → Prop) (fs : Fields), fs.Settled q (fun _ => true) fs.sample
  | _, .nil => trivial
  | q, .cons a k fs => ⟨fun _ => a.settled_initial (Kind.settled_sample q k), Fields.settled_sample q fs⟩
end

mutual
theorem Kind.known_filled : ∀ (k : Kind) (s : k.State), k.Settled (· ≠ .unknown) (k.filled s)
  | .string, _ => trivial
  | .number, _ => trivial
  | .bool, _ => trivial
  | .strings, (l : List (Value String)) => fun v hv => by
    obtain ⟨w, -, rfl⟩ := List.mem_map.mp hv
    cases w <;> simp [Value.filled]
  | .object fs, s => Fields.known_filled fs s
  | .objects fs, (l : List fs.State) => fun s hs => by
    obtain ⟨t, -, rfl⟩ := List.mem_map.mp hs
    exact Fields.known_filled fs t
theorem Fields.known_filled : ∀ (fs : Fields) (s : fs.State), fs.Known (fun _ => true) (fs.filled s)
  | .nil, () => trivial
  | .cons a k fs, (v, s) => by
    refine ⟨fun _ => ?_, Fields.known_filled fs s⟩
    cases v with
    | null => trivial
    | unknown => exact a.settled_initial (Kind.settled_sample _ k)
    | value x => exact Kind.known_filled k x
end

end ProtectionProvider
