/-! # Planned values

A value in a configuration, a plan or a state is there, is null, or is not known yet.
-/

namespace ProtectionProvider

inductive Value (α : Type) where
  | null
  /-- Known only after the plan has been applied. -/
  | unknown
  | value (a : α)
  deriving DecidableEq, Repr

namespace Value

variable {α β : Type}

def ofOption : Option α → Value α
  | none => .null
  | some a => .value a

def toOption : Value α → Option α
  | .value a => some a
  | _ => none

def map (f : α → β) : Value α → Value β
  | .null => .null
  | .unknown => .unknown
  | .value a => .value (f a)

def orIfNull : Value α → Value α → Value α
  | .null, d => d
  | v, _ => v

@[simp] theorem toOption_ofOption (o : Option α) : (ofOption o).toOption = o := by
  cases o <;> rfl

end Value

def Value.text (v : Value String) : String := v.toOption.getD ""

end ProtectionProvider
