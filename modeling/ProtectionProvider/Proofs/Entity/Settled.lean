import ProtectionProvider.Proofs.Entity.Parts

/-!
# Settled states

A state is settled if nothing in it is unknown at any depth. Its lists of strings have elements of
their own, for which each use says what they may be: any that are known, or only those that are
there. In the second case the state is that of a model (`Fields.flatten_expand`).
-/

namespace ProtectionProvider

def Value.Settled {α : Type} (P : α → Prop) : Value α → Prop
  | .null => True
  | .unknown => False
  | .value a => P a

mutual
/-- Nothing is unknown at any depth, and the elements of lists of strings satisfy `q`. -/
def Kind.Settled (q : Value String → Prop) : (k : Kind) → k.State → Prop
  | .strings, (l : List (Value String)) => ∀ v ∈ l, q v
  | .object fs, s => fs.Settled q (fun _ => true) s
  | .objects fs, (l : List fs.State) => ∀ s ∈ l, fs.Settled q (fun _ => true) s
  | .string, _ | .number, _ | .bool, _ => True
/-- The attributes whose role satisfies `r` are settled. -/
def Fields.Settled (q : Value String → Prop) : (fs : Fields) → (Role → Bool) → fs.State → Prop
  | .nil, _, () => True
  | .cons a k fs, r, (v, s) => (r a.role = true → v.Settled (k.Settled q)) ∧ fs.Settled q r s
end

instance {α : Type} (P : α → Prop) [DecidablePred P] : DecidablePred (Value.Settled P)
  | .null => .isTrue trivial
  | .unknown => .isFalse id
  | .value a => inferInstanceAs (Decidable (P a))

section
variable (q : Value String → Prop) [DecidablePred q]

mutual
def Kind.decideSettled : (k : Kind) → (s : k.State) → Decidable (k.Settled q s)
  | .strings, (l : List (Value String)) => inferInstanceAs (Decidable (∀ v ∈ l, q v))
  | .object fs, s => fs.decideSettled _ s
  | .objects fs, (l : List fs.State) =>
    haveI := fs.decideSettled (fun _ => true)
    inferInstanceAs (Decidable (∀ s ∈ l, fs.Settled q (fun _ => true) s))
  | .string, _ | .number, _ | .bool, _ => .isTrue trivial
def Fields.decideSettled : (fs : Fields) → (r : Role → Bool) → (s : fs.State) → Decidable (fs.Settled q r s)
  | .nil, _, () => .isTrue trivial
  | .cons a k fs, r, (v, s) =>
    haveI : DecidablePred (k.Settled q) := k.decideSettled
    haveI := fs.decideSettled r s
    inferInstanceAs (Decidable ((r a.role = true → v.Settled (k.Settled q)) ∧ fs.Settled q r s))
end

instance (fs : Fields) (r : Role → Bool) (s : fs.State) : Decidable (fs.Settled q r s) :=
  fs.decideSettled q r s

end

def Value.IsValue {α : Type} (v : Value α) : Prop := ∃ a, v = .value a

instance {α : Type} : DecidablePred (Value.IsValue (α := α))
  | .null | .unknown => .isFalse (by rintro ⟨_, h⟩; cases h)
  | .value a => .isTrue ⟨a, rfl⟩

/-- No unknown at any depth. -/
abbrev Fields.Known (fs : Fields) (r : Role → Bool) (s : fs.State) : Prop := fs.Settled (· ≠ .unknown) r s

abbrev Fields.Clean (fs : Fields) (r : Role → Bool) (s : fs.State) : Prop := fs.Settled Value.IsValue r s

section
variable {q : Value String → Prop} {r : Role → Bool}

theorem Fields.Settled.of_agree : ∀ {fs : Fields} {s t : fs.State}, State.Agree r s t → fs.Settled q r s →
    fs.Settled q r t
  | .nil, (), (), _, _ => trivial
  | .cons _ _ _, (_, _), (_, _), h, i => ⟨fun hr => h.1 hr ▸ i.1 hr, i.2.of_agree h.2⟩

theorem Fields.Settled.set : ∀ {fs : Fields} {k : Kind} (p : Place fs k) {v : Value k.State} {s : fs.State},
    fs.Settled q r s → v.Settled (k.Settled q) → fs.Settled q r (s.set p v)
  | .cons _ _ _, _, .here, _, (_, _), h, hv => ⟨fun _ => hv, h.2⟩
  | .cons _ _ _, _, .there p, _, (_, _), h, hv => ⟨h.1, Fields.Settled.set p h.2 hv⟩

theorem Fields.Settled.get : ∀ {fs : Fields} {k : Kind} (p : Place fs k) {s : fs.State}, fs.Settled q r s →
    r p.entry.role = true → (s.get p).Settled (k.Settled q)
  | .cons _ _ _, _, .here, (_, _), h, hp => h.1 hp
  | .cons _ _ _, _, .there p, (_, _), h, hp => Fields.Settled.get p h.2 hp

theorem Fields.Settled.select : ∀ {fs : Fields} {s t : fs.State}, fs.Settled q r s →
    fs.Settled q (fun x => !r x) t → fs.Settled q (fun _ => true) (.select r s t)
  | .nil, (), (), _, _ => trivial
  | .cons a k fs, (v, s), (w, t), h, i => by
    refine ⟨fun _ => ?_, h.2.select i.2⟩
    show Value.Settled (k.Settled q) (if r a.role then v else w)
    cases hr : r a.role with
    | true => exact h.1 hr
    | false => exact i.1 (by simp [hr])

end

/-! ## Settled states and models -/

mutual
theorem Kind.settled_flatten {q : Value String → Prop} (hq : ∀ s, q (.value s)) :
    ∀ (k : Kind) (m : k.Model), k.Settled q (k.flatten m)
  | .string, _ => trivial
  | .number, _ => trivial
  | .bool, _ => trivial
  | .strings, (l : List String) => fun v hv => by
    obtain ⟨s, -, rfl⟩ := List.mem_map.mp hv
    exact hq s
  | .object fs, m => Fields.settled_flatten hq fs _ m
  | .objects fs, (l : List fs.Model) => fun s hs => by
    obtain ⟨m, -, rfl⟩ := List.mem_map.mp hs
    exact Fields.settled_flatten hq fs _ m
theorem Fields.settled_flatten {q : Value String → Prop} (hq : ∀ s, q (.value s)) :
    ∀ (fs : Fields) (r : Role → Bool) (m : fs.Model), fs.Settled q r (fs.flatten m)
  | .nil, _, () => trivial
  | .cons _ k fs, r, (v, m) => by
    refine ⟨fun _ => ?_, Fields.settled_flatten hq fs r m⟩
    cases v with
    | none => trivial
    | some x => exact Kind.settled_flatten hq k x
end

mutual
theorem Kind.flatten_expand : ∀ (k : Kind) (s : k.State), k.Settled Value.IsValue s → k.flatten (k.expand s) = s
  | .string, _, _ => rfl
  | .number, _, _ => rfl
  | .bool, _, _ => rfl
  | .strings, (l : List (Value String)), h => by
    show (l.filterMap Value.toOption).map Value.value = l
    induction l with
    | nil => rfl
    | cons v l ih =>
      obtain ⟨s, rfl⟩ := h v (by simp)
      exact congrArg (Value.value s :: ·) (ih fun w hw => h w (by simp [hw]))
  | .object fs, s, h => Fields.State.eq_of_agree (Fields.flatten_expand fs s h)
  | .objects fs, (l : List fs.State), h => by
    show (l.map fs.expand).map fs.flatten = l
    rw [List.map_map]
    exact (List.map_congr_left fun s hs => Fields.State.eq_of_agree (Fields.flatten_expand fs s (h s hs))).trans
      (List.map_id l)
/-- A settled state stands for a model, and is the state of that model. -/
theorem Fields.flatten_expand : ∀ (fs : Fields) {r : Role → Bool} (s : fs.State), fs.Clean r s →
    Fields.State.Agree r (fs.flatten (fs.expand s)) s
  | .nil, _, (), _ => trivial
  | .cons _ k fs, _, (v, s), h => by
    refine ⟨fun hr => ?_, Fields.flatten_expand fs s h.2⟩
    have hv := h.1 hr
    cases v with
    | null => rfl
    | unknown => exact hv.elim
    | value x => exact congrArg Value.value (Kind.flatten_expand k x hv)
end

end ProtectionProvider
