import ProtectionProvider.Entity.State

/-!
# Parts of models and states

How reading and writing one attribute go together with the choice of attributes by their role, and
that both commute with turning models into states and back.
-/

namespace ProtectionProvider

/-! ## Parts of a model -/

namespace Fields.Model

theorem get_set_self : ∀ {fs : Fields} {k : Kind} (p : Place fs k) (v : Option k.Model) (m : fs.Model),
    (m.set p v).get p = v
  | .cons _ _ _, _, .here, _, (_, _) => rfl
  | .cons _ _ _, _, .there p, v, (_, m) => get_set_self p v m

theorem get_set_of_ne : ∀ {fs : Fields} {j k : Kind} (p : Place fs j) (q : Place fs k) (v : Option k.Model)
    (m : fs.Model), p.entry ≠ q.entry → (m.set q v).get p = m.get p
  | .cons _ _ _, _, _, .here, .here, _, (_, _), h => absurd rfl h
  | .cons _ _ _, _, _, .here, .there _, _, (_, _), _ => rfl
  | .cons _ _ _, _, _, .there _, .here, _, (_, _), _ => rfl
  | .cons _ _ _, _, _, .there p, .there q, v, (_, m), h => get_set_of_ne p q v m h

theorem get_select (r : Role → Bool) : ∀ {fs : Fields} {k : Kind} (p : Place fs k) (m n : fs.Model),
    (select r m n).get p = if r p.entry.role then m.get p else n.get p
  | .cons _ _ _, _, .here, (_, _), (_, _) => rfl
  | .cons _ _ _, _, .there p, (_, m), (_, n) => get_select r p m n

end Fields.Model

/-! ## Parts of a state -/

namespace Fields.State

theorem get_set_self : ∀ {fs : Fields} {k : Kind} (p : Place fs k) (v : Value k.State) (s : fs.State),
    (s.set p v).get p = v
  | .cons _ _ _, _, .here, _, (_, _) => rfl
  | .cons _ _ _, _, .there p, v, (_, s) => get_set_self p v s

theorem get_set_of_ne : ∀ {fs : Fields} {j k : Kind} (p : Place fs j) (q : Place fs k) (v : Value k.State)
    (s : fs.State), p.entry ≠ q.entry → (s.set q v).get p = s.get p
  | .cons _ _ _, _, _, .here, .here, _, (_, _), h => absurd rfl h
  | .cons _ _ _, _, _, .here, .there _, _, (_, _), _ => rfl
  | .cons _ _ _, _, _, .there _, .here, _, (_, _), _ => rfl
  | .cons _ _ _, _, _, .there p, .there q, v, (_, s), h => get_set_of_ne p q v s h

theorem set_get_self : ∀ {fs : Fields} {k : Kind} (p : Place fs k) (s : fs.State), s.set p (s.get p) = s
  | .cons _ _ _, _, .here, (_, _) => rfl
  | .cons _ _ _, _, .there p, (v, s) => congrArg (Prod.mk v) (set_get_self p s)

theorem set_orIfNull_self {fs : Fields} {k : Kind} {p : Place fs k} {s : fs.State} {x : k.State}
    (h : s.get p = .value x) (v : Value k.State) : s.set p ((s.get p).orIfNull v) = s := by
  have hv : (s.get p).orIfNull v = s.get p := by
    rw [h]
    rfl
  rw [hv]
  exact set_get_self p s

theorem get_unknown : ∀ {fs : Fields} {k : Kind} (p : Place fs k), (unknown fs).get p = .unknown
  | .cons _ _ _, _, .here => rfl
  | .cons _ _ _, _, .there p => get_unknown p

theorem get_select (r : Role → Bool) : ∀ {fs : Fields} {k : Kind} (p : Place fs k) (s t : fs.State),
    (select r s t).get p = if r p.entry.role then s.get p else t.get p
  | .cons _ _ _, _, .here, (_, _), (_, _) => rfl
  | .cons _ _ _, _, .there p, (_, s), (_, t) => get_select r p s t

/-! ## Agreement -/

variable (r : Role → Bool)

theorem Agree.refl : ∀ {fs : Fields} (s : fs.State), Agree r s s
  | .nil, () => trivial
  | .cons _ _ _, (_, s) => ⟨fun _ => rfl, Agree.refl s⟩

variable {r}

theorem Agree.symm : ∀ {fs : Fields} {s t : fs.State}, Agree r s t → Agree r t s
  | .nil, (), (), _ => trivial
  | .cons _ _ _, (_, _), (_, _), h => ⟨fun hr => (h.1 hr).symm, h.2.symm⟩

theorem Agree.trans : ∀ {fs : Fields} {s t u : fs.State}, Agree r s t → Agree r t u → Agree r s u
  | .nil, (), (), (), _, _ => trivial
  | .cons _ _ _, (_, _), (_, _), (_, _), h, i => ⟨fun hr => (h.1 hr).trans (i.1 hr), h.2.trans i.2⟩

theorem Agree.mono {r' : Role → Bool} (hr : ∀ x, r' x = true → r x = true) :
    ∀ {fs : Fields} {s t : fs.State}, Agree r s t → Agree r' s t
  | .nil, (), (), _ => trivial
  | .cons a _ _, (_, _), (_, _), h => ⟨fun h' => h.1 (hr a.role h'), h.2.mono hr⟩

theorem Agree.get : ∀ {fs : Fields} {k : Kind} (p : Place fs k) {s t : fs.State}, Agree r s t →
    r p.entry.role = true → s.get p = t.get p
  | .cons _ _ _, _, .here, (_, _), (_, _), h, hr => h.1 hr
  | .cons _ _ _, _, .there p, (_, _), (_, _), h, hr => Agree.get p h.2 hr

theorem eq_of_agree : ∀ {fs : Fields} {s t : fs.State}, Agree (fun _ => true) s t → s = t
  | .nil, (), (), _ => rfl
  | .cons _ _ _, (_, _), (_, _), h => Prod.ext (h.1 rfl) (eq_of_agree h.2)

theorem agree_select_left : ∀ {fs : Fields} (s t : fs.State), Agree r (select r s t) s
  | .nil, (), () => trivial
  | .cons _ _ _, (_, s), (_, t) => ⟨fun hr => if_pos hr, agree_select_left s t⟩

theorem agree_select_right : ∀ {fs : Fields} (s t : fs.State), Agree (fun x => !r x) (select r s t) t
  | .nil, (), () => trivial
  | .cons _ _ _, (_, s), (_, t) => ⟨fun hr => if_neg (by simpa using hr), agree_select_right s t⟩

theorem agree_set : ∀ {fs : Fields} {k : Kind} (p : Place fs k) (v : Value k.State) (s : fs.State),
    r p.entry.role = false → Agree r (s.set p v) s
  | .cons _ _ _, _, .here, _, (_, s), h => ⟨fun hr => absurd (h.symm.trans hr) (by decide), .refl r s⟩
  | .cons _ _ _, _, .there p, v, (_, s), h => ⟨fun _ => rfl, agree_set p v s h⟩

theorem Agree.set : ∀ {fs : Fields} {k : Kind} (p : Place fs k) (v : Value k.State) {s t : fs.State}, Agree r s t →
    Agree r (s.set p v) (t.set p v)
  | .cons _ _ _, _, .here, _, (_, _), (_, _), h => ⟨fun _ => rfl, h.2⟩
  | .cons _ _ _, _, .there p, v, (_, _), (_, _), h => ⟨h.1, Agree.set p v h.2⟩

theorem select_congr : ∀ {fs : Fields} {s s' t t' : fs.State}, Agree r s s' → Agree (fun x => !r x) t t' →
    select r s t = select r s' t'
  | .nil, (), (), (), (), _, _ => rfl
  | .cons a _ _, (v, _), (v', _), (w, _), (w', _), h, i => by
    refine Prod.ext ?_ (select_congr h.2 i.2)
    show (if r a.role then v else w) = if r a.role then v' else w'
    cases hr : r a.role with
    | true => exact h.1 hr
    | false => exact i.1 (by simp [hr])

theorem select_self : ∀ {fs : Fields} (s : fs.State), select r s s = s
  | .nil, () => rfl
  | .cons _ _ _, (_, s) => Prod.ext (ite_self _) (select_self s)

/-! ## Plans that are kept -/

/-- What the plan says of the attributes whose role satisfies `r` holds in the state, where it says
anything but unknown. -/
def Keeps (r : Role → Bool) : {fs : Fields} → fs.State → fs.State → Prop
  | .nil, (), () => True
  | .cons a _ _, (v, plan), (w, s) => (r a.role = true → v ≠ .unknown → w = v) ∧ Keeps r plan s

theorem Agree.keeps : ∀ {fs : Fields} {s plan : fs.State}, Agree r s plan → Keeps r plan s
  | .nil, (), (), _ => trivial
  | .cons _ _ _, (_, _), (_, _), h => ⟨fun hr _ => h.1 hr, h.2.keeps⟩

theorem keeps_of_unknown : ∀ {fs : Fields} {plan : fs.State} (s : fs.State), Agree r plan (unknown fs) → Keeps r plan s
  | .nil, (), (), _ => trivial
  | .cons _ _ _, (_, _), (_, s), h => ⟨fun hr hv => absurd (h.1 hr) hv, keeps_of_unknown s h.2⟩

theorem Keeps.of_agree : ∀ {fs : Fields} {plan s t : fs.State}, Agree r s t → Keeps r plan s → Keeps r plan t
  | .nil, (), (), (), _, _ => trivial
  | .cons _ _ _, (_, _), (_, _), (_, _), h, i => ⟨fun hr hv => (h.1 hr).symm.trans (i.1 hr hv), i.2.of_agree h.2⟩

theorem Keeps.select_unknown (q : Role → Bool) : ∀ {fs : Fields} {plan s : fs.State}, Keeps r plan s →
    Keeps r (select q (unknown fs) plan) s
  | .nil, (), (), _ => trivial
  | .cons a _ _, (v, _), (w, _), h => by
    refine ⟨?_, h.2.select_unknown q⟩
    show r a.role = true → (if q a.role then Value.unknown else v) ≠ .unknown →
      w = if q a.role then Value.unknown else v
    intro hr
    split
    · intro hv
      exact absurd rfl hv
    · exact h.1 hr

theorem keeps_iff_get : ∀ {fs : Fields} {plan s : fs.State}, Keeps r plan s ↔
    ∀ {k : Kind} (p : Place fs k), r p.entry.role = true → plan.get p ≠ .unknown → s.get p = plan.get p
  | .nil, (), () => ⟨fun _ _ p => (by cases p), fun _ => trivial⟩
  | .cons _ _ fs, (_, plan), (_, s) => by
    have ih : Keeps r plan s ↔
        ∀ {k : Kind} (p : Place fs k), r p.entry.role = true → plan.get p ≠ .unknown → s.get p = plan.get p :=
      keeps_iff_get
    constructor
    · intro h k p hr hv
      cases p with
      | here => exact h.1 hr hv
      | there p => exact ih.mp h.2 p hr hv
    · intro h
      exact ⟨fun hr hv => h .here hr hv, ih.mpr fun p hr hv => h (.there p) hr hv⟩

theorem keeps_all_iff (r : Role → Bool) : ∀ {fs : Fields} {plan s : fs.State},
    Keeps (fun _ => true) plan s ↔ Keeps r plan s ∧ Keeps (fun x => !r x) plan s
  | .nil, (), () => ⟨fun _ => ⟨trivial, trivial⟩, fun _ => trivial⟩
  | .cons a _ _, (_, plan), (_, s) => by
    have ih : Keeps (fun _ => true) plan s ↔ Keeps r plan s ∧ Keeps (fun x => !r x) plan s := keeps_all_iff r
    constructor
    · intro h
      have hs := ih.mp h.2
      exact ⟨⟨fun _ => h.1 rfl, hs.1⟩, ⟨fun _ => h.1 rfl, hs.2⟩⟩
    · rintro ⟨h, i⟩
      refine ⟨fun _ => ?_, ih.mpr ⟨h.2, i.2⟩⟩
      cases hr : r a.role with
      | true => exact h.1 hr
      | false => exact i.1 (by simp [hr])

end Fields.State

/-! ## Models as states -/

mutual
theorem Kind.expand_flatten : ∀ (k : Kind) (m : k.Model), k.expand (k.flatten m) = m
  | .string, _ => rfl
  | .number, _ => rfl
  | .bool, _ => rfl
  | .strings, (l : List String) => by
    show (l.map Value.value).filterMap Value.toOption = l
    rw [List.filterMap_map]
    exact List.filterMap_some
  | .object fs, m => Fields.expand_flatten fs m
  | .objects fs, (l : List fs.Model) => by
    show (l.map fs.flatten).map fs.expand = l
    rw [List.map_map]
    exact List.map_id'' (Fields.expand_flatten fs) l
theorem Fields.expand_flatten : ∀ (fs : Fields) (m : fs.Model), fs.expand (fs.flatten m) = m
  | .nil, () => rfl
  | .cons _ k fs, (v, m) => by
    refine Prod.ext ?_ (Fields.expand_flatten fs m)
    cases v with
    | none => rfl
    | some x => exact congrArg some (Kind.expand_flatten k x)
end

theorem Fields.get_flatten : ∀ {fs : Fields} {k : Kind} (p : Place fs k) (m : fs.Model),
    (fs.flatten m).get p = .ofOption ((m.get p).map k.flatten)
  | .cons _ _ _, _, .here, (_, _) => rfl
  | .cons _ _ _, _, .there p, (_, m) => get_flatten p m

theorem Fields.get_flatten_of_some {fs : Fields} {k : Kind} {p : Place fs k} {m : fs.Model} {x : k.Model}
    (h : m.get p = some x) : (fs.flatten m).get p = .value (k.flatten x) := by
  rw [get_flatten, h]
  rfl

theorem Fields.get_expand : ∀ {fs : Fields} {k : Kind} (p : Place fs k) (s : fs.State),
    (fs.expand s).get p = (s.get p).toOption.map k.expand
  | .cons _ _ _, _, .here, (_, _) => rfl
  | .cons _ _ _, _, .there p, (_, s) => get_expand p s

theorem Fields.expand_select (r : Role → Bool) : ∀ (fs : Fields) (s t : fs.State),
    fs.expand (.select r s t) = .select r (fs.expand s) (fs.expand t)
  | .nil, (), () => rfl
  | .cons a _ fs, (_, s), (_, t) => by
    refine Prod.ext ?_ (expand_select r fs s t)
    cases hr : r a.role <;> simp [Fields.expand, Model.select, State.select, hr]

theorem Fields.flatten_select (r : Role → Bool) : ∀ (fs : Fields) (m n : fs.Model),
    fs.flatten (.select r m n) = .select r (fs.flatten m) (fs.flatten n)
  | .nil, (), () => rfl
  | .cons a _ fs, (_, m), (_, n) => by
    refine Prod.ext ?_ (flatten_select r fs m n)
    cases hr : r a.role <;> simp [Fields.flatten, Model.select, State.select, hr]

end ProtectionProvider
