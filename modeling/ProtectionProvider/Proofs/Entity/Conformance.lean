import ProtectionProvider.Entity.Dynamic
import ProtectionProvider.Proofs.Entity.Naming

/-!
# States as their tables describe them

A table describes what is exchanged of a state if that has exactly the attributes of the table, each
of them null or of its kind, at every depth. The state of a model is described by its table, as the
user fills it in and as the server does (`describes_toDynamic`, `describes_output`).
-/

namespace ProtectionProvider

/-- There are the attributes of the table and no others, each of them once. -/
def Fields.Keys (fs : Fields) (l : List (String × Dynamic)) : Prop :=
  (l.map Prod.fst).Nodup ∧ ∀ key, key ∈ l.map Prod.fst ↔ key ∈ fs.attributes.map Attribute.name

mutual
def Kind.Describes : Kind → Dynamic → Prop
  | .string, d => ∃ s, d = .string s
  | .number, d => ∃ n : Int64, d = .int n.toInt
  | .bool, d => ∃ b, d = .bool b
  | .strings, d => ∃ l, d = .list l ∧ ∀ i ∈ l, ∃ s, i = .string s
  | .object fs, d => ∃ l, d = .object l ∧ fs.Keys l ∧ fs.Describes (fun _ => true) l
  | .objects fs, d => ∃ l, d = .list l ∧ ∀ i ∈ l, ∃ as, i = .object as ∧ fs.Keys as ∧ fs.Describes (fun _ => true) as
/-- The attributes whose role satisfies `r` are null or of their kind. -/
def Fields.Describes : Fields → (Role → Bool) → List (String × Dynamic) → Prop
  | .nil, _, _ => True
  | .cons a k fs, r, l =>
    (r a.role = true → ∃ d, (a.name, d) ∈ l ∧ (d = .null ∨ k.Describes d)) ∧ fs.Describes r l
end

/-! ## Tables that are put together -/

theorem Fields.names_append (fs gs : Fields) : (fs ++ gs).attributes.map Attribute.name =
    fs.attributes.map Attribute.name ++ gs.attributes.map Attribute.name := by
  simp [attributes]

theorem Fields.describes_append {r : Role → Bool} {l : List (String × Dynamic)} {gs : Fields}
    (hg : gs.Describes r l) : ∀ {fs : Fields}, fs.Describes r l → (fs ++ gs).Describes r l
  | .nil, _ => hg
  | .cons _ _ _, h => ⟨h.1, describes_append hg h.2⟩

theorem Fields.describes_of_none {r : Role → Bool} (l : List (String × Dynamic)) : ∀ {fs : Fields},
    (∀ a ∈ fs.attributes, r a.role = false) → fs.Describes r l
  | .nil, _ => trivial
  | .cons a _ _, h => by
    refine ⟨fun hr => ?_, describes_of_none l fun b hb => h b (List.mem_cons_of_mem _ hb)⟩
    rw [h a List.mem_cons_self] at hr
    cases hr

/-! ## Tables as the server fills them in -/

theorem Fields.names_output : ∀ fs : Fields,
    fs.output.attributes.map Attribute.name = fs.attributes.map Attribute.name
  | .nil => rfl
  | .cons a _ fs => congrArg (a.name :: ·) (names_output fs)

theorem Fields.keys_output {fs : Fields} {l : List (String × Dynamic)} : fs.output.Keys l ↔ fs.Keys l := by
  unfold Keys
  rw [names_output]

mutual
theorem Kind.describes_output : ∀ {k : Kind} {d : Dynamic}, k.Describes d → k.output.Describes d
  | .string, _, h | .number, _, h | .bool, _, h | .strings, _, h => h
  | .object _, _, ⟨l, hd, hk, h⟩ => ⟨l, hd, Fields.keys_output.mpr hk, Fields.describes_output _ h⟩
  | .objects _, _, ⟨l, hd, h⟩ => by
    refine ⟨l, hd, fun i hi => ?_⟩
    obtain ⟨as, ha, hk, h⟩ := h i hi
    exact ⟨as, ha, Fields.keys_output.mpr hk, Fields.describes_output _ h⟩
theorem Fields.describes_output (r : Role → Bool) : ∀ {fs : Fields} {l : List (String × Dynamic)},
    fs.Describes (fun _ => true) l → fs.output.Describes r l
  | .nil, _, _ => trivial
  | .cons _ _ _, _, h => by
    refine ⟨fun _ => ?_, Fields.describes_output r h.2⟩
    obtain ⟨d, hm, hd⟩ := h.1 rfl
    exact ⟨d, hm, hd.imp id Kind.describes_output⟩
end

/-! ## States -/

theorem Fields.keys_toDynamics_eq : ∀ {fs : Fields} (s : fs.State),
    (fs.toDynamics s).map Prod.fst = fs.attributes.map Attribute.name
  | .nil, () => rfl
  | .cons a _ _, (_, s) => congrArg (a.name :: ·) (keys_toDynamics_eq s)

theorem Fields.keys_toDynamics {fs : Fields} (h : fs.Regular) (s : fs.State) : fs.Keys (fs.toDynamics s) := by
  unfold Keys
  rw [keys_toDynamics_eq]
  exact ⟨h.names, fun _ => Iff.rfl⟩

mutual
theorem Kind.describes_toDynamic : ∀ {k : Kind}, k.Deeply Fields.Regular → ∀ {s : k.State},
    k.Settled Value.IsValue s → k.Describes (k.toDynamic s)
  | .string, _, s, _ => ⟨s, rfl⟩
  | .number, _, n, _ => ⟨n, rfl⟩
  | .bool, _, b, _ => ⟨b, rfl⟩
  | .strings, _, (l : List (Value String)), h => by
    refine ⟨_, rfl, fun i hi => ?_⟩
    obtain ⟨v, hv, rfl⟩ := List.mem_map.mp hi
    obtain ⟨s, rfl⟩ := h v hv
    exact ⟨s, rfl⟩
  | .object _, hr, s, h =>
    ⟨_, rfl, Fields.keys_toDynamics hr.1 s, Fields.describes_toDynamics hr.2 h (List.Subset.refl _)⟩
  | .objects fs, hr, (l : List fs.State), h => by
    refine ⟨_, rfl, fun i hi => ?_⟩
    obtain ⟨s, hs, rfl⟩ := List.mem_map.mp hi
    exact ⟨_, rfl, Fields.keys_toDynamics hr.1 s, Fields.describes_toDynamics hr.2 (h s hs) (List.Subset.refl _)⟩
theorem Fields.describes_toDynamics : ∀ {fs : Fields}, fs.Deeply Fields.Regular → ∀ {s : fs.State}
    {l : List (String × Dynamic)}, fs.Clean (fun _ => true) s → fs.toDynamics s ⊆ l → fs.Describes (fun _ => true) l
  | .nil, _, (), _, _, _ => trivial
  | .cons a k _, hr, (v, _), _, h, hl => by
    obtain ⟨hv, hs⟩ := List.cons_subset.mp hl
    refine ⟨fun _ => ⟨_, hv, ?_⟩, Fields.describes_toDynamics hr.2 h.2 hs⟩
    cases v with
    | null => exact .inl rfl
    | unknown => exact (h.1 rfl).elim
    | value x => exact .inr (Kind.describes_toDynamic hr.1 (h.1 rfl))
end

theorem Fields.describes_toDynamic {fs : Fields} (hr : fs.WellNamed) {s : fs.State} (h : fs.Clean (fun _ => true) s) :
    (Kind.object fs).Describes (fs.toDynamic s) :=
  Kind.describes_toDynamic (k := .object fs) hr h

theorem Fields.clean_flatten (fs : Fields) (r : Role → Bool) (m : fs.Model) : fs.Clean r (fs.flatten m) :=
  settled_flatten (fun s => ⟨s, rfl⟩) fs r m

theorem Fields.clean_fallback {fs : Fields} (p : Place fs .string) {r : Role → Bool} {s : fs.State}
    (h : fs.Clean r s) (hp : r p.entry.role = true) (given : String) :
    fs.Clean r (s.set p ((s.get p).orIfNull (.value given))) := by
  have hv := h.get p hp
  refine h.set p ?_
  cases hg : s.get p with
  | unknown =>
    rw [hg] at hv
    exact hv.elim
  | null | value => trivial

end ProtectionProvider
