import Mathlib.Data.List.Nodup
import ProtectionProvider.Proofs.Entity.Documents

/-!
# Policies that are written

A model is written with a member for each attribute that is there and with no other, and so without
nulls and without repeated names. From the text of it the model is read back (`encoded_read_back`).
-/

namespace ProtectionProvider

/-! ## Tidy values -/

mutual
/-- No null and no name twice in an object, at any depth. -/
def Json.Tidy : Json → Prop
  | .null => False
  | .array l => Json.TidyItems l
  | .object ms => (ms.map Prod.fst).Nodup ∧ Json.TidyMembers ms
  | .bool _ | .int _ | .decimal _ | .string _ => True
  termination_by structural j => j
def Json.TidyItems : List Json → Prop
  | [] => True
  | j :: l => j.Tidy ∧ Json.TidyItems l
  termination_by structural l => l
def Json.TidyMembers : List (Json.Text × Json) → Prop
  | [] => True
  | (_, j) :: ms => j.Tidy ∧ Json.TidyMembers ms
  termination_by structural ms => ms
end

theorem Json.tidy_array_map {α : Type} (f : α → Json) (h : ∀ x, (f x).Tidy) (l : List α) :
    (Json.array (l.map f)).Tidy := by
  show Json.TidyItems (l.map f)
  induction l with
  | nil => trivial
  | cons x l ih => exact ⟨h x, ih⟩

theorem Fields.nodup_members {fs : Fields} (hn : fs.names.Nodup) (m : fs.Model) :
    ((fs.members m).map Prod.fst).Nodup := by
  have he : (fs.members m).map Prod.fst = ((fs.entries m).map Prod.fst).map Json.Text.ofString := by
    rw [members_eq, List.map_map, List.map_map]
    rfl
  rw [he]
  exact List.Nodup.map (fun _ _ => Json.Text.ofString_inj.mp) (hn.sublist (fs.names_entries_sublist m))

mutual
theorem Kind.tidy_encode : ∀ {k : Kind}, k.Deeply Fields.Regular → ∀ x : k.Model, (k.encode x).Tidy
  | .string, _, _ | .number, _, _ | .bool, _, _ => trivial
  | .strings, _, (l : List String) => Json.tidy_array_map Json.str (fun _ => trivial) l
  | .object _, h, m => ⟨Fields.nodup_members h.1.distinct m, Fields.tidy_members h.2 m⟩
  | .objects fs, h, (l : List fs.Model) =>
    Json.tidy_array_map (fun m => .object (fs.members m))
      (fun m => ⟨Fields.nodup_members h.1.distinct m, Fields.tidy_members h.2 m⟩) l
theorem Fields.tidy_members : ∀ {fs : Fields}, fs.Deeply Fields.Regular → ∀ m : fs.Model, Json.TidyMembers (fs.members m)
  | .nil, _, () => trivial
  | .cons _ _ _, h, (none, m) => Fields.tidy_members h.2 m
  | .cons _ _ _, h, (some x, m) => ⟨Kind.tidy_encode h.1 x, Fields.tidy_members h.2 m⟩
end

/-! ## What is written -/

/-- An attribute that is there is held once, written as `P` has it, and one that is absent is not held. -/
inductive HeldAs {α : Type} (P : α → Json → Prop) : Option α → List Json → Prop where
  | absent : HeldAs P none []
  | present {x : α} {j : Json} (written : P x j) : HeldAs P (some x) [j]

def Fields.Names (fs : Fields) (ms : List (Json.Text × Json)) : Prop :=
  ∀ p ∈ ms, ∃ a ∈ fs.attributes, p.1 = Json.Text.ofString (documentName a.name)

mutual
def Kind.Writes : (k : Kind) → k.Model → Json → Prop
  | .string, (s : String), j => j = .str s
  | .number, (n : Int64), j => j = .int n.toInt
  | .bool, (b : Bool), j => j = .bool b
  | .strings, (l : List String), j => j = .array (l.map Json.str)
  | .object fs, m, j => ∃ ms, j = .object ms ∧ fs.Names ms ∧ fs.Writes m ms
  | .objects fs, (l : List fs.Model), j =>
    ∃ items, j = .array items ∧ List.Forall₂ (fun m i => ∃ ms, i = .object ms ∧ fs.Names ms ∧ fs.Writes m ms) l items
/-- The members hold each attribute under its name if it is there, and else nothing under that name. -/
def Fields.Writes : (fs : Fields) → fs.Model → List (Json.Text × Json) → Prop
  | .nil, (), _ => True
  | .cons a k fs, (v, m), ms => HeldAs k.Writes v (held (documentName a.name) ms) ∧ fs.Writes m ms
end

theorem Fields.held_members {fs : Fields} {k : Kind} (hd : fs.Distinct) (p : Place fs k) (m : fs.Model) :
    held p.entry.member (fs.members m) = ((m.get p).map k.encode).toList := by
  rw [held_of_named (named?_eq_some.mpr (fs.members_eq m)), withName_entries_get hd]
  cases m.get p <;> rfl

theorem Fields.names_members {fs : Fields} (hr : fs.Regular) (m : fs.Model) : fs.Names (fs.members m) := by
  intro p hp
  rw [members_eq] at hp
  obtain ⟨q, hq, rfl⟩ := List.mem_map.mp hp
  obtain ⟨a, ha, he⟩ := List.mem_map.mp (name_mem_of_entries hq)
  exact ⟨a, ha, by rw [← hr.member ha, he]⟩

mutual
theorem Kind.writes_encode : ∀ {k : Kind}, k.Deeply Fields.Regular → ∀ x : k.Model, k.Writes x (k.encode x)
  | .string, _, _ | .number, _, _ | .bool, _, _ | .strings, _, _ => rfl
  | .object fs, h, m => by
    refine ⟨fs.members m, rfl, Fields.names_members h.1 m, ?_⟩
    exact Fields.writes_of_held (fun _ => h.1.member) h.2 fun p => Fields.held_members (Fields.WellNamed.distinct h) p m
  | .objects fs, h, _ => by
    refine ⟨_, rfl, List.forall₂_map_right_iff.mpr (List.forall₂_same.mpr ?_)⟩
    intro m _
    refine ⟨fs.members m, rfl, Fields.names_members h.1 m, ?_⟩
    exact Fields.writes_of_held (fun _ => h.1.member) h.2 fun p => Fields.held_members (Fields.WellNamed.distinct h) p m
-- the members are those of the whole entity, while the attributes go by one at a time
theorem Fields.writes_of_held : ∀ {fs : Fields}, (∀ a ∈ fs.attributes, a.member = documentName a.name) →
    fs.Deeply Fields.Regular → ∀ {m : fs.Model} {ms : List (Json.Text × Json)},
      (∀ {k : Kind} (p : Place fs k), held p.entry.member ms = ((m.get p).map k.encode).toList) → fs.Writes m ms
  | .nil, _, _, (), _, _ => trivial
  | .cons a k fs, ha, hr, (v, m), ms, h => by
    refine ⟨?_, Fields.writes_of_held (fun b hb => ha b (List.mem_cons_of_mem _ hb)) hr.2 fun p => h (.there p)⟩
    have hname : a.member = documentName a.name := ha a List.mem_cons_self
    have hheld : held a.member ms = (v.map k.encode).toList := h .here
    rw [← hname, hheld]
    cases v with
    | none => exact .absent
    | some x => exact .present (Kind.writes_encode hr.1 x)
end

/-! ## Policies -/

namespace Policy

def documents : List (String × Fields) := ("ProtectionPoliciesResponse", listed) :: entities

theorem mem_tables_of_documents {e : String × Fields} (h : e ∈ documents) : e ∈ tables := by
  rcases List.mem_cons.mp h with rfl | h
  · exact List.mem_append_left _ List.mem_cons_self
  · exact List.mem_append_right _ (List.mem_append_left _ (List.mem_append_left _ h))

theorem encoded_read_back : ∀ e ∈ documents, ∀ m : e.2.Model,
    ∃ j, Json.read? (e.2.encode m).toString = some j ∧ e.2.decode j = some m ∧ j.Tidy ∧
      (Kind.object e.2).Writes m j := by
  intro e he m
  have hw : e.2.WellNamed := wellNamed_tables e (mem_tables_of_documents he)
  refine ⟨e.2.encode m, Json.read?_toString (e.2.printable_encode m), ?_, ?_, ?_⟩
  · exact Kind.decode_encode (.object e.2) hw.distinct m
  · exact Kind.tidy_encode (k := .object e.2) hw m
  · exact Kind.writes_encode (k := .object e.2) hw m

def quoted : protectionPolicy.Model := (protectionPolicy.expand windows).set name (some "\"\\\n\x01😀")

theorem quoted_read_back : ("ProtectionPoliciesResponse", listed) ∈ documents ∧
    ∃ j, Json.read? (listed.encode (some [quoted], ())).toString = some j ∧
      listed.decode j = some (some [quoted], ()) ∧ j.Tidy ∧ (Kind.object listed).Writes (some [quoted], ()) j :=
  ⟨List.mem_cons_self, encoded_read_back _ List.mem_cons_self (some [quoted], ())⟩

end Policy

end ProtectionProvider
