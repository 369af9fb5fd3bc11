import ProtectionProvider.Entity.Model
import ProtectionProvider.Proofs.Json.RoundTrip

/-!
# Models as JSON

An entity is read member by member, so that only the members of its own names matter and their
order does not. If no two attributes share a name, reading a model that was written gives it back,
and a model may be pieced together from the members of two (`Fields.ofMembers_select`).
-/

namespace ProtectionProvider

/-! ## Names -/

theorem Json.toNat_of_char? {n : Nat} {c : Char} (h : Json.char? n = some c) : c.toNat = n := by
  by_cases hv : n.isValidChar
  · rw [Json.char?, dif_pos hv] at h
    cases h
    rfl
  · rw [Json.char?, dif_neg hv] at h
    cases h

theorem Json.map_toNat_of_mapM_char? {t : List Nat} {cs : List Char} (h : t.mapM Json.char? = some cs) :
    cs.map Char.toNat = t := by
  induction t generalizing cs with
  | nil =>
    cases h
    rfl
  | cons n t ih =>
    simp only [List.mapM_cons, Option.bind_eq_bind, Option.bind_eq_some_iff, Option.pure_def,
      Option.some.injEq] at h
    obtain ⟨c, hc, cs', hcs, rfl⟩ := h
    rw [List.map_cons, Json.toNat_of_char? hc, ih hcs]

theorem Json.Text.toString?_eq_some {t : Json.Text} {s : String} :
    t.toString? = some s ↔ t = .ofString s := by
  constructor
  · intro h
    obtain ⟨cs, hcs, rfl⟩ := Option.map_eq_some_iff.mp h
    rw [Json.Text.ofString, String.toList_ofList, Json.map_toNat_of_mapM_char? hcs]
  · rintro rfl
    exact Json.Text.toString?_ofString s

theorem Json.Text.ofString_inj {s t : String} : Json.Text.ofString s = Json.Text.ofString t ↔ s = t := by
  constructor
  · intro h
    have ht := Json.Text.toString?_ofString t
    rw [← h, Json.Text.toString?_ofString] at ht
    exact Option.some.inj ht
  · intro h
    rw [h]

theorem Json.str_inj {s t : String} : Json.str s = Json.str t ↔ s = t :=
  ⟨fun h => Json.Text.ofString_inj.mp (Json.string.inj h), fun h => congrArg Json.str h⟩

theorem named?_eq_some {ts : List (Json.Text × Json)} {ms : List (String × Json)} :
    named? ts = some ms ↔ ts = ms.map fun (name, j) => (.ofString name, j) := by
  induction ts generalizing ms with
  | nil => cases ms <;> simp [named?]
  | cons m ts ih =>
    obtain ⟨t, j⟩ := m
    simp only [named?, List.mapM_cons, Option.bind_eq_bind, Option.bind_eq_some_iff, Option.map_eq_some_iff,
      Json.Text.toString?_eq_some, Option.pure_def, Option.some.injEq] at ih ⊢
    constructor
    · rintro ⟨-, ⟨s, rfl, rfl⟩, l, hl, rfl⟩
      rw [List.map_cons, ih.mp hl]
    · intro h
      cases ms with
      | nil => cases h
      | cons p ms =>
        obtain ⟨h₁, h₂⟩ := List.cons.inj h
        cases h₁
        exact ⟨p, ⟨p.1, rfl, rfl⟩, ms, ih.mpr h₂, rfl⟩

namespace Fields

def names (fs : Fields) : List String := fs.attributes.map Attribute.member

end Fields

mutual
def Kind.Distinct : Kind → Prop
  | .object fs | .objects fs => fs.Distinct
  | .string | .number | .bool | .strings => True
/-- No two attributes of an entity share a name, at any depth. -/
def Fields.Distinct : Fields → Prop
  | .nil => True
  | .cons a k fs => a.member ∉ fs.names ∧ k.Distinct ∧ fs.Distinct
end

mutual
def Kind.decideDistinct : (k : Kind) → Decidable k.Distinct
  | .object fs | .objects fs => fs.decideDistinct
  | .string | .number | .bool | .strings => .isTrue trivial
def Fields.decideDistinct : (fs : Fields) → Decidable fs.Distinct
  | .nil => .isTrue trivial
  | .cons a k fs =>
    haveI := k.decideDistinct
    haveI := fs.decideDistinct
    inferInstanceAs (Decidable (a.member ∉ fs.names ∧ k.Distinct ∧ fs.Distinct))
end

instance (fs : Fields) : Decidable fs.Distinct := fs.decideDistinct

/-! ## Reading members -/

def restrict (f : String → Bool) (ms : List (String × Json)) : List (String × Json) := ms.filter fun e => f e.1

def withName (name : String) (ms : List (String × Json)) : List (String × Json) :=
  ms.filter fun p => p.1 == name

theorem readMember_of_nil {α : Type} (read : Json → Option α) {name : String} {ms : List (String × Json)}
    (h : withName name ms = []) : readMember read name ms = some none := by
  unfold withName at h
  rw [readMember, h]

theorem readMember_of_single {α : Type} (read : Json → Option α) {name : String} {ms : List (String × Json)}
    {p : String × Json} (h : withName name ms = [p]) : readMember read name ms = nullable read p.2 := by
  unfold withName at h
  rw [readMember, h]

theorem nullable_eq_some {α : Type} {read : Json → Option α} {j : Json} {v : Option α}
    (h : nullable read j = some v) : (j = .null ∧ v = none) ∨ (j ≠ .null ∧ ∃ x, read j = some x ∧ v = some x) := by
  unfold nullable at h
  split at h
  · cases h
    exact .inl ⟨rfl, rfl⟩
  · rename_i hj
    obtain ⟨x, hx, rfl⟩ := Option.map_eq_some_iff.mp h
    exact .inr ⟨hj, x, hx, rfl⟩

theorem readMember_eq_some {α : Type} {read : Json → Option α} {name : String} {ms : List (String × Json)}
    {v : Option α} (h : readMember read name ms = some v) :
    (withName name ms = [] ∧ v = none) ∨ ∃ p, withName name ms = [p] ∧ nullable read p.2 = some v := by
  unfold readMember at h
  split at h
  · rename_i e
    cases h
    exact .inl ⟨e, rfl⟩
  · rename_i n j e
    exact .inr ⟨(n, j), e, h⟩
  · cases h

theorem readMember_congr {α : Type} (read : Json → Option α) {name : String} {ms ns : List (String × Json)}
    (h : (withName name ms).Perm (withName name ns)) : readMember read name ms = readMember read name ns := by
  have hl := h.length_eq
  unfold readMember
  unfold withName at h hl
  cases hn : ns.filter fun p => p.1 == name with
  | nil =>
    rw [hn] at h
    rw [h.eq_nil]
  | cons p l =>
    cases l with
    | nil =>
      rw [hn] at h
      rw [List.perm_singleton.mp h]
    | cons q l =>
      rw [hn] at hl
      split
      · rename_i e; rw [e] at hl; cases hl
      · rename_i e; rw [e] at hl; cases hl
      · rfl

theorem Fields.ofMembers_congr : ∀ {fs : Fields} {ms ns : List (String × Json)},
    (∀ name ∈ fs.names, (withName name ms).Perm (withName name ns)) → fs.ofMembers ms = fs.ofMembers ns
  | .nil, _, _, _ => rfl
  | .cons a k fs, ms, ns, h => by
    have hr : fs.ofMembers ms = fs.ofMembers ns :=
      ofMembers_congr fun name hn => h name (List.mem_cons_of_mem _ hn)
    rw [Fields.ofMembers, Fields.ofMembers, readMember_congr k.decode (h a.member List.mem_cons_self), hr]

theorem bind_pair_eq_some {α β : Type} {x : Option α} {y : Option β} {p : α × β} :
    (x.bind fun a => y.bind fun b => some (a, b)) = some p ↔ x = some p.1 ∧ y = some p.2 := by
  obtain ⟨a, b⟩ := p
  cases x <;> cases y <;> simp

theorem Fields.ofMembers_cons {a : Attribute} {k : Kind} {fs : Fields} {ms : List (String × Json)}
    {m : (Fields.cons a k fs).Model} : (Fields.cons a k fs).ofMembers ms = some m ↔
      readMember k.decode a.member ms = some m.1 ∧ fs.ofMembers ms = some m.2 :=
  bind_pair_eq_some

theorem Fields.ofItems_cons {a : Attribute} {k : Kind} {fs : Fields} {j : Json} {items : List Json}
    {m : (Fields.cons a k fs).Model} : (Fields.cons a k fs).ofItems (j :: items) = some m ↔
      nullable k.decode j = some m.1 ∧ fs.ofItems items = some m.2 :=
  bind_pair_eq_some

theorem Fields.ofMembers_select {r : Role → Bool} {es ms ns : List (String × Json)} :
    ∀ {fs : Fields} {m n : fs.Model},
      (∀ a ∈ fs.attributes,
        (withName a.member es).Perm (if r a.role then withName a.member ms else withName a.member ns)) →
      fs.ofMembers ms = some m → fs.ofMembers ns = some n → fs.ofMembers es = some (.select r m n)
  | .nil, (), (), _, _, _ => rfl
  | .cons a k fs, (v, m), (w, n), h, hm, hn => by
    obtain ⟨hv, hm⟩ := ofMembers_cons.mp hm
    obtain ⟨hw, hn⟩ := ofMembers_cons.mp hn
    refine ofMembers_cons.mpr ⟨?_, ofMembers_select (fun b hb => h b (List.mem_cons_of_mem _ hb)) hm hn⟩
    have ha := h a List.mem_cons_self
    show readMember k.decode a.member es = some (if r a.role then v else w)
    cases hr : r a.role with
    | true =>
      rw [hr, if_pos rfl] at ha
      exact (readMember_congr k.decode ha).trans hv
    | false =>
      rw [hr, if_neg (by simp)] at ha
      exact (readMember_congr k.decode ha).trans hw

theorem Fields.readMember_of_ofMembers {ms : List (String × Json)} : ∀ {fs : Fields} {k : Kind} (p : Place fs k)
    {m : fs.Model}, fs.ofMembers ms = some m → readMember k.decode p.entry.member ms = some (m.get p)
  | .cons _ _ _, _, .here, (_, _), h => (ofMembers_cons.mp h).1
  | .cons _ _ _, _, .there p, (_, _), h => readMember_of_ofMembers p (ofMembers_cons.mp h).2

/-! ## Members of a JSON value -/

/-- What a JSON value says of an entity: the members of an object, or the items of an array in the
order of the attributes. -/
def Fields.said (fs : Fields) : Json → List (String × Json)
  | .object ms => (named? ms).getD []
  | .array items => fs.names.zip items
  | _ => []

theorem withName_restrict (name : String) (f : String → Bool) (ms : List (String × Json)) :
    withName name (restrict f ms) = if f name then withName name ms else [] := by
  rw [withName, restrict, List.filter_filter, withName]
  split
  · rename_i hf
    refine List.filter_congr fun e _ => ?_
    cases he : e.1 == name with
    | false => rfl
    | true => rw [beq_iff_eq.mp he, hf]; rfl
  · rename_i hf
    refine List.filter_eq_nil_iff.mpr fun e _ h => ?_
    obtain ⟨hn, hf'⟩ := Bool.and_eq_true_iff.mp h
    exact hf (beq_iff_eq.mp hn ▸ hf')

theorem withName_cons_self (name : String) (j : Json) (ms : List (String × Json)) :
    withName name ((name, j) :: ms) = (name, j) :: withName name ms := by
  simp [withName]

theorem withName_cons_of_ne {name other : String} (h : other ≠ name) (j : Json) (ms : List (String × Json)) :
    withName name ((other, j) :: ms) = withName name ms := by
  simp [withName, h]

theorem withName_eq_nil {name : String} {ms : List (String × Json)} (h : name ∉ ms.map Prod.fst) :
    withName name ms = [] := by
  rw [withName, List.filter_eq_nil_iff]
  intro p hp he
  exact h (List.mem_map.mpr ⟨p, hp, beq_iff_eq.mp he⟩)

theorem withName_of_mem {name : String} {j : Json} : ∀ {ms : List (String × Json)}, (ms.map Prod.fst).Nodup →
    (name, j) ∈ ms → withName name ms = [(name, j)]
  | [], _, h => by cases h
  | (other, k) :: ms, hn, h => by
    obtain ⟨hother, hn⟩ := List.nodup_cons.mp hn
    rcases List.mem_cons.mp h with e | h
    · cases e
      rw [withName_cons_self, withName_eq_nil hother]
    · have hne : other ≠ name := fun e => hother (List.mem_map.mpr ⟨(name, j), h, e.symm⟩)
      rw [withName_cons_of_ne hne, withName_of_mem hn h]

theorem Fields.ofMembers_cons_of_notMem {fs : Fields} {name : String} (h : name ∉ fs.names) (j : Json)
    (ms : List (String × Json)) : fs.ofMembers ((name, j) :: ms) = fs.ofMembers ms :=
  ofMembers_congr fun other ho => by
    rw [withName_cons_of_ne fun e : name = other => h (e ▸ ho)]

theorem Fields.ofMembers_zip : ∀ {fs : Fields} {items : List Json} {m : fs.Model}, fs.Distinct →
    fs.ofItems items = some m → fs.ofMembers (fs.names.zip items) = some m
  | .nil, [], (), _, _ => rfl
  | .nil, _ :: _, (), _, _ => rfl
  | .cons _ _ _, [], (_, _), _, h => by cases h
  | .cons a k fs, j :: items, (v, m), hd, h => by
    obtain ⟨hv, hm⟩ := ofItems_cons.mp h
    have hz : (Fields.cons a k fs).names.zip (j :: items) = (a.member, j) :: fs.names.zip items := rfl
    have hn : a.member ∉ (fs.names.zip items).map Prod.fst := fun hc => by
      obtain ⟨p, hp, hpa⟩ := List.mem_map.mp hc
      exact hd.1 (hpa ▸ (List.of_mem_zip hp).1)
    rw [hz]
    refine ofMembers_cons.mpr ⟨?_, (ofMembers_cons_of_notMem hd.1 _ _).trans (ofMembers_zip hd.2.2 hm)⟩
    have hw : withName a.member ((a.member, j) :: fs.names.zip items) = [(a.member, j)] := by
      rw [withName_cons_self, withName_eq_nil hn]
    exact (readMember_of_single k.decode hw).trans hv

/-- An entity is read from what is said of it, be it in an object or in an array. -/
theorem Fields.ofMembers_said {fs : Fields} (hd : fs.Distinct) {j : Json} {m : fs.Model}
    (h : fs.decode j = some m) : fs.ofMembers (fs.said j) = some m := by
  cases j with
  | object ms =>
    obtain ⟨ns, hn, hm⟩ := Option.bind_eq_some_iff.mp h
    rw [said, hn]
    exact hm
  | array items => exact ofMembers_zip hd h
  | _ => cases h

/-! ## Writing members -/

def entry (a : Attribute) {k : Kind} (v : Option k.Model) : List (String × Json) :=
  (v.map fun x => (a.member, k.encode x)).toList

def Fields.entries : (fs : Fields) → fs.Model → List (String × Json)
  | .nil, () => []
  | .cons a _ fs, (v, m) => entry a v ++ fs.entries m

theorem Fields.members_eq : ∀ (fs : Fields) (m : fs.Model),
    fs.members m = (fs.entries m).map fun (name, j) => (.ofString name, j)
  | .nil, () => rfl
  | .cons _ _ fs, (none, m) => members_eq fs m
  | .cons a k fs, (some x, m) => congrArg ((Json.Text.ofString a.member, k.encode x) :: ·) (members_eq fs m)

theorem Fields.encode_eq (fs : Fields) (m : fs.Model) : fs.encode m = .obj (fs.entries m) := by
  rw [encode, members_eq]
  rfl

theorem Fields.names_entries_sublist : ∀ (fs : Fields) (m : fs.Model), ((fs.entries m).map Prod.fst).Sublist fs.names
  | .nil, () => .slnil
  | .cons a _ fs, (none, m) => (names_entries_sublist fs m).cons a.member
  | .cons a _ fs, (some _, m) => (names_entries_sublist fs m).cons_cons a.member

theorem Fields.name_mem_of_entries {fs : Fields} {m : fs.Model} {p : String × Json} (h : p ∈ fs.entries m) :
    p.1 ∈ fs.names :=
  (fs.names_entries_sublist m).subset (List.mem_map_of_mem h)

mutual
theorem Kind.printable_encode : ∀ (k : Kind) (x : k.Model), (k.encode x).Printable
  | .string, (s : String) => Json.Text.scalar_ofString s
  | .number, _ => trivial
  | .bool, _ => trivial
  | .strings, (l : List String) => Json.printable_array fun j hj => by
    obtain ⟨s, -, rfl⟩ := List.mem_map.mp hj
    exact Json.Text.scalar_ofString s
  | .object fs, m => Fields.printable_encode fs m
  | .objects fs, (l : List fs.Model) => Json.printable_array fun j hj => by
    obtain ⟨m, -, rfl⟩ := List.mem_map.mp hj
    exact Fields.printable_encode fs m
theorem Fields.printable_encode : ∀ (fs : Fields) (m : fs.Model), (fs.encode m).Printable
  | .nil, () => trivial
  | .cons _ _ fs, (none, m) => Fields.printable_encode fs m
  | .cons a k fs, (some x, m) =>
    ⟨Json.Text.scalar_ofString a.member, Kind.printable_encode k x, Fields.printable_encode fs m⟩
end

/-! ## Reading what was written -/

theorem mapM_map_of_left_inverse {α β : Type} {f : α → β} {g : β → Option α} (h : ∀ a, g (f a) = some a)
    (l : List α) : (l.map f).mapM g = some l := by
  induction l with
  | nil => rfl
  | cons a l ih => simp [h, ih]

theorem Kind.nullable_encode {k : Kind} {x : k.Model} (h : k.decode (k.encode x) = some x) :
    nullable k.decode (k.encode x) = some (some x) := by
  cases k <;> exact congrArg (Option.map some) h

theorem Fields.withName_entries {fs : Fields} {name : String} (h : name ∉ fs.names) (m : fs.Model) :
    withName name (fs.entries m) = [] := withName_eq_nil fun hc => by
  obtain ⟨p, hp, rfl⟩ := List.mem_map.mp hc
  exact h (name_mem_of_entries hp)

theorem Fields.decode_of_entries {fs : Fields} {m : fs.Model} (h : fs.ofMembers (fs.entries m) = some m) :
    fs.decode (fs.encode m) = some m := by
  rw [encode_eq]
  show (named? _).bind fs.ofMembers = some m
  rw [named?_eq_some.mpr rfl]
  exact h

mutual
theorem Kind.decode_encode : ∀ (k : Kind), k.Distinct → ∀ x : k.Model, k.decode (k.encode x) = some x
  | .string, _, (s : String) => Json.Text.toString?_ofString s
  | .number, _, (n : Int64) => by
    show int64? n.toInt = some n
    rw [int64?, if_pos ⟨n.minValue_le_toInt, n.toInt_le⟩, Int64.ofInt_toInt]
  | .bool, _, _ => rfl
  | .strings, _, (l : List String) =>
    mapM_map_of_left_inverse (f := Json.str) (g := string?) Json.Text.toString?_ofString l
  | .object fs, h, m => Fields.decode_of_entries (Fields.ofMembers_entries fs h m)
  | .objects fs, h, (l : List fs.Model) =>
    mapM_map_of_left_inverse (fun m => Fields.decode_of_entries (Fields.ofMembers_entries fs h m)) l
theorem Fields.ofMembers_entries : ∀ (fs : Fields), fs.Distinct → ∀ m : fs.Model, fs.ofMembers (fs.entries m) = some m
  | .nil, _, () => rfl
  | .cons a k fs, h, (none, m) => by
    have hw : withName a.member (fs.entries m) = [] := Fields.withName_entries h.1 m
    exact Fields.ofMembers_cons.mpr ⟨readMember_of_nil k.decode hw, Fields.ofMembers_entries fs h.2.2 m⟩
  | .cons a k fs, h, (some x, m) => by
    have hw : withName a.member ((a.member, k.encode x) :: fs.entries m) = [(a.member, k.encode x)] := by
      rw [withName_cons_self, Fields.withName_entries h.1]
    refine Fields.ofMembers_cons.mpr ⟨?_, ?_⟩
    · exact (readMember_of_single k.decode hw).trans (Kind.nullable_encode (Kind.decode_encode k h.2.1 x))
    · exact (Fields.ofMembers_cons_of_notMem h.1 _ _).trans (Fields.ofMembers_entries fs h.2.2 m)
end

/-! ## Members by name -/

def member? (name : String) (ms : List (String × Json)) : Option Json :=
  match ms.lookup name with
  | some .null | none => none
  | some j => some j

theorem lookup_eq_head? (name : String) (ms : List (String × Json)) :
    ms.lookup name = (withName name ms).head?.map Prod.snd := by
  induction ms with
  | nil => rfl
  | cons p ms ih =>
    obtain ⟨other, j⟩ := p
    by_cases h : other = name
    · subst h
      simp [withName_cons_self]
    · rw [withName_cons_of_ne h, ← ih, List.lookup_cons, beq_false_of_ne (Ne.symm h)]

theorem Place.member_mem_names : ∀ {fs : Fields} {k : Kind} (p : Place fs k), p.entry.member ∈ fs.names
  | .cons _ _ _, _, .here => List.mem_cons_self
  | .cons _ _ _, _, .there p => List.mem_cons_of_mem _ p.member_mem_names

theorem Fields.withName_entries_get : ∀ {fs : Fields} {k : Kind}, fs.Distinct → ∀ (p : Place fs k) (m : fs.Model),
    withName p.entry.member (fs.entries m) = entry p.entry (m.get p)
  | .cons a k fs, _, hd, .here, (none, m) => withName_entries hd.1 m
  | .cons a k fs, _, hd, .here, (some x, m) => by
    show withName a.member ((a.member, k.encode x) :: fs.entries m) = [(a.member, k.encode x)]
    rw [withName_cons_self, withName_entries hd.1]
  | .cons _ _ _, _, hd, .there p, (none, m) => withName_entries_get hd.2.2 p m
  | .cons a j fs, k, hd, .there p, (some x, m) => by
    have hne : a.member ≠ p.entry.member := fun e => hd.1 (e ▸ p.member_mem_names)
    show withName p.entry.member ((a.member, j.encode x) :: fs.entries m) = entry p.entry (m.get p)
    rw [withName_cons_of_ne hne, withName_entries_get hd.2.2 p]

theorem Fields.lookup_entries {fs : Fields} {k : Kind} (hd : fs.Distinct) (p : Place fs k) (m : fs.Model) :
    (fs.entries m).lookup p.entry.member = (m.get p).map k.encode := by
  rw [lookup_eq_head?, withName_entries_get hd]
  cases m.get p <;> rfl

section
variable {f : String → Bool}

theorem restrict_append (ms ns : List (String × Json)) : restrict f (ms ++ ns) = restrict f ms ++ restrict f ns :=
  List.filter_append ms ns

theorem restrict_entry {a : Attribute} (h : f a.member = false) {k : Kind} (v : Option k.Model) :
    restrict f (entry a v) = [] := by
  cases v with
  | none => rfl
  | some x => simp [restrict, entry, h]

theorem restrict_entry_self {a : Attribute} (h : f a.member = true) {k : Kind} (v : Option k.Model) :
    restrict f (entry a v) = entry a v := by
  cases v with
  | none => rfl
  | some x => simp [restrict, entry, h]

theorem Fields.restrict_entries_set : ∀ {fs : Fields} {k : Kind} (p : Place fs k) (v : Option k.Model) (m : fs.Model),
    f p.entry.member = false → restrict f (fs.entries (m.set p v)) = restrict f (fs.entries m)
  | .cons a k fs, _, .here, v, (w, m), h => by
    have ha : f a.member = false := h
    show restrict f (entry a v ++ fs.entries m) = restrict f (entry a w ++ fs.entries m)
    rw [restrict_append, restrict_append, restrict_entry ha, restrict_entry ha]
  | .cons a k fs, _, .there p, v, (w, m), h => by
    show restrict f (entry a w ++ fs.entries (m.set p v)) = restrict f (entry a w ++ fs.entries m)
    rw [restrict_append, restrict_append, restrict_entries_set p v m h]

theorem Fields.restrict_entries_select {r : Role → Bool} : ∀ {fs : Fields} (m n : fs.Model),
    (∀ a ∈ fs.attributes, r a.role = true → f a.member = false) →
      restrict f (fs.entries (.select r m n)) = restrict f (fs.entries n)
  | .nil, (), (), _ => rfl
  | .cons a k fs, (v, m), (w, n), h => by
    have ih := restrict_entries_select m n fun b hb => h b (List.mem_cons_of_mem _ hb)
    show restrict f (entry a (if r a.role then v else w) ++ fs.entries (.select r m n)) =
      restrict f (entry a w ++ fs.entries n)
    rw [restrict_append, restrict_append, ih]
    cases hr : r a.role with
    | false => rfl
    | true =>
      have ha : f a.member = false := h a List.mem_cons_self hr
      rw [restrict_entry ha, restrict_entry ha]

end

theorem member?_eq_of_readMember {k : Kind} (hk : ∀ {j x}, k.decode j = some x → k.encode x = j)
    {name : String} {ms : List (String × Json)} {v : Option k.Model}
    (h : readMember k.decode name ms = some v) : member? name ms = v.map k.encode := by
  rw [member?, lookup_eq_head?]
  rcases readMember_eq_some h with ⟨hw, rfl⟩ | ⟨⟨n, j⟩, hw, hv⟩
  · rw [hw]
    rfl
  · rw [hw]
    rcases nullable_eq_some hv with ⟨rfl, rfl⟩ | ⟨-, x, hx, rfl⟩
    · rfl
    · cases j with
      | null => cases k <;> cases hx
      | _ => simp [hk hx]

theorem Kind.encode_of_decode_number {j : Json} {n : Int64} (h : Kind.number.decode j = some n) :
    Kind.number.encode n = j := by
  cases j with
  | int i =>
    have hi : int64? i = some n := h
    unfold int64? at hi
    split at hi
    · rename_i hb
      cases hi
      have hmin : Int64.minValue.toInt = -2 ^ 63 := rfl
      have hmax : Int64.maxValue.toInt = 2 ^ 63 - 1 := rfl
      exact congrArg Json.int (Int64.toInt_ofInt_of_le (by omega) (by omega))
    · cases hi
  | _ => cases h

end ProtectionProvider
