import Mathlib.Data.List.Perm.Basic
import Mathlib.Logic.Relation
import ProtectionProvider.Proofs.Entity.Codec

/-!
# Edited documents

Of an object that is read as an entity only the members with the names of that entity count, and each
of them may be there once. So nothing is changed by another order, by members with other names and by a
null where nothing was (`Fields.decode_extended`), and a name that repeats is refused
(`Fields.decode_spoiled`). What is read of a whole document is made from what is read of each object in
it, and fails if that does (`Kind.Edited.readThrough`), so that the same holds at any depth.
-/

namespace ProtectionProvider

/-! ## Edits -/

/-- A change of the members of an object that is read for its attributes. -/
abbrev MemberEdit : Type := Fields → List (Json.Text × Json) → List (Json.Text × Json) → Prop

/-- One of the objects that are read, at any depth, is changed. -/
inductive Kind.Edited (P : MemberEdit) : Kind → Json → Json → Prop where
  | here {fs : Fields} {ms ms' : List (Json.Text × Json)} (edit : P fs ms ms') :
      Edited P (.object fs) (.object ms) (.object ms')
  | member {fs : Fields} {a : Attribute} {k : Kind} {j j' : Json} (before after : List (Json.Text × Json))
      (own : (a, k) ∈ fs.toList) (inside : Edited P k j j') :
      Edited P (.object fs) (.object (before ++ (.ofString a.member, j) :: after))
        (.object (before ++ (.ofString a.member, j') :: after))
  /-- An entity may be written as an array of its attributes. -/
  | entry {fs : Fields} {a : Attribute} {k : Kind} {j j' : Json} (before after : List Json)
      (own : fs.toList[before.length]? = some (a, k)) (inside : Edited P k j j') :
      Edited P (.object fs) (.array (before ++ j :: after)) (.array (before ++ j' :: after))
  | item {fs : Fields} {j j' : Json} (before after : List Json) (inside : Edited P (.object fs) j j') :
      Edited P (.objects fs) (.array (before ++ j :: after)) (.array (before ++ j' :: after))

/-- The members say the same as before. What is added stands in front, from where another order may move it. -/
inductive Fields.Extended (fs : Fields) : List (Json.Text × Json) → List (Json.Text × Json) → Prop where
  | reordered {ms ms' : List (Json.Text × Json)} (order : ms.Perm ms') : Extended fs ms ms'
  | unknown {ms : List (Json.Text × Json)} {name : String} (other : name ∉ fs.names) (j : Json) :
      Extended fs ms ((.ofString name, j) :: ms)
  | ignored {ms : List (Json.Text × Json)} {name : String} (other : name ∉ fs.names) (j j' : Json) :
      Extended fs ((.ofString name, j) :: ms) ((.ofString name, j') :: ms)
  | null {ms : List (Json.Text × Json)} {name : String} (known : name ∈ fs.names)
      (absent : .ofString name ∉ ms.map Prod.fst) : Extended fs ms ((.ofString name, .null) :: ms)

/-- There is one member more, in any place, whose name is there already or is no string. -/
inductive Fields.Spoiled (fs : Fields) : List (Json.Text × Json) → List (Json.Text × Json) → Prop where
  | repeated {ms ms' : List (Json.Text × Json)} {name : String} (known : name ∈ fs.names)
      (present : .ofString name ∈ ms.map Prod.fst) (j : Json) (order : ((.ofString name, j) :: ms).Perm ms') :
      Spoiled fs ms ms'
  | unspelled {ms ms' : List (Json.Text × Json)} {name : Json.Text} (surrogate : name.toString? = none) (j : Json)
      (order : ((name, j) :: ms).Perm ms') : Spoiled fs ms ms'

/-! ## One member more -/

section
variable {α : Type} {read : Json → Option α} {name : String} {ns : List (String × Json)}

theorem readMember_of_twice (h : name ∈ ns.map Prod.fst) (j : Json) :
    readMember read name ((name, j) :: ns) = none := by
  have hw : withName name ns ≠ [] := by
    obtain ⟨p, hp, hpn⟩ := List.mem_map.mp h
    exact List.ne_nil_of_mem (List.mem_filter.mpr ⟨hp, beq_iff_eq.mpr hpn⟩)
  obtain ⟨p, l, hl⟩ := List.exists_cons_of_ne_nil hw
  have hc := withName_cons_self name j ns
  rw [hl] at hc
  unfold withName at hc
  rw [readMember, hc]

theorem readMember_cons_null (h : name ∉ ns.map Prod.fst) (other : String) :
    readMember read other ((name, .null) :: ns) = readMember read other ns := by
  by_cases ho : name = other
  · subst ho
    have hw := withName_eq_nil h
    have hc : withName name ((name, Json.null) :: ns) = [(name, .null)] := by rw [withName_cons_self, hw]
    rw [readMember_of_nil read hw, readMember_of_single read hc]
    rfl
  · refine readMember_congr read ?_
    rw [withName_cons_of_ne ho]

theorem exists_readMember_eq_bind (read : Json → Option α) (name : String) (ns : List (String × Json)) :
    ∃ f : Option α → Option (Option α), ∀ j, readMember read name ((name, j) :: ns) = (nullable read j).bind f := by
  by_cases h : name ∈ ns.map Prod.fst
  · refine ⟨fun _ => none, fun j => ?_⟩
    rw [readMember_of_twice h, Option.bind_fun_none]
  · refine ⟨some, fun j => ?_⟩
    have hc : withName name ((name, j) :: ns) = [(name, j)] := by rw [withName_cons_self, withName_eq_nil h]
    rw [readMember_of_single read hc, Option.bind_fun_some]

end

namespace Fields

theorem ofMembers_congr_read : ∀ {fs : Fields} {ns ns' : List (String × Json)},
    (∀ p ∈ fs.toList, readMember p.2.decode p.1.member ns = readMember p.2.decode p.1.member ns') →
      fs.ofMembers ns = fs.ofMembers ns'
  | .nil, _, _, _ => rfl
  | .cons a k fs, ns, ns', h => by
    rw [ofMembers, ofMembers, h (a, k) List.mem_cons_self,
      ofMembers_congr_read fun p hp => h p (List.mem_cons_of_mem _ hp)]

theorem ofMembers_eq_none : ∀ {fs : Fields} {a : Attribute} {k : Kind} {ns : List (String × Json)}, (a, k) ∈ fs.toList →
    readMember k.decode a.member ns = none → fs.ofMembers ns = none
  | .cons b l fs, a, k, ns, own, h => by
    show (readMember l.decode b.member ns).bind (fun v => (fs.ofMembers ns).bind fun m => some (v, m)) = none
    rcases List.mem_cons.mp own with e | own
    · cases e
      rw [h, Option.bind_none]
    · rw [ofMembers_eq_none own h]
      exact Option.bind_fun_none _

theorem exists_ofMembers_eq_bind : ∀ {fs : Fields} {a : Attribute} {k : Kind}, fs.Distinct → (a, k) ∈ fs.toList →
    ∀ ns : List (String × Json), ∃ f : Option k.Model → Option fs.Model,
      ∀ j, fs.ofMembers ((a.member, j) :: ns) = (nullable k.decode j).bind f
  | .cons b l fs, a, k, hd, own, ns => by
    rcases List.mem_cons.mp own with e | own
    · cases e
      obtain ⟨f, hf⟩ := exists_readMember_eq_bind l.decode b.member ns
      refine ⟨fun v => (f v).bind fun w => (fs.ofMembers ns).bind fun m => some (w, m), fun j => ?_⟩
      show (readMember l.decode b.member _).bind _ = _
      rw [hf, ofMembers_cons_of_notMem hd.1, Option.bind_assoc]
      rfl
    · obtain ⟨f, hf⟩ := exists_ofMembers_eq_bind hd.2.2 own ns
      have hn : a.member ≠ b.member := fun e => hd.1 (e ▸ List.mem_map_of_mem (List.mem_map_of_mem own))
      refine ⟨fun v => (readMember l.decode b.member ns).bind fun w => (f v).bind fun m => some (w, m), fun j => ?_⟩
      have hr : readMember l.decode b.member ((a.member, j) :: ns) = readMember l.decode b.member ns :=
        readMember_congr l.decode (by rw [withName_cons_of_ne hn])
      show (readMember l.decode b.member _).bind _ = _
      rw [hr, hf]
      cases readMember l.decode b.member ns <;> cases nullable k.decode j <;> rfl

theorem exists_ofItems_eq_bind : ∀ {fs : Fields} {a : Attribute} {k : Kind} (before after : List Json),
    fs.toList[before.length]? = some (a, k) → ∃ f : Option k.Model → Option fs.Model,
      ∀ j, fs.ofItems (before ++ j :: after) = (nullable k.decode j).bind f
  | .cons b l fs, a, k, [], after, own => by
    cases own
    exact ⟨fun v => (fs.ofItems after).bind fun m => some (v, m), fun j => rfl⟩
  | .cons b l fs, a, k, i :: before, after, own => by
    have own' : fs.toList[before.length]? = some (a, k) := own
    obtain ⟨f, hf⟩ := exists_ofItems_eq_bind before after own'
    refine ⟨fun v => (nullable l.decode i).bind fun w => (f v).bind fun m => some (w, m), fun j => ?_⟩
    show (nullable l.decode i).bind (fun w => (fs.ofItems (before ++ j :: after)).bind _) = _
    rw [hf]
    cases nullable l.decode i <;> cases nullable k.decode j <;> rfl

end Fields

/-! ## The order of members -/

theorem named?_cons (name : String) (j : Json) (ms : List (Json.Text × Json)) :
    named? ((.ofString name, j) :: ms) = (named? ms).map fun ns => (name, j) :: ns := by
  unfold named?
  rw [List.mapM_cons]
  show (Option.map _ (Json.Text.ofString name).toString?).bind _ = _
  rw [Json.Text.toString?_ofString]
  cases ms.mapM (m := Option) _ <;> rfl

theorem named?_of_surrogate {name : Json.Text} (h : name.toString? = none) (j : Json) (ms : List (Json.Text × Json)) :
    named? ((name, j) :: ms) = none := by
  unfold named?
  rw [List.mapM_cons]
  show (Option.map _ name.toString?).bind _ = none
  rw [h]
  rfl

theorem mem_of_named {ms : List (Json.Text × Json)} {ns : List (String × Json)} (h : named? ms = some ns)
    {name : String} : .ofString name ∈ ms.map Prod.fst ↔ name ∈ ns.map Prod.fst := by
  have hm : ms.map Prod.fst = (ns.map Prod.fst).map Json.Text.ofString := by
    rw [named?_eq_some.mp h, List.map_map, List.map_map]
    rfl
  rw [hm]
  exact List.mem_map_of_injective fun _ _ => Json.Text.ofString_inj.mp

theorem named?_perm {ms ms' : List (Json.Text × Json)} (h : ms.Perm ms') {ns : List (String × Json)}
    (hn : named? ms = some ns) : ∃ ns', named? ms' = some ns' ∧ ns'.Perm ns := by
  have hp : ms'.Perm (ns.map fun p => (Json.Text.ofString p.1, p.2)) := by
    have hm := named?_eq_some.mp hn
    exact h.symm.trans (.of_eq hm)
  obtain ⟨ns', hn', hp'⟩ := (iff_of_eq (congrFun₂ (List.eq_map_comp_perm _) ms' ns)).mpr hp
  exact ⟨ns', named?_eq_some.mpr hn', hp'⟩

namespace Fields

variable {fs : Fields} {ms ms' : List (Json.Text × Json)}

theorem decode_of_perm (h : ms.Perm ms') {m : fs.Model} (hm : fs.decode (.object ms) = some m) :
    fs.decode (.object ms') = some m := by
  obtain ⟨ns, hn, hm⟩ := Option.bind_eq_some_iff.mp hm
  obtain ⟨ns', hn', hp⟩ := named?_perm h hn
  have hc : fs.ofMembers ns' = fs.ofMembers ns := ofMembers_congr fun _ _ => hp.filter _
  exact Option.bind_eq_some_iff.mpr ⟨ns', hn', hc.trans hm⟩

theorem decode_perm (h : ms.Perm ms') : fs.decode (.object ms') = fs.decode (.object ms) :=
  Option.ext fun _ => ⟨decode_of_perm h.symm, decode_of_perm h⟩

theorem decode_object_cons (name : String) (j : Json) (ms : List (Json.Text × Json)) :
    fs.decode (.object ((.ofString name, j) :: ms)) = (named? ms).bind fun ns => fs.ofMembers ((name, j) :: ns) := by
  show (named? _).bind fs.ofMembers = _
  rw [named?_cons, Option.bind_map]
  rfl

/-! ## Edits of one object -/

theorem decode_extended (h : fs.Extended ms ms') : fs.decode (.object ms') = fs.decode (.object ms) := by
  cases h with
  | reordered order => exact decode_perm order
  | unknown other j =>
    rw [decode_object_cons]
    exact Option.bind_congr fun ns _ => ofMembers_cons_of_notMem other j ns
  | ignored other j j' =>
    rw [decode_object_cons, decode_object_cons]
    refine Option.bind_congr fun ns _ => ?_
    rw [ofMembers_cons_of_notMem other, ofMembers_cons_of_notMem other]
  | null known absent =>
    rw [decode_object_cons]
    refine Option.bind_congr fun ns hn => ?_
    rw [mem_of_named hn] at absent
    exact ofMembers_congr_read fun p _ => readMember_cons_null absent p.1.member

theorem decode_spoiled (h : fs.Spoiled ms ms') : fs.decode (.object ms') = none := by
  cases h with
  | repeated known present j order =>
    obtain ⟨a, ha, rfl⟩ := List.mem_map.mp known
    obtain ⟨⟨a, k⟩, own, rfl⟩ := List.mem_map.mp ha
    rw [decode_perm order, decode_object_cons]
    refine Option.bind_eq_none_iff.mpr fun ns hn => ?_
    rw [mem_of_named hn] at present
    exact ofMembers_eq_none own (readMember_of_twice present j)
  | unspelled surrogate j order =>
    rw [decode_perm order]
    exact Option.bind_eq_none_iff.mpr fun ns hn => absurd hn (by simp [named?_of_surrogate surrogate])

end Fields

/-! ## Edits at any depth -/

section
variable {P : MemberEdit} {k : Kind} {j j' : Json}

theorem Fields.Distinct.kind : ∀ {fs : Fields} {a : Attribute} {k : Kind}, fs.Distinct → (a, k) ∈ fs.toList → k.Distinct
  | .cons _ _ _, a, k, hd, own => by
    rcases List.mem_cons.mp own with e | own
    · cases e
      exact hd.2.1
    · exact hd.2.2.kind own

theorem exists_mapM_eq_bind {α β : Type} (f : α → Option β) (before after : List α) :
    ∃ g : β → Option (List β), ∀ a, (before ++ a :: after).mapM f = (f a).bind g := by
  refine ⟨fun b => (before.mapM f).bind fun l => (after.mapM f).bind fun r => some (l ++ b :: r), fun a => ?_⟩
  rw [List.mapM_append, List.mapM_cons]
  cases before.mapM f <;> cases f a <;> cases after.mapM f <;> rfl

theorem Fields.exists_decode_eq_bind {fs : Fields} {a : Attribute} {k : Kind} (hd : fs.Distinct)
    (own : (a, k) ∈ fs.toList) (before after : List (Json.Text × Json)) : ∃ f : Option k.Model → Option fs.Model,
      ∀ j, fs.decode (.object (before ++ (.ofString a.member, j) :: after)) = (nullable k.decode j).bind f := by
  cases hn : named? (before ++ after) with
  | none =>
    refine ⟨fun _ => none, fun j => ?_⟩
    rw [decode_perm List.perm_middle.symm, decode_object_cons, hn, Option.bind_none, Option.bind_fun_none]
  | some ns =>
    obtain ⟨f, hf⟩ := exists_ofMembers_eq_bind hd own ns
    refine ⟨f, fun j => ?_⟩
    rw [decode_perm List.perm_middle.symm, decode_object_cons, hn, Option.bind_some, hf]

/-- What is edited is a container, and so not null. -/
theorem Kind.Edited.bind_nullable {α : Type} (h : k.Edited P j j') (f : Option k.Model → Option α) :
    (nullable k.decode j).bind f = (k.decode j).bind (fun x => f (some x)) ∧
      (nullable k.decode j').bind f = (k.decode j').bind (fun x => f (some x)) := by
  cases h <;> exact ⟨Option.bind_map .., Option.bind_map ..⟩

/-- The documents are read in one way from what is read of two objects in them, and cannot be read without it. -/
def Kind.ReadThrough (P : MemberEdit) (k : Kind) (j j' : Json) : Prop :=
  ∃ (fs : Fields) (ms ms' : List (Json.Text × Json)) (f : fs.Model → Option k.Model), P fs ms ms' ∧
    k.decode j = (fs.decode (.object ms)).bind f ∧ k.decode j' = (fs.decode (.object ms')).bind f

theorem Kind.ReadThrough.within {l : Kind} {i i' : Json} (h : k.ReadThrough P i i') (g : k.Model → Option l.Model)
    (hj : l.decode j = (k.decode i).bind g) (hj' : l.decode j' = (k.decode i').bind g) : l.ReadThrough P j j' := by
  obtain ⟨fs, ms, ms', f, edit, hi, hi'⟩ := h
  refine ⟨fs, ms, ms', fun m => (f m).bind g, edit, ?_, ?_⟩
  · rw [hj, hi, Option.bind_assoc]
  · rw [hj', hi', Option.bind_assoc]

theorem Kind.Edited.readThrough (hd : k.Distinct) (h : k.Edited P j j') : k.ReadThrough P j j' := by
  -- on the place of the edit, outermost level first: each level adds one way of going on from what is within
  induction h with
  | @here fs ms ms' edit =>
    exact ⟨fs, ms, ms', some, edit, (Option.bind_fun_some _).symm, (Option.bind_fun_some _).symm⟩
  | @member fs a k i i' before after own inside ih =>
    obtain ⟨g, hg⟩ := Fields.exists_decode_eq_bind hd own before after
    obtain ⟨hi, hi'⟩ := inside.bind_nullable g
    exact (ih (hd.kind own)).within _ ((hg i).trans hi) ((hg i').trans hi')
  | @entry fs a k i i' before after own inside ih =>
    obtain ⟨g, hg⟩ := Fields.exists_ofItems_eq_bind before after own
    obtain ⟨hi, hi'⟩ := inside.bind_nullable g
    exact (ih (hd.kind (List.mem_of_getElem? own))).within _ ((hg i).trans hi) ((hg i').trans hi')
  | @item fs i i' before after inside ih =>
    obtain ⟨g, hg⟩ := exists_mapM_eq_bind fs.decode before after
    exact (ih hd).within g (hg i) (hg i')

end

section
variable {k : Kind} (hd : k.Distinct) {j j' : Json}
include hd

theorem Kind.decode_extended (h : k.Edited Fields.Extended j j') : k.decode j' = k.decode j := by
  obtain ⟨fs, ms, ms', f, edit, hj, hj'⟩ := h.readThrough hd
  rw [hj, hj', fs.decode_extended edit]

theorem Kind.decode_spoiled (h : k.Edited Fields.Spoiled j j') : k.decode j' = none := by
  obtain ⟨fs, ms, ms', f, edit, -, hj'⟩ := h.readThrough hd
  rw [hj', fs.decode_spoiled edit, Option.bind_none]

/-- Any number of extensions, wherever they are, changes nothing. -/
theorem Kind.decode_extensions (h : Relation.ReflTransGen (k.Edited Fields.Extended) j j') :
    k.decode j' = k.decode j := by
  induction h with
  | refl => rfl
  | tail _ step ih => exact (decode_extended hd step).trans ih

end

end ProtectionProvider
