import Mathlib.Data.List.Forall2
import ProtectionProvider.Proofs.Entity.Naming

/-!
# What a document says of an entity

A state mirrors a document if each of its attributes is what the document holds under the name of
that attribute, at every depth. A document in which entities are objects is mirrored by one state
only, which is the one that comes of reading it (`mirrors_iff_flatten`).
-/

namespace ProtectionProvider

def held (name : String) (ms : List (Json.Text × Json)) : List Json :=
  (ms.filter fun p => p.1 == Json.Text.ofString name).map Prod.snd

/-! ## Mirrors -/

/-- The attribute is null where nothing or null is held under its name, and otherwise the one value
that is held there, converted as `P` has it. -/
inductive Value.Mirrors {α : Type} (P : Json → α → Prop) : List Json → Value α → Prop where
  | absent : Mirrors P [] .null
  | null : Mirrors P [.null] .null
  | value {j : Json} {a : α} (present : j ≠ .null) (converted : P j a) : Mirrors P [j] (.value a)

mutual
def Kind.Mirrors : (k : Kind) → Json → k.State → Prop
  | .string, j, (s : String) => j = .str s
  | .number, j, (n : Int64) => j = .int n.toInt
  | .bool, j, (b : Bool) => j = .bool b
  | .strings, j, (l : List (Value String)) =>
    ∃ items, j = .array items ∧ List.Forall₂ (fun i v => ∃ s, i = .str s ∧ v = .value s) items l
  | .object fs, j, s => ∃ ms, j = .object ms ∧ fs.Mirrors ms s
  | .objects fs, j, (l : List fs.State) =>
    ∃ items, j = .array items ∧ List.Forall₂ (fun i s => ∃ ms, i = .object ms ∧ fs.Mirrors ms s) items l
/-- Each attribute is what the members hold under its name. -/
def Fields.Mirrors : (fs : Fields) → List (Json.Text × Json) → fs.State → Prop
  | .nil, _, () => True
  | .cons a k fs, ms, (v, s) => v.Mirrors k.Mirrors (held (documentName a.name) ms) ∧ fs.Mirrors ms s
end

/-! ## Entities as objects -/

/-- An entity that is written as an object, not as an array of its attributes. -/
def Json.Keyed (P : List (Json.Text × Json) → Prop) : Json → Prop
  | .object ms => P ms
  | .array _ => False
  | _ => True

instance (P : List (Json.Text × Json) → Prop) [DecidablePred P] : DecidablePred (Json.Keyed P)
  | .object ms => inferInstanceAs (Decidable (P ms))
  | .array _ => .isFalse id
  | .null | .bool _ | .int _ | .decimal _ | .string _ => .isTrue trivial

mutual
def Kind.Keyed : Kind → Json → Prop
  | .object fs, j => j.Keyed fs.Keyed
  | .objects fs, .array items => ∀ i ∈ items, i.Keyed fs.Keyed
  | _, _ => True
/-- All entities are written as objects, at every depth. -/
def Fields.Keyed : Fields → List (Json.Text × Json) → Prop
  | .nil, _ => True
  | .cons a k fs, ms => (∀ j ∈ held (documentName a.name) ms, k.Keyed j) ∧ fs.Keyed ms
end

mutual
def Kind.decideKeyed : (k : Kind) → (j : Json) → Decidable (k.Keyed j)
  | .object fs, j =>
    haveI := fs.decideKeyed
    inferInstanceAs (Decidable (j.Keyed fs.Keyed))
  | .objects fs, .array items =>
    haveI := fs.decideKeyed
    inferInstanceAs (Decidable (∀ i ∈ items, i.Keyed fs.Keyed))
  | .objects _, .null | .objects _, .bool _ | .objects _, .int _ | .objects _, .decimal _ | .objects _, .string _
  | .objects _, .object _ => .isTrue trivial
  | .string, _ | .number, _ | .bool, _ | .strings, _ => .isTrue trivial
def Fields.decideKeyed : (fs : Fields) → (ms : List (Json.Text × Json)) → Decidable (fs.Keyed ms)
  | .nil, _ => .isTrue trivial
  | .cons a k fs, ms =>
    haveI := k.decideKeyed
    haveI := fs.decideKeyed ms
    inferInstanceAs (Decidable ((∀ j ∈ held (documentName a.name) ms, k.Keyed j) ∧ fs.Keyed ms))
end

instance (k : Kind) (j : Json) : Decidable (k.Keyed j) := k.decideKeyed j

/-! ## One state mirrors a document -/

theorem Value.Mirrors.unique {α : Type} {P : Json → α → Prop} (hP : ∀ j a b, P j a → P j b → a = b)
    {l : List Json} {v w : Value α} (h : v.Mirrors P l) (h' : w.Mirrors P l) : v = w := by
  cases h with
  | absent => cases h'; rfl
  | null =>
    cases h' with
    | null => rfl
    | value present => exact absurd rfl present
  | value present converted =>
    cases h' with
    | null => exact absurd rfl present
    | value _ converted' => rw [hP _ _ _ converted converted']

mutual
theorem Kind.mirrors_unique : ∀ {k : Kind} {j : Json} {s t : k.State}, k.Mirrors j s → k.Mirrors j t → s = t
  | .string, _, _, _, h, h' => by
    obtain rfl := h
    exact Json.str_inj.mp h'
  | .number, _, _, _, h, h' => by
    obtain rfl := h
    exact Int64.toInt_inj.mp (Json.int.inj h')
  | .bool, _, _, _, h, h' => by
    obtain rfl := h
    exact Json.bool.inj h'
  | .strings, _, _, _, ⟨items, hj, h⟩, ⟨items', hj', h'⟩ => by
    obtain rfl := hj
    obtain rfl := Json.array.inj hj'
    refine List.right_unique_forall₂' ?_ h h'
    rintro i _ _ ⟨s, rfl, rfl⟩ ⟨t, ht, rfl⟩
    rw [Json.str_inj.mp ht]
  | .object _, _, _, _, ⟨ms, hj, h⟩, ⟨ms', hj', h'⟩ => by
    obtain rfl := hj
    obtain rfl := Json.object.inj hj'
    exact Fields.mirrors_unique h h'
  | .objects _, _, _, _, ⟨items, hj, h⟩, ⟨items', hj', h'⟩ => by
    obtain rfl := hj
    obtain rfl := Json.array.inj hj'
    refine List.right_unique_forall₂' ?_ h h'
    rintro i s t ⟨ms, rfl, hs⟩ ⟨ms', hm, ht⟩
    obtain rfl := Json.object.inj hm
    exact Fields.mirrors_unique hs ht
theorem Fields.mirrors_unique : ∀ {fs : Fields} {ms : List (Json.Text × Json)} {s t : fs.State}, fs.Mirrors ms s →
    fs.Mirrors ms t → s = t
  | .nil, _, (), (), _, _ => rfl
  | .cons _ k _, _, (_, _), (_, _), h, h' => by
    have hk : ∀ j a b, k.Mirrors j a → k.Mirrors j b → a = b := fun _ _ _ => Kind.mirrors_unique
    exact Prod.ext (h.1.unique hk h'.1) (Fields.mirrors_unique h.2 h'.2)
end

/-! ## What is read mirrors the document -/

theorem held_of_named {ts : List (Json.Text × Json)} {ms : List (String × Json)} (h : named? ts = some ms)
    (name : String) : held name ts = (withName name ms).map Prod.snd := by
  have hn : (fun p : Json.Text × Json => p.1 == Json.Text.ofString name) ∘
      (fun p : String × Json => (Json.Text.ofString p.1, p.2)) = fun p => p.1 == name := by
    funext p
    simp [Json.Text.ofString_inj]
  have ht : ts = ms.map fun p => (Json.Text.ofString p.1, p.2) := named?_eq_some.mp h
  rw [held, ht, List.filter_map, hn, List.map_map]
  rfl

theorem forall₂_of_mapM {α β : Type} {f : α → Option β} {xs : List α} {ys : List β} (h : xs.mapM f = some ys) :
    List.Forall₂ (fun x y => f x = some y) xs ys := by
  induction xs generalizing ys with
  | nil =>
    cases h
    exact .nil
  | cons x xs ih =>
    simp only [List.mapM_cons, Option.bind_eq_bind, Option.bind_eq_some_iff, Option.pure_def,
      Option.some.injEq] at h
    obtain ⟨y, hy, ys', hys, rfl⟩ := h
    exact .cons hy (ih hys)

theorem Value.mirrors_of_readMember {k : Kind} {P : Json → k.State → Prop} {name : String} {ms : List (String × Json)}
    {v : Option k.Model} (h : readMember k.decode name ms = some v)
    (hP : ∀ j ∈ (withName name ms).map Prod.snd, ∀ x, k.decode j = some x → P j (k.flatten x)) :
    (Value.ofOption (v.map k.flatten)).Mirrors P ((withName name ms).map Prod.snd) := by
  rcases readMember_eq_some h with ⟨hw, rfl⟩ | ⟨⟨name', j⟩, hw, hv⟩
  · rw [hw]
    exact .absent
  · rw [hw] at hP ⊢
    rcases nullable_eq_some hv with ⟨rfl, rfl⟩ | ⟨hj, x, hx, rfl⟩
    · exact .null
    · exact .value hj (hP j List.mem_cons_self x hx)

mutual
theorem Kind.mirrors_of_decode : ∀ {k : Kind}, k.Deeply Fields.Regular → ∀ {j : Json} {x : k.Model}, k.Keyed j →
    k.decode j = some x → k.Mirrors j (k.flatten x)
  | .string, _, j, x, _, h => by
    cases j with
    | string t => exact congrArg Json.string (Json.Text.toString?_eq_some.mp h)
    | _ => cases h
  | .number, _, _, _, _, h => (Kind.encode_of_decode_number h).symm
  | .bool, _, j, x, _, h => by
    cases j with
    | bool b =>
      cases h
      rfl
    | _ => cases h
  | .strings, _, j, x, _, h => by
    cases j with
    | array items =>
      refine ⟨items, rfl, List.forall₂_map_right_iff.mpr ((forall₂_of_mapM h).imp ?_)⟩
      intro i s hs
      cases i with
      | string t => exact ⟨s, congrArg Json.string (Json.Text.toString?_eq_some.mp hs), rfl⟩
      | _ => cases hs
    | _ => cases h
  | .object _, hr, j, x, hk, h => by
    cases j with
    | object ms =>
      obtain ⟨ns, hn, hm⟩ := Option.bind_eq_some_iff.mp h
      exact ⟨ms, rfl, Fields.mirrors_of_ofMembers (fun _ => hr.1.member) hr.2 hk hn hm⟩
    | array => exact hk.elim
    | _ => cases h
  | .objects _, hr, j, x, hk, h => by
    cases j with
    | array items =>
      refine ⟨items, rfl, List.forall₂_map_right_iff.mpr ?_⟩
      refine ((List.forall₂_and_left items _).mpr ⟨hk, forall₂_of_mapM h⟩).imp ?_
      rintro i m ⟨hi, hd⟩
      cases i with
      | object ms =>
        obtain ⟨ns, hn, hm⟩ := Option.bind_eq_some_iff.mp hd
        exact ⟨ms, rfl, Fields.mirrors_of_ofMembers (fun _ => hr.1.member) hr.2 hi hn hm⟩
      | array => exact hi.elim
      | _ => cases hd
    | _ => cases h
theorem Fields.mirrors_of_ofMembers : ∀ {fs : Fields}, (∀ a ∈ fs.attributes, a.member = documentName a.name) →
    fs.Deeply Fields.Regular → ∀ {ts : List (Json.Text × Json)} {ms : List (String × Json)} {m : fs.Model},
      fs.Keyed ts → named? ts = some ms → fs.ofMembers ms = some m → fs.Mirrors ts (fs.flatten m)
  | .nil, _, _, _, _, (), _, _, _ => trivial
  | .cons a k fs, ha, hr, ts, ms, (v, m), hk, hn, h => by
    obtain ⟨hv, hm⟩ := Fields.ofMembers_cons.mp h
    refine ⟨?_, Fields.mirrors_of_ofMembers (fun b hb => ha b (List.mem_cons_of_mem _ hb)) hr.2 hk.2 hn hm⟩
    have hname : a.member = documentName a.name := ha a List.mem_cons_self
    have hheld := hk.1
    rw [held_of_named hn, ← hname] at hheld ⊢
    exact Value.mirrors_of_readMember hv fun j hj x hx => Kind.mirrors_of_decode hr.1 (hheld j hj) hx
end

theorem mirrors_iff_flatten : ∀ e ∈ allEntities, ∀ {text : String} {j : Json} {m : e.2.Model},
    Json.read? text = some j → (Json.read? text).bind e.2.decode = some m → (Kind.object e.2).Keyed j →
      (∀ s : e.2.State, (Kind.object e.2).Mirrors j s ↔ s = e.2.flatten m) ∧
        e.2.Known (fun _ => true) (e.2.flatten m) := by
  intro e he text j m hj hm hk
  rw [hj] at hm
  have hs : (Kind.object e.2).Mirrors j (e.2.flatten m) :=
    Kind.mirrors_of_decode (k := .object e.2) (wellNamed_entities e he) hk hm
  refine ⟨fun s => ⟨?_, ?_⟩, Fields.settled_flatten (fun _ h => by cases h) e.2 _ m⟩
  · intro h
    exact Kind.mirrors_unique (k := .object e.2) h hs
  · intro h
    rw [h]
    exact hs

def windowsDocument : Json := .obj [
  ("isCbsEnabled", .bool false),
  ("blackoutWindow", .array [.obj [("startTime", .obj [("hour", .int 7), ("minute", .null)]), ("day", .str "Sunday")], .obj []]),
  ("version", .int (-9223372036854775808)),
  ("isCBSEnabled", .bool true),
  ("numProtectionGroups", .null)]

def windows : Policy.protectionPolicy.State :=
  (.null, .null, .null, .null,
    .value [(.value "Sunday", .value (.value (7 : Int64), .null, .null, ()), .null, .null, ()), (.null, .null, .null, .null, ())],
    .null, .null, .null, .null, .value Int64.minValue, .value true, .null, .null, .null, .null, .null, .null, ())

theorem windows_mirrored :
    ("ProtectionPolicy", Policy.protectionPolicy) ∈ allEntities ∧
      Json.read? windowsDocument.toString = some windowsDocument ∧
      (Json.read? windowsDocument.toString).bind Policy.protectionPolicy.decode =
        some (Policy.protectionPolicy.expand windows) ∧
      (Kind.object Policy.protectionPolicy).Keyed windowsDocument ∧
      (∀ s, (Kind.object Policy.protectionPolicy).Mirrors windowsDocument s ↔ s = windows) ∧
      Policy.protectionPolicy.Known (fun _ => true) windows := by
  have he : ("ProtectionPolicy", Policy.protectionPolicy) ∈ allEntities := List.mem_cons_self
  have hp : windowsDocument.Printable := by
    simp [windowsDocument, Json.obj, Json.str, Json.Printable, Json.PrintableMembers, Json.PrintableItems,
      Json.Text.scalar_ofString]
  have hj : Json.read? windowsDocument.toString = some windowsDocument := Json.read?_toString hp
  have hm : (Json.read? windowsDocument.toString).bind Policy.protectionPolicy.decode =
      some (Policy.protectionPolicy.expand windows) := by
    rw [hj]
    rfl
  have hk : (Kind.object Policy.protectionPolicy).Keyed windowsDocument := by
    decide +kernel
  exact ⟨he, hj, hm, hk, mirrors_iff_flatten _ he hj hm hk⟩

end ProtectionProvider
