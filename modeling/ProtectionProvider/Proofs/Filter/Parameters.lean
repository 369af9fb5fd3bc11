import ProtectionProvider.DataSource.Basic
import ProtectionProvider.Proofs.Entity.Naming

/-!
# Parameters read back

Each filter has a parameter of its own, and what the filter is set to is read off that parameter
(`ofQuery_query`). Of lists this is so where an element is there and none has a comma in it, for a list
is sent as one text with commas between its elements.
-/

namespace ProtectionProvider

/-! ## Texts -/

def Text.ofDecimal : List Char → Int
  | '-' :: digits => -Nat.ofDigitChars 10 digits 0
  | digits => Nat.ofDigitChars 10 digits 0

theorem Text.ofDecimal_of_isDigit {digits : List Char} (h : ∀ c ∈ digits, c.isDigit = true) :
    ofDecimal digits = Nat.ofDigitChars 10 digits 0 := by
  unfold ofDecimal
  split
  · exact absurd (h '-' List.mem_cons_self) (by decide)
  · rfl

theorem Text.ofDecimal_decimal (n : Int) : ofDecimal (decimal n) = n := by
  cases n with
  | ofNat n =>
    have h : ∀ c ∈ Nat.toDigits 10 n, c.isDigit = true := fun c => Nat.isDigit_of_mem_toDigits (by decide) (by decide)
    rw [decimal, ofDecimal_of_isDigit h, Nat.ofDigitChars_ten_toDigits]
    rfl
  | negSucc n =>
    show -(Nat.ofDigitChars 10 (Nat.toDigits 10 (n + 1)) 0 : Int) = _
    rw [Nat.ofDigitChars_ten_toDigits]
    rfl

theorem Text.ofList_decimal (n : Int) : String.ofList (decimal n) = toString n := by
  cases n with
  | ofNat n => rfl
  | negSucc n => exact String.ofList_cons

/-! ## Kinds -/

namespace Kind

def ofQuery? : (k : Kind) → String → Option k.Model
  | .string, s => some s
  | .number, s => some (Int64.ofInt (Text.ofDecimal s.toList))
  | .bool, s => some (s == "true")
  | .strings, s => some ((s.toList.splitOn ',').map String.ofList)
  | .object _, _ | .objects _, _ => none

/-- Of a list there is an element, and none has what is put between them. -/
def Separable : (k : Kind) → k.Model → Prop
  | .strings, (l : List String) => l ≠ [] ∧ ∀ s ∈ l, ',' ∉ s.toList
  | _, _ => True

instance decideSeparable : (k : Kind) → (x : k.Model) → Decidable (k.Separable x)
  | .strings, (l : List String) => inferInstanceAs (Decidable (l ≠ [] ∧ ∀ s ∈ l, ',' ∉ s.toList))
  | .string, _ | .number, _ | .bool, _ | .object _, _ | .objects _, _ => .isTrue trivial

theorem splitOn_intercalate {l : List String} (h : Kind.strings.Separable l) :
    ((",".intercalate l).toList.splitOn ',').map String.ofList = l := by
  have hs : (List.intercalate [','] (l.map String.toList)).splitOn ',' = l.map String.toList := by
    apply List.splitOn_intercalate
    · intro cs hc
      obtain ⟨s, hs, rfl⟩ := List.mem_map.mp hc
      exact h.2 s hs
    · simpa using h.1
  have hj : (",".intercalate l).toList = List.intercalate [','] (l.map String.toList) := String.toList_intercalate
  rw [hj, hs, List.map_map]
  exact List.map_id'' (fun _ => String.ofList_toList) l

theorem exists_query? : ∀ {k : Kind}, (k.Deeply fun _ => False) → ∀ {x : k.Model}, k.Separable x →
    ∃ text, k.query? x = some text ∧ k.ofQuery? text = some x
  | .string, _, s, _ => ⟨s, rfl, rfl⟩
  | .number, _, (n : Int64), _ => by
    refine ⟨_, rfl, ?_⟩
    simp only [ofQuery?, String.toList_ofList, Text.ofDecimal_decimal, Int64.ofInt_toInt]
  | .bool, _, (b : Bool), _ => by
    refine ⟨_, rfl, ?_⟩
    cases b <;> rfl
  | .strings, _, _, h => ⟨_, rfl, congrArg some (splitOn_intercalate h)⟩
  | .object _, hk, _, _ | .objects _, hk, _, _ => hk.1.elim

end Kind

/-! ## Tables -/

namespace Fields

def ofQuery : (fs : Fields) → List (String × String) → fs.Model
  | .nil, _ => ()
  | .cons a k fs, pairs => ((pairs.lookup a.member).bind k.ofQuery?, fs.ofQuery pairs)

def Separable : (fs : Fields) → fs.Model → Prop
  | .nil, () => True
  | .cons _ k fs, (v, m) => (∀ x ∈ v, k.Separable x) ∧ fs.Separable m

instance decideSeparable : (fs : Fields) → (m : fs.Model) → Decidable (fs.Separable m)
  | .nil, () => .isTrue trivial
  | .cons _ k fs, (v, m) =>
    haveI := decideSeparable fs m
    inferInstanceAs (Decidable ((∀ x ∈ v, k.Separable x) ∧ fs.Separable m))

theorem keys_query_sublist : ∀ (fs : Fields) (m : fs.Model), ((fs.query m).map Prod.fst).Sublist fs.names
  | .nil, _ => .slnil
  | .cons a k fs, (v, m) => by
    have ih := keys_query_sublist fs m
    show (((_ : Option _).toList ++ fs.query m).map Prod.fst).Sublist (a.member :: fs.names)
    cases v.bind k.query? with
    | none => exact ih.cons a.member
    | some text => exact ih.cons_cons a.member

theorem lookup_query_of_notMem {fs : Fields} {name : String} (h : name ∉ fs.names) (m : fs.Model) :
    (fs.query m).lookup name = none := by
  apply List.lookup_eq_none_iff.mpr
  intro p hp
  have hn : p.1 ∈ fs.names := (fs.keys_query_sublist m).subset (List.mem_map_of_mem hp)
  have hne : name ≠ p.1 := fun e => h (e ▸ hn)
  simp [hne]

theorem ofQuery_cons_of_notMem {name : String} (text : String) (pairs : List (String × String)) :
    ∀ {fs : Fields}, name ∉ fs.names → fs.ofQuery ((name, text) :: pairs) = fs.ofQuery pairs
  | .nil, _ => rfl
  | .cons a _ _, h => by
    have hne : (a.member == name) = false := beq_false_of_ne fun e => h (e ▸ List.mem_cons_self)
    have hr := ofQuery_cons_of_notMem text pairs fun hm => h (List.mem_cons_of_mem _ hm)
    rw [ofQuery, ofQuery, List.lookup_cons, hne, hr]

theorem ofQuery_query : ∀ {fs : Fields}, fs.names.Nodup → (fs.Deeply fun _ => False) → ∀ {m : fs.Model},
    fs.Separable m → fs.ofQuery (fs.query m) = m
  | .nil, _, _, (), _ => rfl
  | .cons a k fs, hn, hk, (none, m), h => by
    obtain ⟨ha, hn⟩ := List.nodup_cons.mp hn
    -- nothing is sent of this filter, and no other has its name
    have hl : (fs.query m).lookup a.member = none := lookup_query_of_notMem ha m
    show (((fs.query m).lookup a.member).bind k.ofQuery?, fs.ofQuery (fs.query m)) = _
    rw [hl, ofQuery_query hn hk.2 h.2]
    rfl
  | .cons a k fs, hn, hk, (some x, m), h => by
    obtain ⟨ha, hn⟩ := List.nodup_cons.mp hn
    obtain ⟨text, ht, hx⟩ := Kind.exists_query? hk.1 (h.1 x rfl)
    have hq : (Fields.cons a k fs).query (some x, m) = (a.member, text) :: fs.query m := by
      simp [query, ht]
    rw [hq]
    refine Prod.ext ?_ ((ofQuery_cons_of_notMem text _ ha).trans (ofQuery_query hn hk.2 h.2))
    simp [ofQuery, hx]

end Fields

namespace DataSource

theorem names_filters (d : DataSource) : d.filters.names = d.filters.attributes.map fun a => Text.camelCase a.name := by
  cases d <;> rfl

theorem nodup_filters : ∀ d : DataSource, d.filters.names.Nodup := by
  intro d
  cases d <;> decide +kernel

theorem flat_filters (d : DataSource) : d.filters.Deeply fun _ => False := by
  refine Fields.deeply_of_nested (l := []) (by simp) (by simp) d.filters ?_
  cases d <;> exact List.forall_mem_nil _

/-- All that is set is read off the parameters, so that filters that are set otherwise ask for something
else. -/
theorem query_eq_iff (d : DataSource) {o o' : d.filters.Model} (h : d.filters.Separable o)
    (h' : d.filters.Separable o') :
    d.filters.ofQuery (d.filters.query o) = o ∧ (d.filters.query o = d.filters.query o' ↔ o = o') := by
  have ho := Fields.ofQuery_query d.nodup_filters d.flat_filters h
  have ho' := Fields.ofQuery_query d.nodup_filters d.flat_filters h'
  refine ⟨ho, fun e => ?_, congrArg _⟩
  rw [← ho, e, ho']

def blankOptions : Filter.run.Model := (some "", some ["a", ""], some false, none, none, ())

def otherOptions : Filter.run.Model := (none, some ["a"], none, some false, none, ())

theorem query_eq_iff_blank : Filter.run.Separable blankOptions ∧ Filter.run.Separable otherOptions ∧
    Filter.run.query blankOptions ≠ Filter.run.query otherOptions := by
  have h : Filter.run.Separable blankOptions := by decide +kernel
  have h' : Filter.run.Separable otherOptions := by decide +kernel
  refine ⟨h, h', fun e => ?_⟩
  have he : blankOptions = otherOptions := (query_eq_iff .run h h').2.mp e
  cases he

-- a comma in an element is lost, and a list of nothing is taken for one of an empty text
example : Filter.reports.query (some ["a,b"], ()) = Filter.reports.query (some ["a", "b"], ()) ∧
    Filter.reports.query (some [], ()) = Filter.reports.query (some [""], ()) := ⟨rfl, rfl⟩

end DataSource

end ProtectionProvider
