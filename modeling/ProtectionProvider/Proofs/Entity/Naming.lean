import ProtectionProvider.Group.Basic
import ProtectionProvider.Proofs.Policy.Entities

/-!
# The names of attributes

A document holds each attribute under the camel case of its name, with one exception. Within one
table all names differ. The tables that are nested in a listed one are listed too (`nested_tables`),
so that this is so at every depth of them (`wellNamed_tables`).
-/

namespace ProtectionProvider

def documentName (name : String) : String :=
  if name = "is_cbs_enabled" then "isCBSEnabled" else Text.camelCase name

def allEntities : List (String × Fields) := Policy.entities ++ Group.entities ++ Reporting.entities

def listings : List (String × Fields) := [
  ("ProtectionPoliciesResponse", Policy.listed),
  ("ProtectionGroupsResponse", Group.listed),
  ("ProtectionGroupRunsResponse", Group.listedRuns),
  ("ReportsResponse", Reporting.listed)]

def tables : List (String × Fields) := listings ++ allEntities

example : allEntities.length = 59 ∧ tables.length = 63 := ⟨rfl, rfl⟩

/-! ## Properties of nested tables -/

mutual
def Kind.Deeply (P : Fields → Prop) : Kind → Prop
  | .object fs | .objects fs => P fs ∧ fs.Deeply P
  | .string | .number | .bool | .strings => True
/-- `P` holds of the tables that are nested in the table, at every depth. -/
def Fields.Deeply (P : Fields → Prop) : Fields → Prop
  | .nil => True
  | .cons _ k fs => k.Deeply P ∧ fs.Deeply P
end

section
variable {P : Fields → Prop} {l : List Fields} (hP : ∀ fs ∈ l, P fs) (hl : ∀ fs ∈ l, ∀ gs ∈ fs.nested, gs ∈ l)
include hP hl

theorem Fields.deeply_of_nested : ∀ fs : Fields, (∀ gs ∈ fs.nested, gs ∈ l) → fs.Deeply P
  | .nil, _ => trivial
  | .cons a k fs, h => by
    have hr : ∀ gs ∈ fs.nested, gs ∈ l := by
      intro gs hg
      obtain ⟨p, hp, hk⟩ := List.mem_filterMap.mp hg
      exact h gs (List.mem_filterMap.mpr ⟨p, List.mem_cons_of_mem _ hp, hk⟩)
    refine ⟨?_, deeply_of_nested fs hr⟩
    cases k with
    | object gs | objects gs =>
      have hg : gs ∈ l := h gs (List.mem_filterMap.mpr ⟨_, List.mem_cons_self, rfl⟩)
      exact ⟨hP gs hg, deeply_of_nested gs (hl gs hg)⟩
    | string | number | bool | strings => trivial

theorem Fields.deeply_of_mem {fs : Fields} (h : fs ∈ l) : P fs ∧ fs.Deeply P :=
  ⟨hP fs h, deeply_of_nested hP hl fs (hl fs h)⟩

end

/-! ## Regular tables -/

structure Fields.Regular (fs : Fields) : Prop where
  names : (fs.attributes.map Attribute.name).Nodup
  members : fs.names = fs.attributes.map fun a => documentName a.name
  distinct : fs.names.Nodup

abbrev Fields.WellNamed (fs : Fields) : Prop := fs.Regular ∧ fs.Deeply Fields.Regular

mutual
theorem Kind.distinct_of_deeply : ∀ {k : Kind}, k.Deeply Fields.Regular → k.Distinct
  | .object _, h | .objects _, h => Fields.distinct_of_deeply h.1.distinct h.2
  | .string, _ | .number, _ | .bool, _ | .strings, _ => trivial
theorem Fields.distinct_of_deeply : ∀ {fs : Fields}, fs.names.Nodup → fs.Deeply Fields.Regular → fs.Distinct
  | .nil, _, _ => trivial
  | .cons _ _ _, hn, h =>
    ⟨(List.nodup_cons.mp hn).1, Kind.distinct_of_deeply h.1, Fields.distinct_of_deeply (List.nodup_cons.mp hn).2 h.2⟩
end

theorem Fields.WellNamed.distinct {fs : Fields} (h : fs.WellNamed) : fs.Distinct :=
  distinct_of_deeply h.1.distinct h.2

theorem Fields.Regular.member {fs : Fields} (h : fs.Regular) {a : Attribute} (ha : a ∈ fs.attributes) :
    a.member = documentName a.name :=
  List.map_inj_left.mp h.members a ha

/-! ## The listed tables -/

theorem nested_tables : ∀ gs ∈ tables.flatMap (fun e => e.2.nested), gs ∈ tables.map Prod.snd := by
  -- each table is found by its name, so that none has to be compared in full
  repeat refine List.forall_mem_cons.mpr ⟨by simp only [tables, listings, allEntities, Policy.entities, Group.entities,
    Reporting.entities, List.cons_append, List.nil_append, List.map_cons, List.mem_cons, true_or, or_true], ?_⟩
  exact List.forall_mem_nil _

theorem members_tables : tables.map (fun e => e.2.names) =
    tables.map fun e => e.2.attributes.map fun a => documentName a.name := rfl

theorem names_tables : ∀ e ∈ tables, (e.2.attributes.map Attribute.name).Nodup := by decide +kernel

theorem distinct_tables : ∀ e ∈ tables, e.2.names.Nodup := by decide +kernel

theorem wellNamed_tables : ∀ e ∈ tables, e.2.WellNamed := by
  intro e he
  have hP : ∀ fs ∈ tables.map Prod.snd, fs.Regular := by
    intro fs hfs
    obtain ⟨e, he, rfl⟩ := List.mem_map.mp hfs
    exact ⟨names_tables e he, List.map_inj_left.mp members_tables e he, distinct_tables e he⟩
  have hl : ∀ fs ∈ tables.map Prod.snd, ∀ gs ∈ fs.nested, gs ∈ tables.map Prod.snd := by
    intro fs hfs gs hg
    obtain ⟨e, he, rfl⟩ := List.mem_map.mp hfs
    exact nested_tables gs (List.mem_flatMap.mpr ⟨e, he, hg⟩)
  exact Fields.deeply_of_mem hP hl (List.mem_map_of_mem he)

theorem wellNamed_entities : ∀ e ∈ allEntities, e.2.WellNamed := by
  intro e he
  exact wellNamed_tables e (List.mem_append_right _ he)

end ProtectionProvider
