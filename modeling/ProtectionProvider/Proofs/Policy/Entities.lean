import ProtectionProvider.Policy.Basic
import ProtectionProvider.Proofs.Entity.Codec
import ProtectionProvider.Proofs.Entity.Settled

/-!
# The entities of a policy

The listed entities are those of the whole tree (`follow?_mem_entities`), and a model of any of them
is what its state stands for. No two attributes of a policy share a name, so that its models are
read back from JSON as they were written.
-/

namespace ProtectionProvider

def Fields.nested (fs : Fields) : List Fields :=
  fs.toList.filterMap fun
    | (_, .object gs) | (_, .objects gs) => some gs
    | _ => none

theorem Fields.follow?_cons {fs gs : Fields} {name : String} {path : List String}
    (h : fs.follow? (name :: path) = some gs) : ∃ hs ∈ fs.nested, hs.follow? path = some gs := by
  rw [follow?] at h
  split at h
  · rename_i a hs hf
    exact ⟨hs, List.mem_filterMap.mpr ⟨_, List.mem_of_find?_eq_some hf, rfl⟩, h⟩
  · rename_i a hs hf
    exact ⟨hs, List.mem_filterMap.mpr ⟨_, List.mem_of_find?_eq_some hf, rfl⟩, h⟩
  · cases h

namespace Policy

/-! ## The tree -/

theorem nested_entities : ∀ gs ∈ entities.flatMap (fun e => e.2.nested), gs ∈ entities.map Prod.snd := by
  -- each table is one of the entities by name, so that none has to be compared in full
  repeat refine List.forall_mem_cons.mpr ⟨by simp only [entities, List.map_cons, List.mem_cons, true_or, or_true], ?_⟩
  exact List.forall_mem_nil _

theorem follow?_mem_entities {path : List String} {gs : Fields} (h : protectionPolicy.follow? path = some gs) :
    gs ∈ entities.map Prod.snd := by
  have step : ∀ {path : List String} {fs : Fields}, fs ∈ entities.map Prod.snd → fs.follow? path = some gs →
      gs ∈ entities.map Prod.snd := by
    intro path
    induction path with
    | nil =>
      intro fs hfs h
      cases h
      exact hfs
    | cons name path ih =>
      intro fs hfs h
      obtain ⟨hs, hn, hp⟩ := Fields.follow?_cons h
      obtain ⟨e, he, rfl⟩ := List.mem_map.mp hfs
      exact ih (nested_entities hs (List.mem_flatMap.mpr ⟨e, he, hn⟩)) hp
  exact step List.mem_cons_self h

/-! ## Models and states -/

/-- The state of a model of any entity stands for that model: what is absent is null, and everything
else is a value, the empty ones too. -/
theorem expand_flatten_entity : ∀ e ∈ entities, ∀ m : e.2.Model,
    e.2.expand (e.2.flatten m) = m ∧
      ∀ {k : Kind} (p : Place e.2 k), (e.2.flatten m).get p = .ofOption ((m.get p).map k.flatten) := by
  intro e _ m
  exact ⟨Fields.expand_flatten e.2 m, fun p => Fields.get_flatten p m⟩

def emptyRetention : retention.Model := (some "", some (0 : Int64), some (none, none, some (0 : Int64), some false, ()), ())

theorem expand_flatten_emptyRetention :
    ("Retention", retention) ∈ entities ∧ retention.expand (retention.flatten emptyRetention) = emptyRetention :=
  have h : ("Retention", retention) ∈ entities := by simp [entities]
  ⟨h, (expand_flatten_entity _ h emptyRetention).1⟩

/-! ## Names -/

def version : Place protectionPolicy .number :=
  .there <| .there <| .there <| .there <| .there <| .there <| .there <| .there <| .there .here

def modified : Place protectionPolicy .number :=
  .there <| .there <| .there <| .there <| .there <| .there <| .there <| .there <| .there <| .there <| .there .here

example : version.entry.member = "version" ∧ modified.entry.member = "lastModificationTimeUsecs" := ⟨rfl, rfl⟩

theorem distinct : protectionPolicy.Distinct := by decide +kernel

def assignedNames : List String :=
  (protectionPolicy.attributes.filter fun a => a.role.assigned).map Attribute.member

def isAssignedName (name : String) : Bool := assignedNames.contains name

def isUserName (name : String) : Bool := !isAssignedName name

example : assignedNames = ["id", "version", "isCBSEnabled", "lastModificationTimeUsecs", "isUsable", "isReplicated",
    "numProtectionGroups", "numProtectedObjects"] := by decide +kernel

theorem isAssignedName_member : ∀ a ∈ protectionPolicy.attributes, isAssignedName a.member = a.role.assigned := by
  decide +kernel

end Policy

end ProtectionProvider
