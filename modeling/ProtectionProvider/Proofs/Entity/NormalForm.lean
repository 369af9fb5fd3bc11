import ProtectionProvider.Proofs.Policy.Entities

/-!
# The normal form of a state

A model cannot say that a value is not known yet, nor that an element of a list of strings is missing.
A state that is expanded and flattened again loses that and nothing else (`flatten_expand_entity`), so
that the states of models are those without anything to lose.
-/

namespace ProtectionProvider

/-! ## Cleaning -/

def Value.cleaned {α : Type} (f : α → α) : Value α → Value α
  | .value a => .value (f a)
  | .null | .unknown => .null

mutual
/-- Unknown becomes null at every depth, and a list of strings keeps the elements that are there. -/
def Kind.cleaned : (k : Kind) → k.State → k.State
  | .string, s => s
  | .number, n => n
  | .bool, b => b
  | .strings, (l : List (Value String)) => l.filter fun v => decide v.IsValue
  | .object fs, s => fs.cleaned s
  | .objects fs, (l : List fs.State) => l.map fs.cleaned
def Fields.cleaned : (fs : Fields) → fs.State → fs.State
  | .nil, () => ()
  | .cons _ k fs, (v, s) => (v.cleaned k.cleaned, fs.cleaned s)
end

theorem Value.map_filterMap_toOption {α : Type} (l : List (Value α)) :
    (l.filterMap toOption).map value = l.filter fun v => decide v.IsValue := by
  induction l with
  | nil => rfl
  | cons v l ih =>
    cases v with
    | null => exact ih
    | unknown => exact ih
    | value a => exact congrArg (value a :: ·) ih

mutual
theorem Kind.flatten_expand_eq : ∀ (k : Kind) (s : k.State), k.flatten (k.expand s) = k.cleaned s
  | .string, _ => rfl
  | .number, _ => rfl
  | .bool, _ => rfl
  | .strings, l => Value.map_filterMap_toOption l
  | .object fs, s => Fields.flatten_expand_eq fs s
  | .objects fs, (l : List fs.State) => by
    show (l.map fs.expand).map fs.flatten = l.map fs.cleaned
    rw [List.map_map]
    apply List.map_congr_left
    intro s _
    exact Fields.flatten_expand_eq fs s
theorem Fields.flatten_expand_eq : ∀ (fs : Fields) (s : fs.State), fs.flatten (fs.expand s) = fs.cleaned s
  | .nil, () => rfl
  | .cons _ k fs, (v, s) => by
    refine Prod.ext ?_ (Fields.flatten_expand_eq fs s)
    cases v with
    | null => rfl
    | unknown => rfl
    | value x => exact congrArg Value.value (Kind.flatten_expand_eq k x)
end

/-! ## What is clean -/

section
variable (fs : Fields) (s : fs.State)

theorem Fields.clean_cleaned : fs.Clean (fun _ => true) (fs.cleaned s) := by
  rw [← flatten_expand_eq]
  exact settled_flatten (fun s => ⟨s, rfl⟩) fs _ _

variable {fs s}

theorem Fields.cleaned_of_clean (h : fs.Clean (fun _ => true) s) : fs.cleaned s = s := by
  rw [← flatten_expand_eq]
  exact State.eq_of_agree (flatten_expand fs s h)

theorem Fields.cleaned_eq_self_iff : fs.cleaned s = s ↔ fs.Clean (fun _ => true) s := by
  constructor
  · intro h
    rw [← h]
    exact clean_cleaned fs s
  · exact cleaned_of_clean

end

namespace Policy

theorem flatten_expand_entity : ∀ e ∈ entities, ∀ s : e.2.State,
    e.2.flatten (e.2.expand s) = e.2.cleaned s ∧
      e.2.flatten (e.2.expand (e.2.flatten (e.2.expand s))) = e.2.flatten (e.2.expand s) ∧
      (e.2.flatten (e.2.expand s) = s ↔ e.2.Clean (fun _ => true) s) := by
  intro e _ s
  have hc : e.2.flatten (e.2.expand s) = e.2.cleaned s := Fields.flatten_expand_eq e.2 s
  refine ⟨hc, ?_, ?_⟩
  · rw [hc, Fields.flatten_expand_eq]
    exact Fields.cleaned_of_clean (Fields.clean_cleaned e.2 s)
  · rw [hc]
    exact Fields.cleaned_eq_self_iff

def sketchedSchedule : schedule.State :=
  (.unknown, .value (.unknown, ()), .null, .unknown,
    .value (.value [.value "Monday", .null, .unknown, .value ""], ()),
    .value (.value [.unknown], .value "", .null, ()), .null, ())

theorem flatten_expand_sketchedSchedule :
    ("Schedule", schedule) ∈ entities ∧
      schedule.flatten (schedule.expand sketchedSchedule) =
        (.null, .value (.null, ()), .null, .null, .value (.value [.value "Monday", .value ""], ()),
          .value (.value [], .value "", .null, ()), .null, ()) ∧
      schedule.flatten (schedule.expand sketchedSchedule) ≠ sketchedSchedule := by
  have h : ("Schedule", schedule) ∈ entities := by simp [entities]
  obtain ⟨hn, -, hi⟩ := flatten_expand_entity _ h sketchedSchedule
  refine ⟨h, hn, fun hs => ?_⟩
  exact (hi.mp hs).1 rfl

end Policy

end ProtectionProvider
