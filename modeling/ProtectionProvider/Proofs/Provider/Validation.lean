import ProtectionProvider.Proofs.Entity.Completion
import ProtectionProvider.Provider

/-!
# Validation before all is known

A configuration may be validated before all of it is known. What is wrong with it then is wrong with all
its completions too, and one of them that is known in full has no other faults (`validations_patient`).
So what is not known yet is never the reason for an error.
-/

namespace ProtectionProvider

/-! ## Configurations -/

/-- Each attribute is the same, or was not known. -/
structure Provider.Config.Completed (c c' : Config) : Prop where
  endpoint : c.endpoint.Completed Eq c'.endpoint
  token : c.token.Completed Eq c'.token
  tenant : c.tenant.Completed Eq c'.tenant
  userAgent : c.userAgent.Completed Eq c'.userAgent

structure Provider.Config.Known (c : Config) : Prop where
  endpoint : c.endpoint ≠ .unknown
  token : c.token ≠ .unknown
  tenant : c.tenant ≠ .unknown
  userAgent : c.userAgent ≠ .unknown

def Provider.Config.unknown : Config := ⟨.unknown, .unknown, .unknown, .unknown⟩

structure DataSource.State.Completed {d : DataSource} (s t : d.State) : Prop where
  ids : d.ids.Completed s.ids t.ids
  filters : d.filters.Completed s.filters t.filters
  outputs : d.outputs.Completed s.outputs t.outputs

structure DataSource.State.Known {d : DataSource} (s : d.State) : Prop where
  ids : d.ids.Known (fun _ => true) s.ids
  filters : d.filters.Known (fun _ => true) s.filters
  outputs : d.outputs.Known (fun _ => true) s.outputs

def DataSource.State.unknown (d : DataSource) : d.State := ⟨.unknown _, .unknown _, .unknown _⟩

/-- A validation that holds nothing against what is not known yet. -/
structure Patient {C : Type} (Completed : C → C → Prop) (Known : C → Prop) (unknown : C) (validate : C → Outcome Unit) :
    Prop where
  /-- Every error is reported of all completions. -/
  persists : ∀ c c', Completed c c' → (validate c).errors.Sublist (validate c').errors
  accepts : ∀ c c', Completed c c' → (validate c').result = some () → (validate c).result = some ()
  /-- Some completion in full has the same errors. -/
  fills : ∀ c, ∃ c', Completed c c' ∧ Known c' ∧ validate c' = validate c
  waits : validate unknown = .ok ()

theorem Outcome.result_check {errors : List Diagnostic} : (check errors).result = some () ↔ errors = [] := by
  simp [check]

theorem patient_check {C : Type} {Completed : C → C → Prop} {Known : C → Prop} {unknown : C}
    {errors : C → List Diagnostic} (persists : ∀ c c', Completed c c' → (errors c).Sublist (errors c'))
    (fills : ∀ c, ∃ c', Completed c c' ∧ Known c' ∧ errors c' = errors c) (waits : errors unknown = []) :
    Patient Completed Known unknown fun c => .check (errors c) where
  persists := persists
  accepts c c' h hc := by
    have hs := persists c c' h
    rw [Outcome.result_check.mp hc] at hs
    exact Outcome.result_check.mpr (List.sublist_nil.mp hs)
  fills c := by
    obtain ⟨c', h, hk, he⟩ := fills c
    exact ⟨c', h, hk, congrArg Outcome.check he⟩
  waits := congrArg Outcome.check waits

/-! ## Texts that have to be there -/

section
variable {name : String} {v w : Value String}

theorem Diagnostic.missing_completed (h : v.Completed Eq w) : (missing name v).Sublist (missing name w) := by
  cases h with
  | unknown => exact List.nil_sublist _
  | null => exact List.Sublist.refl _
  | value inside => rw [inside]

theorem Diagnostic.missing_filled (h : missing name w = []) : missing name (v.filled w id) = missing name v := by
  cases v with
  | unknown => exact h
  | null | value => rfl

end

/-! ## The provider -/

namespace Provider

theorem endpointErrors_completed {v w : Value String} (h : v.Completed Eq w) :
    (endpointErrors v).Sublist (endpointErrors w) := by
  cases h with
  | unknown => exact List.nil_sublist _
  | null => exact List.Sublist.refl _
  | value inside => rw [inside]

theorem patient_validate : Patient Config.Completed Config.Known .unknown validate := by
  apply patient_check
  · intro c c' h
    exact (endpointErrors_completed h.endpoint).append (Diagnostic.missing_completed h.token)
  · intro c
    let c' : Config :=
      ⟨c.endpoint.filled (.value "http://-") id, c.token.filled (.value "-") id, c.tenant.filled .null id,
        c.userAgent.filled .null id⟩
    have hc : ∀ v w : Value String, v.Completed Eq (v.filled w id) := fun v w => v.completed_filled (fun _ => rfl) w
    have hk : ∀ v w : Value String, w ≠ .unknown → v.filled w id ≠ .unknown := by
      intro v w hw
      cases v with
      | unknown => exact hw
      | null | value => simp [Value.filled]
    have he : endpointErrors c'.endpoint = endpointErrors c.endpoint := by
      show endpointErrors (c.endpoint.filled _ id) = _
      cases c.endpoint with
      | unknown => decide
      | null | value => rfl
    have ht : Diagnostic.missing "auth_token" c'.token = Diagnostic.missing "auth_token" c.token :=
      Diagnostic.missing_filled (by decide)
    refine ⟨c', ⟨hc _ _, hc _ _, hc _ _, hc _ _⟩, ⟨?_, ?_, ?_, ?_⟩, ?_⟩
    · exact hk _ _ (by simp)
    · exact hk _ _ (by simp)
    · exact hk _ _ (by simp)
    · exact hk _ _ (by simp)
    · rw [he, ht]
  · rfl

end Provider

/-! ## Data sources -/

namespace DataSource

theorem required_ids : ∀ d : DataSource, ∀ a ∈ d.ids.attributes, a.role = .required := by
  intro d
  cases d <;> decide

theorem missingIds_completed : ∀ {ids : Fields} {s t : ids.State}, ids.Completed s t →
    (missingIds ids s).Sublist (missingIds ids t)
  | .nil, (), (), _ => List.Sublist.refl _
  | .cons _ k _, (_, _), (_, _), h => by
    have hr := missingIds_completed h.2
    cases k with
    | string => exact (Diagnostic.missing_completed h.1).append hr
    | _ => exact hr

theorem missingIds_filled : ∀ {ids : Fields} (s : ids.State), (∀ a ∈ ids.attributes, a.role = .required) →
    missingIds ids (ids.filled s) = missingIds ids s
  | .nil, (), _ => rfl
  | .cons a k fs, (v, s), h => by
    have hi : a.initial k.sample = .value k.sample := if_pos (h a List.mem_cons_self)
    have hr := missingIds_filled s fun b hb => h b (List.mem_cons_of_mem _ hb)
    cases k with
    | string =>
      have hv : Diagnostic.missing a.name (v.filled (a.initial Kind.string.sample) id) =
          Diagnostic.missing a.name v := by
        rw [hi]
        exact Diagnostic.missing_filled rfl
      exact congrArg₂ (· ++ ·) hv hr
    | _ => exact hr

theorem rangeErrors_completed {s t : Filter.runs.State} (h : Filter.runs.Completed s t) :
    (rangeErrors s).Sublist (rangeErrors t) := by
  have hs := h.get Filter.startTime
  have he := h.get Filter.endTime
  unfold rangeErrors
  generalize Fields.State.get Filter.startTime s = a, Fields.State.get Filter.startTime t = a' at hs ⊢
  generalize Fields.State.get Filter.endTime s = b, Fields.State.get Filter.endTime t = b' at he ⊢
  -- the range is judged only if both ends of it are known, and then they stay
  cases hs with
  | unknown | null => exact List.nil_sublist _
  | value start =>
    cases he with
    | unknown | null => exact List.nil_sublist _
    | value stop =>
      cases start
      cases stop
      exact List.Sublist.refl _

theorem rangeErrors_filled (s : Filter.runs.State) : rangeErrors (Filter.runs.filled s) = rangeErrors s := by
  have hs : Filter.startTime.entry.initial Kind.number.sample = .null := rfl
  have he : Filter.endTime.entry.initial Kind.number.sample = .null := rfl
  unfold rangeErrors
  rw [Fields.get_filled, Fields.get_filled, hs, he]
  cases Fields.State.get Filter.startTime s <;> cases Fields.State.get Filter.endTime s <;> rfl

theorem filterErrors_completed : ∀ {d : DataSource} {s t : d.filters.State}, d.filters.Completed s t →
    (filterErrors d s).Sublist (filterErrors d t)
  | .runs, _, _, h => rangeErrors_completed h
  | .policies, _, _, _ | .policy, _, _, _ | .groups, _, _, _ | .group, _, _, _ | .run, _, _, _ | .reports, _, _, _ =>
    List.Sublist.refl _

theorem filterErrors_filled : ∀ {d : DataSource} (s : d.filters.State),
    filterErrors d (d.filters.filled s) = filterErrors d s
  | .runs, s => rangeErrors_filled s
  | .policies, _ | .policy, _ | .groups, _ | .group, _ | .run, _ | .reports, _ => rfl

theorem patient_validate (d : DataSource) : Patient State.Completed State.Known (.unknown d) d.validate := by
  apply patient_check
  · intro s t h
    exact (missingIds_completed h.ids).append (filterErrors_completed h.filters)
  · intro s
    refine ⟨⟨d.ids.filled s.ids, d.filters.filled s.filters, d.outputs.filled s.outputs⟩, ?_, ?_, ?_⟩
    · exact ⟨d.ids.completed_filled _, d.filters.completed_filled _, d.outputs.completed_filled _⟩
    · exact ⟨d.ids.known_filled _, d.filters.known_filled _, d.outputs.known_filled _⟩
    · dsimp only
      rw [missingIds_filled _ d.required_ids, filterErrors_filled]
  · cases d <;> rfl

end DataSource

/-! ## Policies -/

namespace Policy.Resource

theorem settingsErrors_completed {v w : Value backupPolicy.State} (h : v.Completed backupPolicy.Completed w) :
    (settingsErrors v).Sublist (settingsErrors w) := by
  cases h with
  | unknown => exact List.nil_sublist _
  | null => exact List.Sublist.refl _
  | @value s t inside =>
    have hr := Fields.Completed.get regular inside
    unfold settingsErrors
    dsimp only
    generalize Fields.State.get regular s = a, Fields.State.get regular t = b at hr ⊢
    cases hr with
    | unknown => exact List.nil_sublist _
    | null => exact List.Sublist.refl _
    | value => exact List.Sublist.refl _

theorem settingsErrors_filled (v : Value backupPolicy.State) :
    settingsErrors (v.filled (.value backupPolicy.sample) backupPolicy.filled) = settingsErrors v := by
  cases v with
  | null => rfl
  | unknown => rfl
  | value s =>
    have hi : regular.entry.initial (Kind.object regularBackupPolicy).sample = .value regularBackupPolicy.sample := rfl
    unfold settingsErrors
    dsimp only [Value.filled]
    rw [Fields.get_filled, hi]
    cases Fields.State.get regular s <;> rfl

theorem patient_validate : Patient protectionPolicy.Completed (protectionPolicy.Known fun _ => true)
    (.unknown protectionPolicy) validate := by
  apply patient_check
  · intro s t h
    exact (Diagnostic.missing_completed (h.get name)).append (settingsErrors_completed (h.get settings))
  · intro s
    have hn : Diagnostic.missing "name" (Fields.State.get name (protectionPolicy.filled s)) =
        Diagnostic.missing "name" (Fields.State.get name s) := by
      rw [Fields.get_filled]
      exact Diagnostic.missing_filled rfl
    have hs : settingsErrors (Fields.State.get settings (protectionPolicy.filled s)) =
        settingsErrors (Fields.State.get settings s) := by
      rw [Fields.get_filled]
      exact settingsErrors_filled _
    refine ⟨protectionPolicy.filled s, protectionPolicy.completed_filled s, protectionPolicy.known_filled s, ?_⟩
    rw [hn, hs]
  · rfl

end Policy.Resource

/-! ## All validations -/

theorem validations_patient :
    Patient Provider.Config.Completed Provider.Config.Known .unknown Provider.validate ∧
      (∀ d : DataSource, Patient DataSource.State.Completed DataSource.State.Known (.unknown d) d.validate) ∧
      Patient Policy.protectionPolicy.Completed (Policy.protectionPolicy.Known fun _ => true)
        (.unknown Policy.protectionPolicy) Policy.Resource.validate :=
  ⟨Provider.patient_validate, DataSource.patient_validate, Policy.Resource.patient_validate⟩

open Fields.State (set unknown)

def openRuns : DataSource.runs.State where
  ids := (.null, ())
  filters := set Filter.startTime (.value (7 : Int64)) (unknown Filter.runs)
  outputs := unknown _

def closedRuns : DataSource.runs.State where
  ids := (.null, ())
  filters := set Filter.startTime (.value (7 : Int64)) (set Filter.endTime (.value (5 : Int64)) Filter.runs.sample)
  outputs := Fields.sample _

def namedPolicy : Policy.State :=
  set Policy.name (.value "p") (set Policy.settings (.value (unknown Policy.backupPolicy)) (unknown _))

def irregularPolicy : Policy.State :=
  set Policy.name (.value "p")
    (set Policy.settings (.value (set Policy.regular .null Policy.backupPolicy.sample)) (Fields.sample _))

theorem validations_patient_pending :
    (openRuns.Completed closedRuns ∧
        (DataSource.runs.validate openRuns).errors = [.nullAttribute "protection_group_id"] ∧
        (DataSource.runs.validate closedRuns).errors = [.nullAttribute "protection_group_id", .startAfterEnd] ∧
        (DataSource.runs.validate openRuns).errors.Sublist (DataSource.runs.validate closedRuns).errors) ∧
      Policy.protectionPolicy.Completed namedPolicy irregularPolicy ∧
        (Policy.Resource.validate irregularPolicy).errors = [.noRegularBackup] ∧
        (Policy.Resource.validate namedPolicy).errors.Sublist (Policy.Resource.validate irregularPolicy).errors ∧
        Policy.Resource.validate namedPolicy = .ok () := by
  have hr : openRuns.Completed closedRuns := by
    have he := Fields.completed_unknown (set Filter.endTime (.value (5 : Int64)) Filter.runs.sample)
    have hs : Value.Completed Kind.number.Completed (.value (7 : Int64)) (.value (7 : Int64)) := .value rfl
    have hf : Filter.runs.Completed openRuns.filters closedRuns.filters := he.set Filter.startTime hs
    exact ⟨⟨.null, trivial⟩, hf, Fields.completed_unknown _⟩
  have hp : Policy.protectionPolicy.Completed namedPolicy irregularPolicy := by
    refine Fields.Completed.set Policy.name (Fields.Completed.set Policy.settings ?_ (.value ?_)) (.value rfl)
    · exact Fields.completed_unknown _
    · exact Fields.completed_unknown _
  obtain ⟨-, hd, hv⟩ := validations_patient
  exact ⟨⟨hr, rfl, rfl, (hd .runs).persists _ _ hr⟩, hp, rfl, hv.persists _ _ hp, rfl⟩

end ProtectionProvider
