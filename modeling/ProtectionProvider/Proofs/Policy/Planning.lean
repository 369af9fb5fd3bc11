import ProtectionProvider.Proofs.Policy.Operations

/-!
# Plans of changes

A plan depends on what the user proposes and on nothing that is proposed for the server's attributes.
It is the prior state if the user changes nothing, it is planned again as it is, and after it was
carried out nothing is left to plan (`planUpdate_planned`).
-/

namespace ProtectionProvider

def Role.planned {α : Type} (prior proposed : Value α) : Role → Value α
  | .required | .optional => proposed
  | .computed => prior
  | .revision => .unknown

namespace Policy.Resource

theorem planUpdate_of_changed {prior proposed : State} (h : ¬ SameUser proposed prior) (hidden : Private) :
    planUpdate prior proposed hidden =
      { state := .select isRevision (.unknown protectionPolicy) (assign prior proposed), hidden } := by
  have hk : ¬ SameUser (assign prior proposed) prior := by
    intro hs
    exact h ((sameUser_assign prior proposed).symm.trans hs)
  unfold planUpdate
  simp only [if_neg hk]

theorem get_planUpdate_of_changed {prior proposed : State} (h : ¬ SameUser proposed prior) (hidden : Private)
    {k : Kind} (p : Place protectionPolicy k) :
    (planUpdate prior proposed hidden).state.get p = p.entry.role.planned (prior.get p) (proposed.get p) := by
  have hu : (Fields.State.unknown protectionPolicy).get p = .unknown := Fields.State.get_unknown p
  rw [planUpdate_of_changed h]
  simp only [assign, Fields.State.get_select, hu]
  cases p.entry.role <;> rfl

theorem planUpdate_congr {proposed proposed' : State} (h : SameUser proposed' proposed) (prior : State)
    (hidden : Private) : planUpdate prior proposed' hidden = planUpdate prior proposed hidden := by
  have ha : assign prior proposed' = assign prior proposed := Fields.State.select_congr (.refl _ prior) h
  unfold planUpdate
  rw [ha]

section
variable (prior proposed : State) (hidden : Private)

theorem replaced_planUpdate : (planUpdate prior proposed hidden).replaced = [] := by
  unfold planUpdate
  dsimp only
  split <;> rfl

theorem hidden_planUpdate : (planUpdate prior proposed hidden).hidden = hidden := by
  unfold planUpdate
  dsimp only
  split <;> rfl

theorem planUpdate_eq_prior_iff : (planUpdate prior proposed hidden).state = prior ↔ SameUser proposed prior := by
  constructor
  · intro h
    have hs := sameUser_planUpdate prior proposed hidden
    rw [h] at hs
    exact hs.symm
  · intro h
    rw [planUpdate_of_same h]

theorem planUpdate_planUpdate :
    planUpdate prior (planUpdate prior proposed hidden).state (planUpdate prior proposed hidden).hidden =
      planUpdate prior proposed hidden := by
  rw [hidden_planUpdate]
  exact planUpdate_congr (sameUser_planUpdate prior proposed hidden) prior hidden

end

theorem planUpdate_of_update {slot : Option Client} {prior proposed planned : State} {hidden : Private}
    {answer : Http.Answer} {s : State × Private} (hp : SameUser planned proposed)
    (h : (update slot prior planned hidden answer).result = some s) :
    planUpdate s.1 proposed s.2 = { state := s.1, hidden := s.2 } := by
  obtain ⟨id, -, c, m, given, -, -, he⟩ := (update_cases slot hidden answer prior planned).resolve_left
    fun hn => Option.some_ne_none s (h.symm.trans hn)
  rw [he] at h
  cases h
  have hs : SameUser (answered given m planned) proposed := (sameUser_answered given m planned).trans hp
  exact planUpdate_of_same hs.symm hidden

structure Planned (prior proposed : State) (hidden : Private) (plan : Plan) : Prop where
  unchanged_iff : plan.state = prior ↔ SameUser proposed prior
  changed : ¬ SameUser proposed prior → ∀ {k : Kind} (p : Place protectionPolicy k),
    plan.state.get p = p.entry.role.planned (prior.get p) (proposed.get p)
  /-- What is proposed for the server's attributes does not matter. -/
  user : ∀ proposed', SameUser proposed' proposed → planUpdate prior proposed' hidden = plan
  replaced : plan.replaced = []
  hidden : plan.hidden = hidden
  again : planUpdate prior plan.state plan.hidden = plan
  /-- Once the plan is carried out, what was proposed asks for nothing more. -/
  done : ∀ slot answer s, (update slot prior plan.state plan.hidden answer).result = some s →
    planUpdate s.1 proposed s.2 = { state := s.1, hidden := s.2, replaced := [] }

theorem planUpdate_planned (prior proposed : State) (hidden : Private) :
    Planned prior proposed hidden (planUpdate prior proposed hidden) where
  unchanged_iff := planUpdate_eq_prior_iff prior proposed hidden
  changed h _ p := get_planUpdate_of_changed h hidden p
  user _ h := planUpdate_congr h prior hidden
  replaced := replaced_planUpdate prior proposed hidden
  hidden := hidden_planUpdate prior proposed hidden
  again := planUpdate_planUpdate prior proposed hidden
  done _ _ _ h := planUpdate_of_update (sameUser_planUpdate prior proposed hidden) h

example : protectionPolicy.attributes.map (fun a => (a.name, a.role.assigned, isRevision a.role)) =
    [("id", true, false), ("name", false, false), ("backup_policy", false, false), ("description", false, false),
      ("blackout_window", false, false), ("extended_retention", false, false), ("remote_target_policy", false, false),
      ("retry_options", false, false), ("data_lock", false, false), ("version", true, true),
      ("is_cbs_enabled", true, false), ("last_modification_time_usecs", true, true), ("template_id", false, false),
      ("is_usable", true, false), ("is_replicated", true, false), ("num_protection_groups", true, false),
      ("num_protected_objects", true, false)] := by decide +kernel

end Policy.Resource

end ProtectionProvider
