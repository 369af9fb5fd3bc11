import ProtectionProvider.Proofs.Policy.Lifecycle

/-!
# What becomes of a plan

An update leaves the user's attributes as they were planned. The server's attributes are those of the
answer, also where the plan kept what the prior state says of them, so a plan is kept in full only if
the answer repeats that (`group_count_not_kept`).
-/

namespace ProtectionProvider.Policy.Resource

theorem keeps_planUpdate (prior proposed : State) (hidden : Private) :
    Fields.State.Keeps Role.assigned (planUpdate prior proposed hidden).state prior := by
  have hk : Fields.State.Keeps Role.assigned (assign prior proposed) prior :=
    (Fields.State.agree_select_left prior proposed).symm.keeps
  unfold planUpdate
  dsimp only
  split
  · exact hk
  · exact hk.select_unknown isRevision

theorem agree_answered (given : String) (m : Model) (user : State) :
    Fields.State.Agree Role.assigned (answered given m user) (identify (.value given) (protectionPolicy.flatten m)) := by
  have ha : Fields.State.Agree Role.assigned (assign (protectionPolicy.flatten m) user) (protectionPolicy.flatten m) :=
    Fields.State.agree_select_left _ _
  unfold answered identify
  rw [getId_assign]
  exact ha.set Policy.id _

/-- What a plan from the state `prior` comes to, where `reported` is the state of the policy in the
answer. -/
structure Fulfilled (prior planned reported s : State) : Prop where
  kept : Fields.State.Keeps Role.assigned planned prior
  user : SameUser s planned
  keeps_user : Fields.State.Keeps isUser planned s
  assigned : Fields.State.Agree Role.assigned s reported
  keeps_iff : Fields.State.Keeps (fun _ => true) planned s ↔ Fields.State.Keeps Role.assigned planned reported

theorem fulfilled_answered {prior planned : State} (hk : Fields.State.Keeps Role.assigned planned prior) (given : String)
    (m : Model) : Fulfilled prior planned (identify (.value given) (protectionPolicy.flatten m))
      (answered given m planned) := by
  have hu := sameUser_answered given m planned
  have ha := agree_answered given m planned
  refine ⟨hk, hu, hu.keeps, ha, ?_⟩
  rw [Fields.State.keeps_all_iff Role.assigned]
  constructor
  · intro h
    exact h.1.of_agree ha
  · intro h
    exact ⟨h.of_agree ha.symm, hu.keeps⟩

theorem update_fulfilled {slot : Option Client} {prior proposed : State} {hidden : Private} {answer : Http.Answer}
    {s : Managed} (h : (update slot prior (planUpdate prior proposed hidden).state
      (planUpdate prior proposed hidden).hidden answer).result = some s) :
    ∃ c id m, slot = some c ∧ getId prior = .value id ∧
      (c.arrived (change id prior (planUpdate prior proposed hidden).state) answer).Holds
        (change id prior (planUpdate prior proposed hidden).state) m ∧
      Fulfilled prior (planUpdate prior proposed hidden).state
        (identify (.value id) (protectionPolicy.flatten m)) s.1 := by
  have hk := keeps_planUpdate prior proposed hidden
  generalize planUpdate prior proposed hidden = plan at h hk ⊢
  by_cases hid : ∃ id, getId prior = .value id
  · obtain ⟨id, hid⟩ := hid
    cases slot with
    | none =>
      rw [update_unconfigured plan.hidden answer hid] at h
      cases h
    | some c =>
      have he := update_end c plan.hidden answer hid plan.state
      generalize ha : c.arrived (change id prior plan.state) answer = a at he
      generalize update (some c) prior plan.state plan.hidden answer = o at he h
      cases he with
      | @updated m holds =>
        cases h
        rw [← ha] at holds
        exact ⟨c, id, m, rfl, hid, holds, fulfilled_answered hk id m⟩
      | failed => cases h
  · rw [update_unidentified slot plan.hidden answer fun id hv => hid ⟨id, hv⟩] at h
    cases h

/-! ## A plan that is not kept -/

def groupCount : Place protectionPolicy .number :=
  .there <| .there <| .there <| .there <| .there <| .there <| .there <| .there <| .there <| .there <| .there <|
    .there <| .there <| .there <| .there .here

example : groupCount.entry.name = "num_protection_groups" := rfl

def inUse (n : Int64) : Model := Fields.Model.set groupCount (some n) (versioned "p" 3)

def stored : State := protectionPolicy.flatten (inUse 2)

abbrev nightlyPlan : Plan := planUpdate stored nightly .null

theorem update_fulfilled_stored :
    ∃ s, (update (some localClient) stored nightlyPlan.state nightlyPlan.hidden (written (inUse 5))).result = some s ∧
      ∃ c id m, some localClient = some c ∧ getId stored = .value id ∧
        (c.arrived (change id stored nightlyPlan.state) (written (inUse 5))).Holds (change id stored nightlyPlan.state) m ∧
        Fulfilled stored nightlyPlan.state (identify (.value id) (protectionPolicy.flatten m)) s.1 := by
  have h : (update (some localClient) stored nightlyPlan.state nightlyPlan.hidden (written (inUse 5))).result.isSome = true := by
    decide +kernel
  obtain ⟨s, hs⟩ := Option.isSome_iff_exists.mp h
  exact ⟨s, hs, update_fulfilled hs⟩

theorem group_count_not_kept :
    ∃ s, getId stored = .value "p" ∧
      (update (some localClient) stored nightlyPlan.state nightlyPlan.hidden (written (inUse 5))).result = some s ∧
      nightlyPlan.state.get groupCount = .value (2 : Int64) ∧ s.1.get groupCount = .value (5 : Int64) ∧
      ¬ Fields.State.Keeps (fun _ => true) nightlyPlan.state s.1 := by
  have hplan : nightlyPlan.state.get groupCount = .value (2 : Int64) := by decide +kernel
  have h : (update (some localClient) stored nightlyPlan.state nightlyPlan.hidden (written (inUse 5))).result.map
      (fun s => s.1.get groupCount) = some (.value (5 : Int64)) := by
    decide +kernel
  obtain ⟨s, hs, hc⟩ := Option.map_eq_some_iff.mp h
  refine ⟨s, rfl, hs, hplan, hc, fun hk => ?_⟩
  have hknown : nightlyPlan.state.get groupCount ≠ .unknown := by
    rw [hplan]
    intro h
    cases h
  have he := Fields.State.keeps_iff_get.mp hk groupCount rfl hknown
  rw [hplan, hc] at he
  exact absurd he (by decide)

end ProtectionProvider.Policy.Resource
