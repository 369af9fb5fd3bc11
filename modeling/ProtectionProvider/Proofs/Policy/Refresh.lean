import ProtectionProvider.Proofs.Policy.Lifecycle

/-!
# Refreshing a policy

A policy is dropped from the state only when the server says that it does not exist. Any other
failure leaves the state as it was.
-/

namespace ProtectionProvider.Policy.Resource

/-- What a refresh of the state asks for, leaves and reports. -/
structure Refresh (slot : Option Client) (s : State) (hidden : Private) (answer : Http.Answer)
    (o : Outcome Managed) : Prop where
  requested : ∀ c id, slot = some c → getId s = .value id → c.Sends (.getPolicy id) →
    o.requests = [c.request (.getPolicy id)]
  drops_iff : (o.result = none ∧ o.errors = []) ↔ ∃ c id body, slot = some c ∧ getId s = .value id ∧
    c.arrived (.getPolicy id) answer = .whole 404 body
  keeps : ∀ c id, slot = some c → getId s = .value id → (c.arrived (.getPolicy id) answer).Fails (.getPolicy id) →
    o.result = some (s, hidden) ∧ ∃ e, o.errors = [e] ∧ e.summary = "GetProtectionPolicyById failed"
  renews : ∀ c id (m : Model), slot = some c → getId s = .value id →
    (c.arrived (.getPolicy id) answer).Holds (.getPolicy id) m →
    o.result = some (identify (.value id) (protectionPolicy.flatten m), hidden) ∧ o.errors = []
  rests : (slot = none ∨ ∀ id, getId s ≠ .value id) → o.requests = [] ∧ o.result = none ∧ ∃ e, o.errors = [e]

theorem refresh_of_idle {slot : Option Client} {s : State} (h : slot = none ∨ ∀ id, getId s ≠ .value id)
    (hidden : Private) (answer : Http.Answer) (e : Diagnostic) : Refresh slot s hidden answer (.fail e) := by
  have idle : ∀ c id, slot = some c → getId s ≠ .value id := by
    intro c id hc hid
    rcases h with h | h
    · rw [h] at hc
      cases hc
    · exact h id hid
  refine ⟨?_, ⟨?_, ?_⟩, ?_, ?_, fun _ => ⟨rfl, rfl, e, rfl⟩⟩
  · intro c id hc hid
    exact absurd hid (idle c id hc)
  · rintro ⟨-, he⟩
    cases he
  · rintro ⟨c, id, -, hc, hid, -⟩
    exact absurd hid (idle c id hc)
  · intro c id hc hid
    exact absurd hid (idle c id hc)
  · intro c id _ hc hid
    exact absurd hid (idle c id hc)

/-! ## Each ending excludes the others -/

section
variable {c : Client} {id : String} {s : State} {hidden : Private} {a : Http.Answer} {o : Outcome Managed}

theorem ReadEnd.requests (h : ReadEnd c id s hidden a o) : o.requests = c.issued (.getPolicy id) := by
  cases h <;> rfl

theorem ReadEnd.drops_iff (h : ReadEnd c id s hidden a o) :
    (o.result = none ∧ o.errors = []) ↔ ∃ body, a = .whole 404 body := by
  cases h with
  | refreshed holds =>
    constructor
    · rintro ⟨hr, -⟩
      cases hr
    · rintro ⟨body, rfl⟩
      exact absurd holds Http.Answer.not_holds_gone
  | @dropped body => exact ⟨fun _ => ⟨body, rfl⟩, fun _ => ⟨rfl, rfl⟩⟩
  | kept fails =>
    constructor
    · rintro ⟨hr, -⟩
      cases hr
    · rintro ⟨body, rfl⟩
      exact absurd fails Http.Answer.not_gone_of_fails

theorem ReadEnd.keeps (h : ReadEnd c id s hidden a o) (hf : a.Fails (.getPolicy id)) :
    o.result = some (s, hidden) ∧ ∃ e, o.errors = [e] ∧ e.summary = "GetProtectionPolicyById failed" := by
  cases h with
  | refreshed holds => exact absurd holds (Http.Answer.not_holds_of_fails hf _)
  | dropped => exact absurd hf Http.Answer.not_gone_of_fails
  | kept => exact ⟨rfl, _, rfl, rfl⟩

theorem ReadEnd.renews (h : ReadEnd c id s hidden a o) {m : Model} (hm : a.Holds (.getPolicy id) m) :
    o.result = some (identify (.value id) (protectionPolicy.flatten m), hidden) ∧ o.errors = [] := by
  cases h with
  | refreshed holds =>
    rw [Http.Answer.holds_unique hm holds]
    exact ⟨rfl, rfl⟩
  | dropped => exact absurd hm Http.Answer.not_holds_gone
  | kept fails => exact absurd hm (Http.Answer.not_holds_of_fails fails m)

end

theorem refresh_of_end {c : Client} {id : String} {s : State} (hid : getId s = .value id) {hidden : Private}
    {answer : Http.Answer} {o : Outcome Managed} (h : ReadEnd c id s hidden (c.arrived (.getPolicy id) answer) o) :
    Refresh (some c) s hidden answer o := by
  have unique : ∀ {c' id'}, some c = some c' → getId s = .value id' → c' = c ∧ id' = id := by
    intro c' id' hc hid'
    rw [hid] at hid'
    cases hc
    cases hid'
    exact ⟨rfl, rfl⟩
  refine ⟨?_, h.drops_iff.trans ⟨?_, ?_⟩, ?_, ?_, ?_⟩
  · intro c' id' hc hid' hs
    obtain ⟨rfl, rfl⟩ := unique hc hid'
    rw [h.requests, Client.issued_of_sends hs]
  · rintro ⟨body, hg⟩
    exact ⟨c, id, body, rfl, hid, hg⟩
  · rintro ⟨c', id', body, hc, hid', hg⟩
    obtain ⟨rfl, rfl⟩ := unique hc hid'
    exact ⟨body, hg⟩
  · intro c' id' hc hid' hf
    obtain ⟨rfl, rfl⟩ := unique hc hid'
    exact h.keeps hf
  · intro c' id' m hc hid' hm
    obtain ⟨rfl, rfl⟩ := unique hc hid'
    exact h.renews hm
  · rintro (hn | hn)
    · cases hn
    · exact absurd hid (hn id)

theorem read_refresh (slot : Option Client) (s : State) (hidden : Private) (answer : Http.Answer) :
    Refresh slot s hidden answer (read slot s hidden answer) := by
  by_cases hid : ∃ id, getId s = .value id
  · obtain ⟨id, hid⟩ := hid
    cases slot with
    | none =>
      rw [read_unconfigured hidden answer hid]
      exact refresh_of_idle (.inl rfl) hidden answer _
    | some c => exact refresh_of_end hid (read_end c hidden answer hid)
  · have hnot : ∀ id, getId s ≠ .value id := fun id h => hid ⟨id, h⟩
    rw [read_unidentified slot hidden answer hnot]
    exact refresh_of_idle (.inr hnot) hidden answer _

end ProtectionProvider.Policy.Resource
