import ProtectionProvider.Proofs.Policy.Operations

/-!
# Deleting a policy

A deletion succeeds if the policy was never created, or if the server says that it is gone. Of the
answer only the status counts, so that no body makes a deletion fail, and none makes it succeed.
-/

namespace ProtectionProvider

/-- The answer says that what was to be deleted is not there. -/
def Http.Answer.Clears : Http.Answer → Prop
  | .whole status _ => (200 ≤ status ∧ status < 300) ∨ status = 404
  | .dropped | .cut | .moved .. => False

section
variable {id : String} {a : Http.Answer}

theorem Http.Answer.Holds.clears {m : (Call.deletePolicy id).reply.Model} (h : a.Holds (.deletePolicy id) m) : a.Clears := by
  cases h with
  | intro success _ =>
    simp only [Http.isSuccess, Bool.and_eq_true, decide_eq_true_eq] at success
    exact .inl success

theorem Http.Answer.Fails.not_clears (h : a.Fails (.deletePolicy id)) : ¬ a.Clears := by
  cases h with
  | dropped | cut | astray => exact not_false
  | refused refusal found =>
    simp only [Http.isSuccess, Bool.and_eq_false_iff, decide_eq_false_iff_not] at refusal
    simp only [Clears]
    omega
  | undecodable _ unread => cases unread

end

theorem Call.conclude_deletePolicy_ne (id : String) (status : Nat) (body : Text.Octets) :
    (deletePolicy id).conclude status body ≠ .error .undecodable := by
  unfold conclude
  dsimp only
  split
  · simp [decodeReply?]
  · simp

/-- The body of the answer to a deletion is not read. -/
theorem Client.result_deletePolicy_ne (c : Client) (id : String) (answer : Http.Answer) :
    c.result (.deletePolicy id) answer ≠ .error .undecodable := by
  unfold result
  dsimp only
  split
  · cases answer.settled with
    | whole status body => exact Call.conclude_deletePolicy_ne id status body
    | dropped | cut | moved => simp
  · simp

namespace Policy.Resource

/-! ## Endings -/

inductive DestroyEnd (c : Client) (id : String) : Http.Answer → Outcome Unit → Prop where
  | cleared {a : Http.Answer} (clears : a.Clears) : DestroyEnd c id a
      { result := some (), requests := c.issued (.deletePolicy id) }
  | failed {a : Http.Answer} {e : ApiError} (stays : ¬ a.Clears) (decoded : e ≠ .undecodable) : DestroyEnd c id a
      { result := none, errors := [.callFailed "DeleteProtectionPolicy" e], requests := c.issued (.deletePolicy id) }

theorem destroy_end (c : Client) (answer : Http.Answer) {prior : State} {id : String} (hid : getId prior = .value id) :
    DestroyEnd c id (c.arrived (.deletePolicy id) answer) (destroy (some c) prior answer) := by
  have hv := c.verdict (.deletePolicy id) answer
  have hd := c.result_deletePolicy_ne id answer
  unfold destroy Outcome.call
  rw [hid]
  dsimp only
  generalize c.arrived (.deletePolicy id) answer = a at hv ⊢
  generalize c.result (.deletePolicy id) answer = r at hv hd ⊢
  cases hv with
  | success h => simpa [Outcome.ok] using DestroyEnd.cleared h.clears
  | @gone body e he =>
    have hc : (Http.Answer.whole 404 body).Clears := Or.inr rfl
    simpa [he, Outcome.ok] using DestroyEnd.cleared hc
  | failure he hf =>
    have hne := fun h => hd (congrArg Except.error h)
    simpa [he, Outcome.fail, Call.operation] using DestroyEnd.failed hf.not_clears hne

/-! ## Deletions -/

def Uncreated (s : State) : Prop := getId s = .null ∨ getId s = .unknown

theorem getId_ne_of_uncreated {s : State} (h : Uncreated s) (id : String) : getId s ≠ .value id := by
  intro hid
  rcases h with h | h <;> simp [h] at hid

theorem uncreated_or_value (s : State) : Uncreated s ∨ ∃ id, getId s = .value id := by
  cases h : getId s with
  | null => exact .inl (.inl h)
  | unknown => exact .inl (.inr h)
  | value id => exact .inr ⟨id, rfl⟩

structure Removal (slot : Option Client) (prior : State) (answer : Http.Answer) (o : Outcome Unit) : Prop where
  succeeds_iff : (o.result = some () ∧ o.errors = []) ↔ Uncreated prior ∨
    ∃ c id, slot = some c ∧ getId prior = .value id ∧ (c.arrived (.deletePolicy id) answer).Clears
  fails : ¬ (o.result = some () ∧ o.errors = []) → o.result = none ∧ ∃ e, o.errors = [e]
  decoded : ∀ operation, .callFailed operation .undecodable ∉ o.errors
  rests : Uncreated prior → o.requests = []
  requested : ∀ c id, slot = some c → getId prior = .value id → c.Sends (.deletePolicy id) →
    o.requests = [c.request (.deletePolicy id)]
  sent : ∀ r ∈ o.requests, r.method = .delete ∧ r.body = none ∧
    ∃ c id, slot = some c ∧ getId prior = .value id ∧ r = c.request (.deletePolicy id) ∧ r.url.query = c.base.query

theorem removal_of_uncreated {prior : State} (h : Uncreated prior) (slot : Option Client) (answer : Http.Answer) :
    Removal slot prior answer (.ok ()) where
  succeeds_iff := ⟨fun _ => .inl h, fun _ => ⟨rfl, rfl⟩⟩
  fails hn := absurd ⟨rfl, rfl⟩ hn
  decoded operation := by simp [Outcome.ok]
  rests _ := rfl
  requested _ id _ hid := absurd hid (getId_ne_of_uncreated h id)
  sent r hr := by simp [Outcome.ok] at hr

theorem removal_unconfigured {prior : State} {id : String} (hid : getId prior = .value id) (answer : Http.Answer) :
    Removal none prior answer (.fail (.noClient .notConfigured)) where
  succeeds_iff := by
    have hn : ¬ Uncreated prior := fun h => getId_ne_of_uncreated h id hid
    simp [Outcome.fail, hn]
  fails _ := ⟨rfl, _, rfl⟩
  decoded operation := by simp [Outcome.fail]
  rests _ := rfl
  requested _ _ hc := by cases hc
  sent r hr := by simp [Outcome.fail] at hr

theorem removal_of_end {c : Client} {id : String} {prior : State} (hid : getId prior = .value id) {answer : Http.Answer}
    {o : Outcome Unit} (h : DestroyEnd c id (c.arrived (.deletePolicy id) answer) o) : Removal (some c) prior answer o := by
  have hn : ¬ Uncreated prior := fun h => getId_ne_of_uncreated h id hid
  have hsent : ∀ r ∈ c.issued (.deletePolicy id), r.method = .delete ∧ r.body = none ∧ ∃ c' id', some c = some c' ∧
      getId prior = .value id' ∧ r = c'.request (.deletePolicy id') ∧ r.url.query = c'.base.query := by
    intro r hr
    rw [Client.eq_request_of_mem_issued hr]
    exact ⟨rfl, rfl, c, id, rfl, hid, rfl, rfl⟩
  have hrequested : ∀ c' id', some c = some c' → getId prior = .value id' → c'.Sends (.deletePolicy id') →
      c.issued (.deletePolicy id) = [c'.request (.deletePolicy id')] := by
    intro c' id' hc hid' hs
    cases hc
    rw [hid] at hid'
    cases hid'
    exact Client.issued_of_sends hs
  have hiff : (c.arrived (.deletePolicy id) answer).Clears ↔ Uncreated prior ∨
      ∃ c' id', some c = some c' ∧ getId prior = .value id' ∧ (c'.arrived (.deletePolicy id') answer).Clears := by
    simp [hn, hid]
  generalize c.arrived (.deletePolicy id) answer = a at h hiff
  cases h with
  | cleared clears =>
    refine ⟨?_, ?_, ?_, fun hu => absurd hu hn, hrequested, hsent⟩
    · rw [← hiff]
      simp [clears]
    · simp
    · simp
  | failed stays decoded =>
    refine ⟨?_, ?_, ?_, fun hu => absurd hu hn, hrequested, hsent⟩
    · rw [← hiff]
      simp [stays]
    · simp
    · simp [Ne.symm decoded]

/-- A deletion that succeeds leaves no policy behind, and one that fails says so. -/
theorem destroy_removal (slot : Option Client) (prior : State) (answer : Http.Answer) :
    Removal slot prior answer (destroy slot prior answer) := by
  rcases uncreated_or_value prior with h | ⟨id, hid⟩
  · rw [destroy_unidentified slot answer (getId_ne_of_uncreated h)]
    exact removal_of_uncreated h slot answer
  · cases slot with
    | none =>
      have he : destroy none prior answer = .fail (.noClient .notConfigured) := by
        unfold destroy
        rw [hid]
        rfl
      rw [he]
      exact removal_unconfigured hid answer
    | some c => exact removal_of_end hid (destroy_end c answer hid)

end Policy.Resource

end ProtectionProvider
