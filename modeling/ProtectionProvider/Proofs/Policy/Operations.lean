import ProtectionProvider.Policy.Resource
import ProtectionProvider.Proofs.Client.Exchange
import ProtectionProvider.Proofs.Entity.Settled

/-!
# What the operations on a policy leave

Whatever an answer brings, a state comes out of it in one way (`answered`): the server's attributes
are those of the answer, the user's are given, and an identifier is there for an answer without one.
Each operation has one lemma that says when it leaves a state and which.
-/

namespace ProtectionProvider.Policy.Resource

abbrev isUser (r : Role) : Bool := !r.assigned

/-! ## Parts of a policy -/

theorem getId_assign (s t : State) : getId (assign s t) = getId s := Fields.State.get_select _ Policy.id s t

theorem getId_identify (v : Value String) (s : State) : getId (identify v s) = (getId s).orIfNull v :=
  Fields.State.get_set_self Policy.id _ s

theorem identify_of_value {s : State} {id : String} (h : getId s = .value id) (v : Value String) :
    identify v s = s :=
  Fields.State.set_orIfNull_self h v

theorem sameUser_assign (s t : State) : SameUser (assign s t) t :=
  Fields.State.agree_select_right (r := Role.assigned) s t

/-! ## Plans -/

theorem sameUser_planCreate (proposed : State) : SameUser (planCreate proposed).1 proposed :=
  sameUser_assign (.unknown protectionPolicy) proposed

theorem sameUser_planUpdate (prior proposed : State) (hidden : Private) :
    SameUser (planUpdate prior proposed hidden).state proposed := by
  have hk := sameUser_assign prior proposed
  have hr : SameUser (.select isRevision (.unknown protectionPolicy) (assign prior proposed)) (assign prior proposed) := by
    refine .mono (r := fun x => !isRevision x) ?_ (Fields.State.agree_select_right _ _)
    intro r hr
    cases r <;> first | rfl | exact absurd hr (by decide)
  unfold planUpdate
  dsimp only
  split
  · exact hk
  · exact hr.trans hk

theorem planUpdate_of_same {prior proposed : State} (h : SameUser proposed prior) (hidden : Private) :
    planUpdate prior proposed hidden = { state := prior, hidden } := by
  have hk : assign prior proposed = prior :=
    (Fields.State.select_congr (.refl _ prior) h).trans (Fields.State.select_self prior)
  have hs : SameUser prior prior := .refl _ prior
  simp only [planUpdate, hk, if_pos hs]

/-! ## States from answers -/

def policy? (answer : Http.Answer) : Option Model := answer.json?.bind protectionPolicy.decode

/-- The state for a policy `m` in an answer, with the attributes of the user from elsewhere. -/
def answered (given : String) (m : Model) (user : State) : State :=
  identify (.value given) (assign (protectionPolicy.flatten m) user)

theorem answered_congr {user user' : State} (h : SameUser user user') (given : String) (m : Model) :
    answered given m user = answered given m user' :=
  congrArg (identify _) (Fields.State.select_congr (.refl _ _) h)

theorem answered_flatten (given : String) (m : Model) :
    answered given m (protectionPolicy.flatten m) = identify (.value given) (protectionPolicy.flatten m) :=
  congrArg (identify _) (Fields.State.select_self _)

theorem getId_flatten (m : Model) : getId (protectionPolicy.flatten m) = .ofOption (m.get Policy.id) := by
  rw [getId, Fields.get_flatten]
  cases Fields.Model.get Policy.id m <;> rfl

theorem getId_answered (given : String) (m : Model) (user : State) :
    getId (answered given m user) = .value ((m.get Policy.id).getD given) := by
  rw [answered, getId_identify, getId_assign, getId_flatten]
  cases Fields.Model.get Policy.id m <;> rfl

theorem policy?_of_text {answer : Http.Answer} {text : String} (h : answer.json? = Json.read? text) :
    policy? answer = (Json.read? text).bind protectionPolicy.decode := by
  rw [policy?, h]

theorem sameUser_answered (given : String) (m : Model) (user : State) : SameUser (answered given m user) user := by
  have hid : isUser Policy.id.entry.role = false := rfl
  unfold answered identify
  exact (Fields.State.agree_set Policy.id _ _ hid).trans (sameUser_assign _ user)

theorem answered_of_getId {given id : String} {m : Model} {user : State}
    (h : getId (answered given m user) = .value id) : answered id m user = answered given m user := by
  rw [getId_answered] at h
  cases hm : Fields.Model.get Policy.id m with
  | none =>
    rw [hm] at h
    cases h
    rfl
  | some i =>
    have hv : getId (assign (protectionPolicy.flatten m) user) = .value i := by
      rw [getId_assign, getId_flatten, hm]
      rfl
    rw [answered, answered, identify_of_value hv, identify_of_value hv]

/-! ## Endings

The ways in which an operation can end, by the answer that arrived. -/

abbrev creation (planned : State) : Call := .createPolicy (protectionPolicy.expand planned)

abbrev change (id : String) (prior planned : State) : Call := .updatePolicy id (updateBody prior planned)

inductive CreateEnd (c : Client) (planned : State) (hidden : Private) :
    Http.Answer → Outcome (State × Private) → Prop where
  | created {a : Http.Answer} {m : Model} {id : String} (holds : a.Holds (creation planned) m)
      (named : m.get Policy.id = some id) : CreateEnd c planned hidden a
        { result := some (answered id m planned, hidden), requests := c.issued (creation planned) }
  | unnamed {a : Http.Answer} {m : Model} (holds : a.Holds (creation planned) m) (unnamed : m.get Policy.id = none) :
      CreateEnd c planned hidden a
        { result := none, errors := [.unnamedPolicy], requests := c.issued (creation planned) }
  | failed {a : Http.Answer} {e : ApiError} (fails : ∀ m, ¬ a.Holds (creation planned) m) :
      CreateEnd c planned hidden a
        { result := none, errors := [.callFailed "CreateProtectionPolicy" e], requests := c.issued (creation planned) }

inductive UpdateEnd (c : Client) (id : String) (prior planned : State) (hidden : Private) :
    Http.Answer → Outcome (State × Private) → Prop where
  | updated {a : Http.Answer} {m : Model} (holds : a.Holds (change id prior planned) m) :
      UpdateEnd c id prior planned hidden a
        { result := some (answered id m planned, hidden), requests := c.issued (change id prior planned) }
  | failed {a : Http.Answer} {e : ApiError} (fails : ∀ m, ¬ a.Holds (change id prior planned) m) :
      UpdateEnd c id prior planned hidden a
        { result := none, errors := [.callFailed "UpdateProtectionPolicy" e]
          requests := c.issued (change id prior planned) }

inductive ReadEnd (c : Client) (id : String) (s : State) (hidden : Private) :
    Http.Answer → Outcome (State × Private) → Prop where
  | refreshed {a : Http.Answer} {m : Model} (holds : a.Holds (.getPolicy id) m) : ReadEnd c id s hidden a
      { result := some (identify (.value id) (protectionPolicy.flatten m), hidden), requests := c.issued (.getPolicy id) }
  | dropped {body : Text.Octets} : ReadEnd c id s hidden (.whole 404 body)
      { result := none, requests := c.issued (.getPolicy id) }
  | kept {a : Http.Answer} {e : ApiError} (fails : a.Fails (.getPolicy id)) : ReadEnd c id s hidden a
      { result := some (s, hidden), errors := [.callFailed "GetProtectionPolicyById" e]
        requests := c.issued (.getPolicy id) }

inductive ImportEnd (c : Client) (id : String) : Http.Answer → Outcome (State × Private) → Prop where
  | imported {a : Http.Answer} {m : Model} (holds : a.Holds (.getPolicy id) m) : ImportEnd c id a
      { result := some (identify (.value id) (protectionPolicy.flatten m), .null), requests := c.issued (.getPolicy id) }
  | failed {a : Http.Answer} {e : ApiError} (fails : ∀ m, ¬ a.Holds (.getPolicy id) m) : ImportEnd c id a
      { result := none, errors := [.callFailed "GetProtectionPolicyById" e], requests := c.issued (.getPolicy id) }

section
variable (c : Client) (hidden : Private) (answer : Http.Answer)

theorem create_end (planned : State) : CreateEnd c planned hidden (c.arrived (creation planned) answer)
    (create (some c) planned hidden answer) := by
  unfold create
  apply Outcome.call_verdict
  · intro x
    cases x with
    | error e => rfl
    | ok m =>
      dsimp only
      split <;> rfl
  · rintro a (m : Model) h
    cases hid : Fields.Model.get Policy.id m with
    | none =>
      simp only [hid]
      exact .unnamed h hid
    | some id =>
      have hv : getId (assign (protectionPolicy.flatten m) planned) = .value id := by
        rw [getId_assign, getId_flatten, hid]
        rfl
      have hs : answered id m planned = assign (protectionPolicy.flatten m) planned := identify_of_value hv _
      simp only [hid]
      rw [← hs]
      exact .created h hid
  · intro body e _
    exact .failed fun m => Http.Answer.not_holds_gone
  · intro a e _ hf
    exact .failed (Http.Answer.not_holds_of_fails hf)

theorem update_end {id : String} {prior : State} (hid : getId prior = .value id) (planned : State) :
    UpdateEnd c id prior planned hidden (c.arrived (change id prior planned) answer)
      (update (some c) prior planned hidden answer) := by
  unfold update
  rw [hid]
  apply Outcome.call_verdict
  · intro x
    cases x <;> rfl
  · intro a m h
    exact .updated h
  · intro body e _
    exact .failed fun m => Http.Answer.not_holds_gone
  · intro a e _ hf
    exact .failed (Http.Answer.not_holds_of_fails hf)

theorem read_end {id : String} {s : State} (hid : getId s = .value id) :
    ReadEnd c id s hidden (c.arrived (.getPolicy id) answer) (read (some c) s hidden answer) := by
  unfold read
  rw [hid]
  apply Outcome.call_verdict
  · intro x
    cases x with
    | error e =>
      dsimp only
      split <;> rfl
    | ok m => rfl
  · intro a m h
    exact .refreshed h
  · intro body e he
    simp only [he, if_true]
    exact .dropped
  · intro a e he hf
    simp only [he, Bool.false_eq_true, if_false]
    exact .kept hf

theorem importId_end {id : String} (hid : id ≠ "") :
    ImportEnd c id (c.arrived (.getPolicy id) answer) (importId (some c) id answer) := by
  unfold importId
  rw [if_neg hid]
  apply Outcome.call_verdict
  · intro x
    cases x <;> rfl
  · intro a m h
    exact .imported h
  · intro body e _
    exact .failed fun m => Http.Answer.not_holds_gone
  · intro a e _ hf
    exact .failed (Http.Answer.not_holds_of_fails hf)

end

section
variable (slot : Option Client) (hidden : Private) (answer : Http.Answer)

theorem read_unidentified {s : State} (h : ∀ id, getId s ≠ .value id) : read slot s hidden answer = .fail .noPolicyId := by
  unfold read
  split
  · rename_i id hid
    exact absurd hid (h id)
  · rfl

theorem update_unidentified {prior : State} (h : ∀ id, getId prior ≠ .value id) (planned : State) :
    update slot prior planned hidden answer = .fail .noPolicyId := by
  unfold update
  split
  · rename_i id hid
    exact absurd hid (h id)
  · rfl

theorem destroy_unidentified {prior : State} (h : ∀ id, getId prior ≠ .value id) : destroy slot prior answer = .ok () := by
  unfold destroy
  split
  · rename_i id hid
    exact absurd hid (h id)
  · rfl

theorem read_unconfigured {s : State} {id : String} (hid : getId s = .value id) :
    read none s hidden answer = .fail (.noClient .notConfigured) := by
  unfold read
  rw [hid]
  rfl

theorem update_unconfigured {prior : State} {id : String} (hid : getId prior = .value id) (planned : State) :
    update none prior planned hidden answer = .fail (.noClient .notConfigured) := by
  unfold update
  rw [hid]
  rfl

end

/-! ## States that come of an answer -/

/-- The call was made, and the state is that of the policy in the answer, with the user's attributes
taken from `user`. -/
def FromAnswer (slot : Option Client) (call : Call) (answer : Http.Answer) (user : Model → State)
    (hidden : Private) (o : Outcome (State × Private)) : Prop :=
  ∃ c m given, slot = some c ∧ policy? answer = some m ∧
    o = { result := some (answered given m (user m), hidden), requests := [c.request call] }

theorem fromAnswer_of_sends {c : Client} {call : Call} {answer : Http.Answer} {m : Model} (hs : c.Sends call)
    (hm : policy? answer = some m) (given : String) (user : Model → State) (hidden : Private) :
    FromAnswer (some c) call answer user hidden
      { result := some (answered given m (user m), hidden), requests := c.issued call } := by
  rw [Client.issued_of_sends hs]
  exact ⟨c, m, given, rfl, hm, rfl⟩

section
variable (slot : Option Client) (hidden : Private) (answer : Http.Answer)

theorem create_cases (planned : State) :
    (create slot planned hidden answer).result = none ∨
      FromAnswer slot (.createPolicy (protectionPolicy.expand planned)) answer (fun _ => planned) hidden
        (create slot planned hidden answer) := by
  cases slot with
  | none => exact .inl rfl
  | some c =>
    have he := create_end c hidden answer planned
    generalize ha : c.arrived (creation planned) answer = a at he
    generalize create (some c) planned hidden answer = o at he ⊢
    cases he with
    | @created m id holds named =>
      rw [← ha] at holds
      obtain ⟨hs, holds⟩ := Client.holds_of_arrived holds
      obtain ⟨text, hj, read⟩ := holds.exists_text
      exact .inr (fromAnswer_of_sends hs ((policy?_of_text hj).trans read) id _ _)
    | unnamed => exact .inl rfl
    | failed => exact .inl rfl

theorem update_cases (prior planned : State) :
    (update slot prior planned hidden answer).result = none ∨ ∃ id, getId prior = .value id ∧
      FromAnswer slot (.updatePolicy id (updateBody prior planned)) answer (fun _ => planned) hidden
        (update slot prior planned hidden answer) := by
  by_cases hid : ∃ id, getId prior = .value id
  · obtain ⟨id, hid⟩ := hid
    cases slot with
    | none =>
      rw [update_unconfigured hidden answer hid]
      exact .inl rfl
    | some c =>
      have he := update_end c hidden answer hid planned
      generalize ha : c.arrived (change id prior planned) answer = a at he
      generalize update (some c) prior planned hidden answer = o at he ⊢
      cases he with
      | @updated m holds =>
        rw [← ha] at holds
        obtain ⟨hs, holds⟩ := Client.holds_of_arrived holds
        obtain ⟨text, hj, read⟩ := holds.exists_text
        exact .inr ⟨id, hid, fromAnswer_of_sends hs ((policy?_of_text hj).trans read) id _ _⟩
      | failed => exact .inl rfl
  · rw [update_unidentified slot hidden answer fun id h => hid ⟨id, h⟩]
    exact .inl rfl

theorem eq_request_of_mem_update {prior planned : State} {r : Http.Request}
    (h : r ∈ (update slot prior planned hidden answer).requests) :
    ∃ c id, slot = some c ∧ getId prior = .value id ∧ r = c.request (.updatePolicy id (updateBody prior planned)) := by
  unfold update at h
  split at h
  · rename_i id hid
    cases slot with
    | none => cases h
    | some c =>
      refine ⟨c, id, rfl, hid, Client.eq_request_of_mem_issued ?_⟩
      rcases List.mem_append.mp h with h | h
      · exact h
      · dsimp only at h
        split at h <;> cases h
  · cases h

theorem update_of_sends {c : Client} {id : String} {prior planned : State} (hid : getId prior = .value id)
    (hs : c.Sends (.updatePolicy id (updateBody prior planned))) :
    (update (some c) prior planned hidden answer).requests = [c.request (.updatePolicy id (updateBody prior planned))] := by
  unfold update
  rw [hid]
  show c.issued (.updatePolicy id (updateBody prior planned)) ++ _ = _
  rw [Client.issued_of_sends hs]
  dsimp only
  split <;> rfl

theorem importId_cases (id : String) :
    (importId slot id answer).result = none ∨
      FromAnswer slot (.getPolicy id) answer protectionPolicy.flatten .null (importId slot id answer) := by
  by_cases hid : id = ""
  · left
    unfold importId
    rw [if_pos hid]
    rfl
  · cases slot with
    | none =>
      left
      unfold importId
      rw [if_neg hid]
      rfl
    | some c =>
      have he := importId_end c answer hid
      generalize ha : c.arrived (.getPolicy id) answer = a at he
      generalize importId (some c) id answer = o at he ⊢
      cases he with
      | @imported m holds =>
        rw [← ha] at holds
        obtain ⟨hs, holds⟩ := Client.holds_of_arrived holds
        obtain ⟨text, hj, read⟩ := holds.exists_text
        rw [← answered_flatten]
        exact .inr (fromAnswer_of_sends hs ((policy?_of_text hj).trans read) id _ _)
      | failed => exact .inl rfl

theorem read_cases (s : State) :
    (read slot s hidden answer).result = none ∨
      ((read slot s hidden answer).result = some (s, hidden) ∧ ∃ e, (read slot s hidden answer).errors = [e]) ∨
      ∃ id, getId s = .value id ∧
        FromAnswer slot (.getPolicy id) answer protectionPolicy.flatten hidden (read slot s hidden answer) := by
  by_cases hid : ∃ id, getId s = .value id
  · obtain ⟨id, hid⟩ := hid
    cases slot with
    | none =>
      rw [read_unconfigured hidden answer hid]
      exact .inl rfl
    | some c =>
      have he := read_end c hidden answer hid
      generalize ha : c.arrived (.getPolicy id) answer = a at he
      generalize read (some c) s hidden answer = o at he ⊢
      cases he with
      | @refreshed _ m holds =>
        rw [← ha] at holds
        obtain ⟨hs, holds⟩ := Client.holds_of_arrived holds
        obtain ⟨text, hj, read⟩ := holds.exists_text
        rw [← answered_flatten]
        exact .inr (.inr ⟨id, hid, fromAnswer_of_sends hs ((policy?_of_text hj).trans read) id _ _⟩)
      | dropped => exact .inl rfl
      | kept => exact .inr (.inl ⟨rfl, _, rfl⟩)
  · rw [read_unidentified slot hidden answer fun id h => hid ⟨id, h⟩]
    exact .inl rfl

end

section
variable {c : Client} {id : String} {answer : Http.Answer} {status : Nat} {body : Text.Octets}
  (ha : c.arrived (.getPolicy id) answer = .whole status body) (hok : Http.isSuccess status = true) {m : Model}
  (hm : (Json.read? (Client.bodyText status body)).bind protectionPolicy.decode = some m)
include ha hok hm

theorem read_of_arrived {s : State} (hid : getId s = .value id) (hidden : Private) :
    read (some c) s hidden answer =
      { result := some (answered id m (protectionPolicy.flatten m), hidden), requests := [c.request (.getPolicy id)] } := by
  have hs := (Client.settled_of_arrived ha).1
  unfold read Outcome.call
  rw [hid, answered_flatten]
  simp only [Client.issued_of_sends hs, Client.result_of_success ha hok hm]
  rfl

theorem importId_of_arrived (hid : id ≠ "") :
    importId (some c) id answer =
      { result := some (answered id m (protectionPolicy.flatten m), .null), requests := [c.request (.getPolicy id)] } := by
  have hs := (Client.settled_of_arrived ha).1
  unfold importId Outcome.call
  rw [if_neg hid, answered_flatten]
  simp only [Client.issued_of_sends hs, Client.result_of_success ha hok hm]
  rfl

end

end ProtectionProvider.Policy.Resource
