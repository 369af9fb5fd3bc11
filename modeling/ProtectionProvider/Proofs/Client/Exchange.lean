import ProtectionProvider.Diagnostic
import ProtectionProvider.Proofs.Entity.Codec
import ProtectionProvider.Proofs.Text.Utf8

/-!
# Requests and their answers

A call succeeds only if its URL can be requested and a whole answer comes back in the end whose body says
what was asked for.
-/

namespace ProtectionProvider

/-- The document that comes back in the end. -/
def Http.Answer.json? (answer : Answer) : Option Json :=
  match answer.settled with
  | .whole status body => Json.read? (Client.bodyText status body)
  | .dropped | .cut | .moved .. => none

theorem Http.Answer.json?_of_settled {answer : Answer} {status : Nat} {body : Text.Octets}
    (h : answer.settled = .whole status body) : answer.json? = Json.read? (Client.bodyText status body) := by
  rw [json?, h]

theorem Http.Answer.json?_printed {j : Json} (hj : j.Printable) :
    Http.Answer.json? (.whole 200 (Text.octets j.toString.toList)) = some j :=
  (congrArg Json.read? (Text.decodeLossy_octets j.toString)).trans (Json.read?_toString hj)

def Http.Request.json? (r : Http.Request) : Option Json := r.body.bind Json.read?

theorem Http.Request.json?_of_body {r : Http.Request} {fs : Fields} {m : fs.Model}
    (h : r.body = some (fs.encode m).toString) : r.json? = some (.obj (fs.entries m)) := by
  rw [json?, h, Option.bind_some, Json.read?_toString (Fields.printable_encode fs m), Fields.encode_eq]

namespace Client

variable {c : Client} {call : Call} {answer : Http.Answer}

/-- The call can be made: its URL is a URI. -/
def Sends (c : Client) (call : Call) : Prop := (reportedUrl (c.callUrl call)).isUri = true

instance (c : Client) (call : Call) : Decidable (c.Sends call) := inferInstanceAs (Decidable (_ = true))

theorem issued_of_sends (h : c.Sends call) : c.issued call = [c.request call] := if_pos h

theorem issued_of_not_sends (h : ¬ c.Sends call) : c.issued call = [] := if_neg h

theorem length_issued_le (c : Client) (call : Call) : (c.issued call).length ≤ 1 := by
  unfold issued
  split <;> simp

theorem eq_request_of_mem_issued {r : Http.Request} (h : r ∈ c.issued call) : r = c.request call := by
  unfold issued at h
  split at h
  · exact List.mem_singleton.mp h
  · cases h

/-- Without a request there is no success, and nothing that says the resource is gone. -/
theorem result_of_not_sends (h : ¬ c.Sends call) (answer : Http.Answer) :
    ∃ e : ApiError, c.result call answer = .error e ∧ e.isNotFound = false :=
  ⟨.unrequestable (reportedUrl (c.callUrl call)).toString, if_neg h, rfl⟩

theorem result_of_settled (h : c.Sends call) {status : Nat} {body : Text.Octets}
    (ha : answer.settled = .whole status body) : c.result call answer = call.conclude status body := by
  have hu : (reportedUrl (c.callUrl call)).isUri = true := h
  simp only [result, hu, if_true, ha]

/-- What comes back to a call in the end: nothing, if it cannot be made. -/
def arrived (c : Client) (call : Call) (answer : Http.Answer) : Http.Answer :=
  if c.Sends call then answer.settled else .dropped

theorem arrived_of_sends (h : c.Sends call) (answer : Http.Answer) : c.arrived call answer = answer.settled := if_pos h

theorem settled_of_arrived {status : Nat} {body : Text.Octets} (h : c.arrived call answer = .whole status body) :
    c.Sends call ∧ answer.settled = .whole status body := by
  unfold arrived at h
  split at h
  · rename_i hs
    exact ⟨hs, h⟩
  · cases h

theorem result_of_arrived {status : Nat} {body : Text.Octets} (h : c.arrived call answer = .whole status body) :
    c.result call answer = call.conclude status body := by
  obtain ⟨hs, ha⟩ := settled_of_arrived h
  exact result_of_settled hs ha

end Client

theorem Call.conclude_of_success {call : Call} {status : Nat} {body : Text.Octets} (hs : Http.isSuccess status = true)
    {m : call.reply.Model} (hm : call.decodeReply? (Client.bodyText status body) = some m) :
    call.conclude status body = .ok m := by
  simp [conclude, hs, hm]

theorem Client.result_of_success {c : Client} {call : Call} {answer : Http.Answer} {status : Nat} {body : Text.Octets}
    (h : c.arrived call answer = .whole status body) (hs : Http.isSuccess status = true) {m : call.reply.Model}
    (hm : call.decodeReply? (Client.bodyText status body) = some m) : c.result call answer = .ok m := by
  rw [result_of_arrived h, Call.conclude_of_success hs hm]

theorem Call.conclude_of_refusal {call : Call} {status : Nat} (hs : Http.isSuccess status = false) (body : Text.Octets) :
    call.conclude status body = .error (.status status (ApiError.bodyMessage (Client.bodyText status body))) := by
  simp [conclude, hs]

/-! ## Verdicts -/

/-- A whole answer reports success, and its body is read as `m`. -/
inductive Http.Answer.Holds (call : Call) (m : call.reply.Model) : Http.Answer → Prop where
  | intro {status : Nat} {body : Text.Octets} (success : Http.isSuccess status = true)
      (read : call.decodeReply? (Client.bodyText status body) = some m) : Holds call m (.whole status body)

/-- The ways to fail that do not say that the resource is gone. -/
inductive Http.Answer.Fails (call : Call) : Http.Answer → Prop where
  | dropped : Fails call .dropped
  | cut : Fails call .cut
  | refused {status : Nat} {body : Text.Octets} (refusal : Http.isSuccess status = false) (found : status ≠ 404) :
      Fails call (.whole status body)
  | undecodable {status : Nat} {body : Text.Octets} (success : Http.isSuccess status = true)
      (unread : call.decodeReply? (Client.bodyText status body) = none) : Fails call (.whole status body)
  | astray {keeps : Bool} {target : Url} {next : Http.Answer} : Fails call (.moved keeps target next)

inductive Verdict (call : Call) : Http.Answer → Except ApiError call.reply.Model → Prop where
  | success {answer : Http.Answer} {m : call.reply.Model} : answer.Holds call m → Verdict call answer (.ok m)
  | gone {body : Text.Octets} {e : ApiError} : e.isNotFound = true → Verdict call (.whole 404 body) (.error e)
  | failure {answer : Http.Answer} {e : ApiError} : e.isNotFound = false → answer.Fails call →
      Verdict call answer (.error e)

theorem Http.Answer.not_holds_of_fails {call : Call} {answer : Http.Answer} (h : answer.Fails call)
    (m : call.reply.Model) : ¬ answer.Holds call m := by
  intro hm
  cases hm with
  | intro success read =>
    cases h with
    | refused refusal => rw [success] at refusal; cases refusal
    | undecodable _ unread => rw [read] at unread; cases unread

theorem Http.Answer.not_gone_of_fails {call : Call} {body : Text.Octets} : ¬ Fails call (.whole 404 body) := by
  intro h
  cases h with
  | refused _ found => exact found rfl
  | undecodable success => cases success

theorem Http.Answer.not_holds_gone {call : Call} {m : call.reply.Model} {body : Text.Octets} :
    ¬ Holds call m (.whole 404 body) := by
  intro h
  cases h with
  | intro success => cases success

theorem Http.Answer.holds_unique {call : Call} {m m' : call.reply.Model} {answer : Http.Answer}
    (h : answer.Holds call m) (h' : answer.Holds call m') : m = m' := by
  cases h with
  | intro _ read =>
    cases h' with
    | intro _ read' => exact Option.some.inj (read.symm.trans read')

theorem Http.Answer.Holds.exists_text {call : Call} {m : call.reply.Model} {answer : Http.Answer}
    (h : answer.settled.Holds call m) : ∃ text, answer.json? = Json.read? text ∧ call.decodeReply? text = some m := by
  generalize ha : answer.settled = a at h
  cases h with
  | intro _ read => exact ⟨_, json?_of_settled ha, read⟩

theorem Call.verdict (call : Call) (status : Nat) (body : Text.Octets) :
    Verdict call (.whole status body) (call.conclude status body) := by
  cases hs : Http.isSuccess status with
  | false =>
    rw [conclude_of_refusal hs]
    by_cases h404 : status = 404
    · subst h404
      exact .gone rfl
    · refine .failure ?_ (.refused hs h404)
      simp [ApiError.isNotFound, ApiError.code?, h404]
  | true =>
    cases hm : call.decodeReply? (Client.bodyText status body) with
    | none =>
      simp only [conclude, hs, hm, if_true]
      exact .failure rfl (.undecodable hs hm)
    | some m =>
      rw [conclude_of_success hs hm]
      exact .success (.intro hs hm)

theorem Client.verdict (c : Client) (call : Call) (answer : Http.Answer) :
    Verdict call (c.arrived call answer) (c.result call answer) := by
  by_cases hs : c.Sends call
  · have hu : (reportedUrl (c.callUrl call)).isUri = true := hs
    rw [arrived_of_sends hs, result]
    simp only [hu, if_true]
    cases answer.settled with
    | dropped => exact .failure rfl .dropped
    | cut => exact .failure rfl .cut
    | whole status body => exact call.verdict status body
    | moved => exact .failure rfl .astray
  · have ha : c.arrived call answer = .dropped := if_neg hs
    obtain ⟨e, he, hn⟩ := result_of_not_sends hs answer
    rw [ha, he]
    exact .failure hn .dropped

theorem Client.holds_of_arrived {c : Client} {call : Call} {answer : Http.Answer} {m : call.reply.Model}
    (h : (c.arrived call answer).Holds call m) : c.Sends call ∧ answer.settled.Holds call m := by
  unfold arrived at h
  split at h
  · rename_i hs
    exact ⟨hs, h⟩
  · cases h

theorem Client.holds_of_result {c : Client} {call : Call} {answer : Http.Answer} {m : call.reply.Model}
    (h : c.result call answer = .ok m) : c.Sends call ∧ answer.settled.Holds call m := by
  have hv := c.verdict call answer
  rw [h] at hv
  generalize ha : c.arrived call answer = a at hv
  cases hv with
  | success holds => exact holds_of_arrived (ha ▸ holds)

theorem Call.decodeReply?_of_conclude {call : Call} {status : Nat} {body : Text.Octets} {m : call.reply.Model}
    (h : call.conclude status body = .ok m) : call.decodeReply? (Client.bodyText status body) = some m := by
  have hv := call.verdict status body
  rw [h] at hv
  cases hv with
  | success holds =>
    cases holds with
    | intro _ read => exact read

theorem Call.isNotFound_of_success {call : Call} {status : Nat} {body : Text.Octets}
    (hok : Http.isSuccess status = true) {e : ApiError} (h : call.conclude status body = .error e) :
    e.isNotFound = false := by
  have hv := call.verdict status body
  rw [h] at hv
  cases hv with
  | failure hn => exact hn
  | gone => cases hok

/-! ## Calls of an operation -/

namespace Outcome

variable {α : Type}

/-- With a client, an operation that makes one call goes on from what arrived. -/
theorem call_verdict {c : Client} {call : Call} {answer : Http.Answer}
    {k : Except ApiError call.reply.Model → Outcome α} {motive : Http.Answer → Outcome α → Prop}
    (quiet : ∀ x, (k x).requests = [])
    (success : ∀ (a : Http.Answer) (m : call.reply.Model), a.Holds call m →
      motive a { k (.ok m) with requests := c.issued call })
    (gone : ∀ (body : Text.Octets) (e : ApiError), e.isNotFound = true →
      motive (.whole 404 body) { k (.error e) with requests := c.issued call })
    (failure : ∀ (a : Http.Answer) (e : ApiError), e.isNotFound = false → a.Fails call →
      motive a { k (.error e) with requests := c.issued call }) :
    motive (c.arrived call answer) (Outcome.call (some c) call answer k) := by
  have hv := c.verdict call answer
  unfold Outcome.call
  dsimp only
  rw [quiet, List.append_nil]
  generalize c.arrived call answer = a at hv ⊢
  generalize c.result call answer = r at hv ⊢
  cases hv with
  | success h => exact success a _ h
  | gone he => exact gone _ _ he
  | failure he hf => exact failure a _ he hf

theorem errors_call {slot : Option Client} {call : Call} {answer : Http.Answer}
    {k : Except ApiError call.reply.Model → Outcome α} {P : Diagnostic → Prop}
    (unconfigured : P (.noClient .notConfigured)) (h : ∀ x, ∀ d ∈ (k x).errors, P d) :
    ∀ d ∈ (Outcome.call slot call answer k).errors, P d := by
  intro d hd
  cases slot with
  | none =>
    rw [List.mem_singleton.mp hd]
    exact unconfigured
  | some c => exact h _ d hd

end Outcome

end ProtectionProvider
