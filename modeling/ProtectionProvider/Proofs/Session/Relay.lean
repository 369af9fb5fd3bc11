import ProtectionProvider.Proofs.Policy.Operations
import ProtectionProvider.Session

/-!
# The call of a step

A step makes one call or none. What it answers is put together from the result and the request of
that call, and from nothing else of the client (`exists_relay`).
-/

namespace ProtectionProvider

open Policy.Resource (destroy_unidentified getId updateBody read_unidentified update_unidentified)

/-- The only error is one of the whole configuration, with these texts. -/
def Diagnostic.Only (summary : String) (detail : String → String) (errors : List Diagnostic) : Prop :=
  ∃ d, errors = [d] ∧ d.summary = summary ∧ (∀ complaint, d.detail complaint = detail complaint) ∧ d.path = []

theorem Provider.configure_outcome (slot : Option Client) (config : Provider.Config) :
    (configure slot config).2 = (configure none config).2 := by
  unfold configure
  cases Client.build config.settings <;> rfl

namespace Outcome

variable {α : Type}

def Unconfigured (o : Outcome α) : Prop :=
  o.result = none ∧ Diagnostic.Only "initialize-client failed" (fun _ => "provider is not configured") o.errors

def Failed (operation : String) (e : ApiError) (o : Outcome α) : Prop :=
  Diagnostic.Only (operation ++ " failed") (ApiError.message · e) o.errors

end Outcome

namespace Step

namespace Result

/-- A call that is made directly has no result without a client. -/
def Unconfigured : Result → Prop
  | .checked o => o.Unconfigured
  | .listed _ o => o.Unconfigured
  | .policy o => o.Unconfigured
  | .called _ r _ => r = none
  | .connected _ | .planned _ | .hidden _ => False

def Failed (operation : String) (e : ApiError) : Result → Prop
  | .checked o => o.Failed operation e
  | .listed _ o => o.Failed operation e
  | .policy o => o.Failed operation e
  | .called _ r _ => r = some (.error e)
  | .connected _ | .planned _ | .hidden _ => False

theorem onRequests_nil {r : Result} (h : r.requests = []) (answer : Http.Answer) :
    r.onRequests (·.flatMap (Http.Request.sent answer)) = r := by
  cases r with
  | connected | planned | hidden => rfl
  | checked o | listed _ o | policy o =>
    obtain ⟨result, errors, requests⟩ := o
    obtain rfl : requests = [] := h
    rfl
  | called c r requests =>
    obtain rfl : requests = [] := h
    rfl

end Result

/-- The call that a step makes once it is past its check of an identifier. -/
def call? : Step → Option Call
  | .read d config => some (d.call config.ids config.filters)
  | .readPolicy s _ => (getId s).toOption.map .getPolicy
  | .create planned _ => some (.createPolicy (Policy.protectionPolicy.expand planned))
  | .update prior planned _ => (getId prior).toOption.map fun id => .updatePolicy id (updateBody prior planned)
  | .destroy prior => (getId prior).toOption.map .deletePolicy
  | .importPolicy id => if id = "" then none else some (.getPolicy id)
  | .call c => some c
  | .connect _ | .validateProvider _ | .configureProvider _ | .validate .. | .validatePolicy _ | .planCreate _
  | .planUpdate .. | .planDestroy _ => none

end Step

/-! ## Relays -/

/-- How a step answers, by the result of its call, if there is a client, and by the requests. -/
structure Relay (call : Call) where
  answer : Option (Except ApiError call.reply.Model) → List Http.Request → Step.Result
  requests_answer : ∀ r l, (answer r l).requests = l
  onRequests_answer : ∀ f r l, (answer r l).onRequests f = answer r (f l)
  unconfigured : (answer none []).Unconfigured
  failed : ∀ e l, e.isNotFound = false → (answer (some (.error e)) l).Failed call.operation e

/-- The outcome of an operation is the answer of a step as it is. -/
structure Step.Result.Wraps {α : Type} (wrap : Outcome α → Step.Result) : Prop where
  requests : ∀ o, (wrap o).requests = o.requests
  onRequests : ∀ f o, (wrap o).onRequests f = wrap (o.onRequests f)
  unconfigured : ∀ o, o.Unconfigured → (wrap o).Unconfigured
  failed : ∀ operation e o, o.Failed operation e → (wrap o).Failed operation e

namespace Step

theorem wraps_checked : Result.Wraps Result.checked :=
  ⟨fun _ => rfl, fun _ _ => rfl, fun _ h => h, fun _ _ _ h => h⟩

theorem wraps_listed (d : DataSource) : Result.Wraps (Result.listed d) :=
  ⟨fun _ => rfl, fun _ _ => rfl, fun _ h => h, fun _ _ _ h => h⟩

theorem wraps_policy : Result.Wraps Result.policy :=
  ⟨fun _ => rfl, fun _ _ => rfl, fun _ h => h, fun _ _ _ h => h⟩

def Relays (call : Call) (answer : Http.Answer) (f : Option Client → Result) : Prop :=
  ∃ r : Relay call, ∀ slot, f slot = r.answer (slot.map fun c => c.result call answer) (slot.elim [] fun c => c.issued call)

theorem relays_call {α : Type} {wrap : Outcome α → Result} (hw : Result.Wraps wrap) {call : Call} {answer : Http.Answer}
    {k : Except ApiError call.reply.Model → Outcome α} (quiet : ∀ x, (k x).requests = [])
    (failed : ∀ e, e.isNotFound = false → (k (.error e)).Failed call.operation e) :
    Relays call answer fun slot => wrap (.call slot call answer k) := by
  -- without a client the outcome is that of a failed operation, to which no request is added
  let reply : Option (Except ApiError call.reply.Model) → Outcome α
    | none => .fail (.noClient .notConfigured)
    | some x => k x
  refine ⟨{
    answer := fun r l => wrap { reply r with requests := l }
    requests_answer := fun r l => hw.requests _
    onRequests_answer := fun f r l => hw.onRequests f _
    unconfigured := hw.unconfigured _ ⟨rfl, _, rfl, rfl, fun _ => rfl, rfl⟩
    failed := fun e l he => hw.failed _ _ _ (failed e he) }, ?_⟩
  intro slot
  cases slot with
  | none => rfl
  | some c =>
    show wrap { k (c.result call answer) with requests := c.issued call ++ (k (c.result call answer)).requests } = _
    rw [quiet, List.append_nil]
    rfl

theorem relays_listed (d : DataSource) (config : d.State) (now : String) (answer : Http.Answer) :
    Relays (d.call config.ids config.filters) answer fun slot => .listed d (d.read slot config answer now) := by
  unfold DataSource.read
  refine relays_call (wraps_listed d) ?_ ?_
  · rintro (e | m) <;> rfl
  · exact fun e _ => ⟨_, rfl, rfl, fun _ => rfl, rfl⟩

theorem relays_read {s : Policy.State} {id : String} (hid : getId s = .value id) (hidden : Policy.Private)
    (answer : Http.Answer) :
    Relays (.getPolicy id) answer fun slot => .policy (Policy.Resource.read slot s hidden answer) := by
  simp only [Policy.Resource.read, hid]
  refine relays_call wraps_policy ?_ ?_
  · rintro (e | m)
    · dsimp only
      split <;> rfl
    · rfl
  · intro e he
    simp only [he, Bool.false_eq_true, if_false]
    exact ⟨_, rfl, rfl, fun _ => rfl, rfl⟩

theorem relays_create (planned : Policy.State) (hidden : Policy.Private) (answer : Http.Answer) :
    Relays (.createPolicy (Policy.protectionPolicy.expand planned)) answer fun slot =>
      .policy (Policy.Resource.create slot planned hidden answer) := by
  unfold Policy.Resource.create
  refine relays_call wraps_policy ?_ ?_
  · rintro (e | m)
    · rfl
    · dsimp only
      split <;> rfl
  · exact fun e _ => ⟨_, rfl, rfl, fun _ => rfl, rfl⟩

theorem relays_update {prior : Policy.State} {id : String} (hid : getId prior = .value id) (planned : Policy.State)
    (hidden : Policy.Private) (answer : Http.Answer) :
    Relays (.updatePolicy id (updateBody prior planned)) answer fun slot =>
      .policy (Policy.Resource.update slot prior planned hidden answer) := by
  simp only [Policy.Resource.update, hid]
  refine relays_call wraps_policy ?_ ?_
  · rintro (e | m) <;> rfl
  · exact fun e _ => ⟨_, rfl, rfl, fun _ => rfl, rfl⟩

theorem relays_destroy {prior : Policy.State} {id : String} (hid : getId prior = .value id) (answer : Http.Answer) :
    Relays (.deletePolicy id) answer fun slot => .checked (Policy.Resource.destroy slot prior answer) := by
  simp only [Policy.Resource.destroy, hid]
  refine relays_call wraps_checked ?_ ?_
  · rintro (e | m)
    · dsimp only
      split <;> rfl
    · rfl
  · intro e he
    simp only [he, Bool.false_eq_true, if_false]
    exact ⟨_, rfl, rfl, fun _ => rfl, rfl⟩

theorem relays_import {id : String} (hid : id ≠ "") (answer : Http.Answer) :
    Relays (.getPolicy id) answer fun slot => .policy (Policy.Resource.importId slot id answer) := by
  simp only [Policy.Resource.importId, if_neg hid]
  refine relays_call wraps_policy ?_ ?_
  · rintro (e | m) <;> rfl
  · exact fun e _ => ⟨_, rfl, rfl, fun _ => rfl, rfl⟩

theorem relays_called (c : Call) (now : String) (answer : Http.Answer) :
    Relays c answer fun slot => (call c).result slot now answer := by
  refine ⟨{
    answer := .called c
    requests_answer := fun _ _ => rfl
    onRequests_answer := fun _ _ _ => rfl
    unconfigured := rfl
    failed := fun _ _ _ => rfl }, ?_⟩
  intro slot
  cases slot <;> rfl

theorem getId_of_map_eq_some {α : Type} {s : Policy.State} {f : String → α} {a : α}
    (h : (getId s).toOption.map f = some a) : ∃ id, getId s = .value id ∧ f id = a := by
  cases hid : getId s with
  | value id =>
    rw [hid] at h
    exact ⟨id, rfl, Option.some.inj h⟩
  | null | unknown =>
    rw [hid] at h
    cases h

theorem getId_of_map_eq_none {α : Type} {s : Policy.State} {f : String → α} (h : (getId s).toOption.map f = none)
    (id : String) : getId s ≠ .value id := by
  intro hid
  rw [hid] at h
  cases h

theorem exists_relay {s : Step} {call : Call} (h : s.call? = some call) (now : String) (answer : Http.Answer) :
    ∃ r : Relay call, ∀ slot, s.result slot now answer =
      r.answer (slot.map fun c => c.result call answer) (slot.elim [] fun c => c.issued call) := by
  cases s with
  | read d config =>
    cases h
    exact relays_listed d config now answer
  | readPolicy s hidden =>
    obtain ⟨id, hid, rfl⟩ := getId_of_map_eq_some h
    exact relays_read hid hidden answer
  | create planned hidden =>
    cases h
    exact relays_create planned hidden answer
  | update prior planned hidden =>
    obtain ⟨id, hid, rfl⟩ := getId_of_map_eq_some h
    exact relays_update hid planned hidden answer
  | destroy prior =>
    obtain ⟨id, hid, rfl⟩ := getId_of_map_eq_some h
    exact relays_destroy hid answer
  | importPolicy id =>
    by_cases hid : id = ""
    · simp [call?, hid] at h
    · simp only [call?, if_neg hid] at h
      cases h
      exact relays_import hid answer
  | call c =>
    cases h
    exact relays_called _ now answer
  | _ => cases h

theorem requests_result {s : Step} {call : Call} (h : s.call? = some call) {c : Client} (hs : c.Sends call) (now : String)
    (answer : Http.Answer) : (s.result (some c) now answer).requests = [c.request call] := by
  obtain ⟨r, hr⟩ := exists_relay h now answer
  rw [hr, r.requests_answer]
  exact Client.issued_of_sends hs

theorem exists_idle {s : Step} (h : s.call? = none) (now : String) (answer : Http.Answer) :
    ∃ r : Result, r.requests = [] ∧ ∀ slot, s.result slot now answer = r := by
  cases s with
  | read | create | call => cases h
  | readPolicy s hidden =>
    refine ⟨.policy (.fail .noPolicyId), rfl, fun slot => ?_⟩
    exact congrArg _ (read_unidentified slot hidden answer (getId_of_map_eq_none h))
  | update prior planned hidden =>
    refine ⟨.policy (.fail .noPolicyId), rfl, fun slot => ?_⟩
    exact congrArg _ (update_unidentified slot hidden answer (getId_of_map_eq_none h) planned)
  | destroy prior =>
    refine ⟨.checked (.ok ()), rfl, fun slot => ?_⟩
    exact congrArg _ (destroy_unidentified slot answer (getId_of_map_eq_none h))
  | importPolicy id =>
    by_cases hid : id = ""
    · exact ⟨.policy (.fail .emptyPolicyId), rfl, fun slot => congrArg Result.policy (if_pos hid)⟩
    · simp [call?, hid] at h
  | configureProvider config =>
    refine ⟨.checked (Provider.configure none config).2, ?_, fun slot => ?_⟩
    · show (Provider.configure none config).2.requests = []
      unfold Provider.configure
      split <;> rfl
    · exact congrArg Result.checked (Provider.configure_outcome slot config)
  | _ => exact ⟨_, rfl, fun _ => rfl⟩

end Step

end ProtectionProvider
