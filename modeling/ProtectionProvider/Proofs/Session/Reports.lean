import ProtectionProvider.Proofs.Policy.Fulfilment
import ProtectionProvider.Proofs.Policy.Refresh
import ProtectionProvider.Proofs.Session.Relay

/-!
# What operations report

An operation that returns nothing says why, and one that returns something has nothing to say. The
exceptions are refreshes of a policy: one that is gone is dropped without an error, and after any other
failure the state is returned together with one (`operations_reported`).
-/

namespace ProtectionProvider

open Policy.Resource (destroy_unidentified getId localClient read_end read_unconfigured read_unidentified stored update_unidentified)

/-! ## Conclusions -/

structure Conclusion where
  returned : Bool
  errors : List Diagnostic
  deriving DecidableEq, Repr

namespace Conclusion

/-- Nothing is returned exactly if an error is reported. -/
def Candid (r : Conclusion) : Prop := r.returned = false ↔ r.errors ≠ []

def texts (complaint : String) (r : Conclusion) : List (String × String × List String) :=
  r.errors.map fun d => (d.summary, d.detail complaint, d.path)

/-- One error at most is reported, and a call that failed by the error of the call. To a forgiving
operation a resource that is gone is no failure. -/
structure Tells (slot : Option Client) (call : Call) (answer : Http.Answer) (forgiving : Bool) (r : Conclusion) :
    Prop where
  single : r.errors.length ≤ 1
  failed : ∀ c e complaint, slot = some c → c.result call answer = .error e → r.texts complaint =
    if forgiving && e.isNotFound then [] else [(call.operation ++ " failed", e.message complaint, [])]

end Conclusion

namespace Outcome

variable {α : Type}

def conclusion (o : Outcome α) : Conclusion := ⟨o.result.isSome, o.errors⟩

inductive Plain : Outcome α → Prop where
  | ok (a : α) : Plain (ok a)
  | fail (e : Diagnostic) : Plain (fail e)

theorem Plain.candid {o : Outcome α} (h : o.Plain) : o.conclusion.Candid := by
  cases h <;> simp [Conclusion.Candid, conclusion, Outcome.ok, Outcome.fail]

theorem Plain.single {o : Outcome α} (h : o.Plain) : o.errors.length ≤ 1 := by
  cases h with
  | ok a => exact Nat.zero_le 1
  | fail e => exact Nat.le_refl 1

theorem plain_configure (slot : Option Client) (config : Provider.Config) : (Provider.configure slot config).2.Plain := by
  unfold Provider.configure
  split
  · exact .ok ()
  · exact .fail _

theorem candid_check (errors : List Diagnostic) : (check errors).conclusion.Candid := by
  by_cases h : errors = []
  · simp [Conclusion.Candid, conclusion, check, h]
  · simp [Conclusion.Candid, conclusion, check, h]

section
variable {slot : Option Client} {call : Call} {answer : Http.Answer} {forgiving : Bool}
  {k : Except ApiError call.reply.Model → Outcome α}

theorem tells_call (single : ∀ x, (k x).errors.length ≤ 1)
    (failed : ∀ e, (k (.error e)).errors = if forgiving && e.isNotFound then [] else [.callFailed call.operation e]) :
    (Outcome.call slot call answer k).conclusion.Tells slot call answer forgiving where
  single := by
    cases slot with
    | none => exact Nat.le_refl 1
    | some c => exact single (c.result call answer)
  failed := by
    intro c e complaint hc he
    subst hc
    show (k (c.result call answer)).errors.map (fun d => (d.summary, d.detail complaint, d.path)) = _
    rw [he, failed]
    split <;> rfl

theorem reported_call (plain : ∀ x, (k x).Plain)
    (failed : ∀ e, (k (.error e)).errors = if forgiving && e.isNotFound then [] else [.callFailed call.operation e]) :
    (Outcome.call slot call answer k).conclusion.Candid ∧
      (Outcome.call slot call answer k).conclusion.Tells slot call answer forgiving := by
  refine ⟨?_, tells_call (fun x => (plain x).single) failed⟩
  cases slot with
  | none => exact (Plain.fail _).candid
  | some c => exact (plain (c.result call answer)).candid

theorem reported_strict (ok : ∀ m, (k (.ok m)).Plain) (error : ∀ e, k (.error e) = fail (.callFailed call.operation e)) :
    (Outcome.call slot call answer k).conclusion.Candid ∧
      (Outcome.call slot call answer k).conclusion.Tells slot call answer false := by
  apply reported_call
  · intro x
    cases x with
    | error e =>
      rw [error]
      exact .fail _
    | ok m => exact ok m
  · intro e
    rw [error]
    rfl

end

end Outcome

/-! ## Operations with a call -/

section
variable (slot : Option Client) (answer : Http.Answer)

theorem DataSource.reported_read (d : DataSource) (config : d.State) (now : String) :
    (d.read slot config answer now).conclusion.Candid ∧
      (d.read slot config answer now).conclusion.Tells slot (d.call config.ids config.filters) answer false := by
  unfold DataSource.read
  exact Outcome.reported_strict (fun m => .ok _) fun e => rfl

namespace Policy.Resource

theorem reported_create (planned : State) (hidden : Private) :
    (create slot planned hidden answer).conclusion.Candid ∧
      (create slot planned hidden answer).conclusion.Tells slot (creation planned) answer false := by
  unfold create
  apply Outcome.reported_strict
  · intro m
    dsimp only
    split
    · exact .ok _
    · exact .fail _
  · intro e
    rfl

theorem reported_update {prior : State} {id : String} (hid : getId prior = .value id) (planned : State) (hidden : Private) :
    (update slot prior planned hidden answer).conclusion.Candid ∧
      (update slot prior planned hidden answer).conclusion.Tells slot (change id prior planned) answer false := by
  unfold update
  rw [hid]
  exact Outcome.reported_strict (fun m => .ok _) fun e => rfl

theorem reported_importId {id : String} (hid : id ≠ "") :
    (importId slot id answer).conclusion.Candid ∧
      (importId slot id answer).conclusion.Tells slot (.getPolicy id) answer false := by
  unfold importId
  rw [if_neg hid]
  exact Outcome.reported_strict (fun m => .ok _) fun e => rfl

theorem reported_destroy {prior : State} {id : String} (hid : getId prior = .value id) :
    (destroy slot prior answer).conclusion.Candid ∧
      (destroy slot prior answer).conclusion.Tells slot (.deletePolicy id) answer true := by
  unfold destroy
  rw [hid]
  apply Outcome.reported_call
  · intro x
    cases x with
    | error e =>
      dsimp only
      split
      · exact .ok _
      · exact .fail _
    | ok m => exact .ok _
  · intro e
    rw [Bool.true_and]
    dsimp only
    split <;> rfl

theorem tells_read {s : State} {id : String} (hid : getId s = .value id) (hidden : Private) :
    (read slot s hidden answer).conclusion.Tells slot (.getPolicy id) answer true := by
  unfold read
  rw [hid]
  apply Outcome.tells_call
  · intro x
    cases x with
    | error e =>
      dsimp only
      split
      · exact Nat.zero_le 1
      · exact Nat.le_refl 1
    | ok m => exact Nat.zero_le 1
  · intro e
    rw [Bool.true_and]
    dsimp only
    split <;> rfl

end Policy.Resource

end

/-! ## Steps -/

namespace Step

/-- The conclusion of a step that is an operation. A client that is built and a call that is made
directly are none. -/
def Result.conclusion? : Result → Option Conclusion
  | .checked o => some o.conclusion
  | .listed _ o => some o.conclusion
  | .policy o => some o.conclusion
  | .planned _ | .hidden _ => some ⟨true, []⟩
  | .connected _ | .called .. => none

def validates : Step → Bool
  | .validateProvider _ | .validate .. | .validatePolicy _ => true
  | _ => false

/-- A policy that is gone is no failure to a refresh and to a deletion. -/
def forgiving : Step → Bool
  | .readPolicy .. | .destroy _ => true
  | _ => false

/-- The step refreshes the policy of this identifier with this client. -/
structure Refreshes (slot : Option Client) (s : Step) (c : Client) (id : String) (prior : Policy.State)
    (hidden : Policy.Private) : Prop where
  slot : slot = some c
  step : s = .readPolicy prior hidden
  value : getId prior = .value id

/-- What an operation with the conclusion `r` returns and reports, once it has made its request. -/
structure Reported (slot : Option Client) (now : String) (answer : Http.Answer) (s : Step) (r : Conclusion) : Prop where
  /-- An operation is candid unless it is a refresh whose call failed. -/
  candid : (∀ c id prior hidden, s.Refreshes slot c id prior hidden →
    ∃ m, (c.arrived (.getPolicy id) answer).Holds (.getPolicy id) m) → r.Candid
  dropped : ∀ c id prior hidden body, s.Refreshes slot c id prior hidden →
    c.arrived (.getPolicy id) answer = .whole 404 body → r = ⟨false, []⟩
  kept : ∀ c id prior hidden, s.Refreshes slot c id prior hidden → (c.arrived (.getPolicy id) answer).Fails (.getPolicy id) →
    ∃ e o, r = ⟨true, [e]⟩ ∧ s.result slot now answer = .policy o ∧ o.result = some (prior, hidden)
  single : s.validates = false → r.errors.length ≤ 1
  tells : ∀ call, s.call? = some call → r.Tells slot call answer s.forgiving
  requested : ∀ c call, slot = some c → s.call? = some call → c.Sends call →
    (s.result slot now answer).requests = [c.request call]

section
variable {slot : Option Client} {now : String} {answer : Http.Answer} {s : Step} {r : Conclusion}

theorem requested_of_sends (c : Client) (call : Call) (hc : slot = some c) (h : s.call? = some call) (hs : c.Sends call) :
    (s.result slot now answer).requests = [c.request call] := by
  subst hc
  exact requests_result h hs now answer

theorem reported_of_candid (hs : ∀ c id prior hidden, ¬ s.Refreshes slot c id prior hidden) (candid : r.Candid)
    (single : s.validates = false → r.errors.length ≤ 1)
    (tells : ∀ call, s.call? = some call → r.Tells slot call answer s.forgiving) : Reported slot now answer s r where
  candid _ := candid
  dropped c id prior hidden _ h := absurd h (hs c id prior hidden)
  kept c id prior hidden h := absurd h (hs c id prior hidden)
  single := single
  tells := tells
  requested := requested_of_sends

theorem reported_of_tells {call : Call} (hs : ∀ c id prior hidden, ¬ s.Refreshes slot c id prior hidden)
    (hc : s.call? = some call) (h : r.Candid ∧ r.Tells slot call answer s.forgiving) : Reported slot now answer s r := by
  apply reported_of_candid hs h.1
  · intro _
    exact h.2.single
  · intro call' hc'
    rw [hc] at hc'
    cases hc'
    exact h.2

theorem Refreshes.call {c : Client} {id : String} {prior : Policy.State} {hidden : Policy.Private}
    (h : s.Refreshes slot c id prior hidden) : s.call? = some (.getPolicy id) := by
  rw [h.step]
  simp [call?, h.value, Value.toOption]

theorem reported_idle (hc : s.call? = none) (candid : r.Candid) (single : s.validates = false → r.errors.length ≤ 1) :
    Reported slot now answer s r := by
  apply reported_of_candid ?_ candid single
  · intro call hc'
    rw [hc] at hc'
    cases hc'
  · intro c id prior hidden h
    rw [h.call] at hc
    cases hc

theorem reported_plain {α : Type} {o : Outcome α} (hc : s.call? = none) (h : o.Plain) :
    Reported slot now answer s o.conclusion :=
  reported_idle hc h.candid fun _ => h.single

theorem Refreshes.unique {c c' : Client} {id id' : String} {prior prior' : Policy.State} {hidden hidden' : Policy.Private}
    (h : (readPolicy prior hidden).Refreshes (some c) c' id' prior' hidden') (hid : getId prior = .value id) :
    c' = c ∧ id' = id ∧ prior' = prior ∧ hidden' = hidden := by
  obtain ⟨hc, hs, hid'⟩ := h
  cases hc
  cases hs
  rw [hid] at hid'
  cases hid'
  exact ⟨rfl, rfl, rfl, rfl⟩

theorem reported_refreshed {prior : Policy.State} {id : String} (hid : getId prior = .value id) (c : Client)
    (hidden : Policy.Private) : Reported (some c) now answer (.readPolicy prior hidden)
      (Policy.Resource.read (some c) prior hidden answer).conclusion := by
  have he := read_end c hidden answer hid
  have ht := Policy.Resource.tells_read (some c) answer hid hidden
  refine ⟨?_, ?_, ?_, fun _ => ht.single, ?_, requested_of_sends⟩
  · intro h
    obtain ⟨m, hm⟩ := h c id prior hidden ⟨rfl, rfl, hid⟩
    obtain ⟨hr, hn⟩ := he.renews hm
    simp [Conclusion.Candid, Outcome.conclusion, hr, hn]
  · intro c' id' prior' hidden' body h hg
    obtain ⟨rfl, rfl, rfl, rfl⟩ := h.unique hid
    obtain ⟨hr, hn⟩ := he.drops_iff.mpr ⟨body, hg⟩
    simp [Outcome.conclusion, hr, hn]
  · intro c' id' prior' hidden' h hf
    obtain ⟨rfl, rfl, rfl, rfl⟩ := h.unique hid
    obtain ⟨hr, e, hn, -⟩ := he.keeps hf
    refine ⟨e, Policy.Resource.read (some c') prior' hidden' answer, ?_, rfl, hr⟩
    simp [Outcome.conclusion, hr, hn]
  · intro call hcall
    obtain ⟨id', hid', rfl⟩ := getId_of_map_eq_some hcall
    rw [hid] at hid'
    cases hid'
    exact ht

theorem candid_of_call {call : Call} (hs : ∀ c id prior hidden, ¬ s.Refreshes slot c id prior hidden)
    (hc : s.call? = some call) (h : (s.result slot now answer).conclusion? = some r) :
    r.Candid ∧ r.Tells slot call answer s.forgiving := by
  cases s with
  | read d config =>
    cases h
    cases hc
    exact d.reported_read slot answer config now
  | readPolicy prior hidden =>
    cases h
    obtain ⟨id, hid, rfl⟩ := getId_of_map_eq_some hc
    cases slot with
    | none =>
      refine ⟨?_, Policy.Resource.tells_read none answer hid hidden⟩
      rw [read_unconfigured hidden answer hid]
      exact (Outcome.Plain.fail _).candid
    | some c => exact absurd ⟨rfl, rfl, hid⟩ (hs c id prior hidden)
  | create planned hidden =>
    cases h
    cases hc
    exact Policy.Resource.reported_create slot answer planned hidden
  | update prior planned hidden =>
    cases h
    obtain ⟨id, hid, rfl⟩ := getId_of_map_eq_some hc
    exact Policy.Resource.reported_update slot answer hid planned hidden
  | destroy prior =>
    cases h
    obtain ⟨id, hid, rfl⟩ := getId_of_map_eq_some hc
    exact Policy.Resource.reported_destroy slot answer hid
  | importPolicy id =>
    cases h
    by_cases hid : id = ""
    · simp [call?, hid] at hc
    · simp only [call?, if_neg hid] at hc
      cases hc
      exact Policy.Resource.reported_importId slot answer hid
  | call c => cases slot <;> cases h
  | _ => cases hc

theorem reported_called {call : Call} (hc : s.call? = some call) (h : (s.result slot now answer).conclusion? = some r) :
    Reported slot now answer s r := by
  by_cases hs : ∃ c id prior hidden, s.Refreshes slot c id prior hidden
  · obtain ⟨c, id, prior, hidden, rfl, rfl, hid⟩ := hs
    cases h
    exact reported_refreshed hid c hidden
  · have hn : ∀ c id prior hidden, ¬ s.Refreshes slot c id prior hidden := by
      intro c id prior hidden h
      exact hs ⟨c, id, prior, hidden, h⟩
    exact reported_of_tells hn hc (candid_of_call hn hc h)

theorem reported_uncalled (hc : s.call? = none) (h : (s.result slot now answer).conclusion? = some r) :
    Reported slot now answer s r := by
  cases s with
  | read | create | call => cases hc
  | connect settings => cases h
  | readPolicy prior hidden =>
    cases h
    rw [read_unidentified slot hidden answer (getId_of_map_eq_none hc)]
    exact reported_plain hc (.fail _)
  | update prior planned hidden =>
    cases h
    rw [update_unidentified slot hidden answer (getId_of_map_eq_none hc)]
    exact reported_plain hc (.fail _)
  | destroy prior =>
    cases h
    rw [destroy_unidentified slot answer (getId_of_map_eq_none hc)]
    exact reported_plain hc (.ok _)
  | importPolicy id =>
    cases h
    by_cases hid : id = ""
    · unfold Policy.Resource.importId
      rw [if_pos hid]
      exact reported_plain hc (.fail _)
    · simp [call?, hid] at hc
  | configureProvider config =>
    cases h
    exact reported_plain hc (Outcome.plain_configure slot config)
  | validateProvider | validate | validatePolicy =>
    cases h
    apply reported_idle rfl (Outcome.candid_check _)
    intro h
    cases h
  | planCreate proposed =>
    cases h
    exact reported_plain rfl (.ok _)
  | planUpdate | planDestroy =>
    cases h
    exact reported_plain rfl (.ok ())

theorem reported (h : (s.result slot now answer).conclusion? = some r) : Reported slot now answer s r := by
  cases hc : s.call? with
  | none => exact reported_uncalled hc h
  | some call => exact reported_called hc h

end

end Step

theorem operations_reported (slot : Option Client) (now : String) (answer : Http.Answer) (s : Step) (r : Conclusion)
    (h : (s.result slot now answer).conclusion? = some r) : Step.Reported slot now answer s r :=
  Step.reported h

theorem operations_reported_gone :
    Step.Reported (some localClient) "" (.whole 404 []) (.readPolicy stored .null) ⟨false, []⟩ ∧
      Step.Reported (some localClient) "" (.whole 404 []) (.importPolicy "p")
        ⟨false, [.callFailed "GetProtectionPolicyById" (.status 404 "")]⟩ := by
  refine ⟨operations_reported _ _ _ _ _ ?_, operations_reported _ _ _ _ _ ?_⟩
  · decide +kernel
  · decide +kernel

end ProtectionProvider
