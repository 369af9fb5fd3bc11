import ProtectionProvider.Proofs.Policy.Lifecycle
import ProtectionProvider.Proofs.Session.Relay

/-!
# The client and the requests of a session

Each step finds the client that was built last, and sends the one request of its call, if that can be
made and is not redirected (`run_disciplined`). Every redirection that is followed is one request more
(`sent_eq_iff`).
-/

namespace ProtectionProvider

open Policy.Resource (localClient)

/-! ## The slot -/

theorem Provider.configure_slot (slot : Option Client) (config : Provider.Config) :
    (Provider.configure slot config).1 = (Client.build config.settings).toOption.or slot := by
  unfold Provider.configure
  cases Client.build config.settings <;> rfl

namespace Step

/-- The client that the step puts in the slot. -/
def built? : Step → Option Client
  | .connect settings => (Client.build settings).toOption
  | .configureProvider config => (Client.build config.settings).toOption
  | _ => none

theorem slot_eq (s : Step) (slot : Option Client) : s.slot slot = s.built?.or slot := by
  cases s with
  | connect settings =>
    simp only [Step.slot, built?]
    cases Client.build settings <;> rfl
  | configureProvider config => exact Provider.configure_slot slot config
  | _ => rfl

end Step

namespace Session

/-- The client that was built last, or else the one that was there before. -/
def held (slot : Option Client) (before : List (Step × Http.Answer)) : Option Client :=
  (before.filterMap fun x => x.1.built?).getLast?.or slot

theorem held_cons (slot : Option Client) (x : Step × Http.Answer) (before : List (Step × Http.Answer)) :
    held slot (x :: before) = held (x.1.slot slot) before := by
  unfold held
  rw [x.1.slot_eq, List.filterMap_cons]
  cases x.1.built? with
  | none => rfl
  | some c =>
    rw [List.getLast?_cons]
    cases (before.filterMap fun x => x.1.built?).getLast? <;> rfl

theorem run_getElem? (now : String) (s : Step) (answer : Http.Answer) (after : List (Step × Http.Answer)) :
    ∀ (before : List (Step × Http.Answer)) (slot : Option Client),
      (run now slot (before ++ (s, answer) :: after))[before.length]? = some (s.seen (held slot before) now answer)
  | [], _ => rfl
  | x :: before, slot => by
    rw [held_cons]
    exact run_getElem? now s answer after before (x.1.slot slot)

end Session

/-! ## Redirections -/

namespace Http

def Answer.Direct : Answer → Prop
  | .moved .. => False
  | .dropped | .cut | .whole .. => True

theorem Request.sent_eq_iff (answer : Answer) (r : Request) : r.sent answer = [r] ↔ answer.Direct := by
  cases answer with
  | dropped | cut | whole => exact ⟨fun _ => trivial, fun _ => rfl⟩
  | moved keeps target next =>
    refine ⟨fun h => ?_, False.elim⟩
    cases h

theorem Request.length_followed_le (answer : Answer) : ∀ (n : Nat) (r : Request), (r.followed n answer).length ≤ n := by
  induction answer with
  | dropped | cut | whole => exact fun n r => by cases n <;> exact Nat.zero_le _
  | moved keeps target next ih =>
    intro n r
    cases n with
    | zero => exact Nat.le_refl 0
    | succ n => exact Nat.succ_le_succ (ih n (r.redirected keeps target))

theorem Request.length_sent_le (answer : Answer) (r : Request) : (r.sent answer).length ≤ redirectLimit + 1 :=
  Nat.succ_le_succ (length_followed_le answer redirectLimit r)

end Http

/-! ## Steps -/

structure Disciplined (slot : Option Client) (s : Step) (answer : Http.Answer) (r : Step.Result) : Prop where
  replaces : ∀ c, s.built? = some c → s.slot slot = some c
  keeps : s.built? = none → s.slot slot = slot
  idle : s.call? = none → r.requests = []
  unconfigured : slot = none → r.requests = [] ∧ (s.call? ≠ none → r.Unconfigured)
  single : answer.Direct → r.requests.length ≤ 1
  sent : ∀ c call, slot = some c → s.call? = some call → c.Sends call → answer.Direct → r.requests = [c.request call]
  /-- A URL that is no URI is not asked for. -/
  unsent : ∀ c call, slot = some c → s.call? = some call → ¬ c.Sends call →
    r.requests = [] ∧ ∃ e, r.Failed call.operation e

namespace Step

theorem seen_of_idle {s : Step} (h : s.call? = none) (slot : Option Client) (now : String) (answer : Http.Answer) :
    (s.seen slot now answer).requests = [] := by
  obtain ⟨r, hq, hr⟩ := exists_idle h now answer
  rw [seen, hr, Result.onRequests_nil hq, hq]

theorem seen_of_call {s : Step} {call : Call} (h : s.call? = some call) (now : String) (answer : Http.Answer) :
    ∃ r : Relay call, ∀ slot, s.seen slot now answer = r.answer (slot.map fun c => c.result call answer)
      (slot.elim [] fun c => (c.issued call).flatMap (Http.Request.sent answer)) := by
  obtain ⟨r, hr⟩ := exists_relay h now answer
  refine ⟨r, fun slot => ?_⟩
  rw [seen, hr, r.onRequests_answer]
  cases slot <;> rfl

theorem requests_of_call {s : Step} {call : Call} (h : s.call? = some call) (slot : Option Client) (now : String)
    (answer : Http.Answer) : (s.seen slot now answer).requests =
      slot.elim [] fun c => (c.issued call).flatMap (Http.Request.sent answer) := by
  obtain ⟨r, hr⟩ := seen_of_call h now answer
  rw [hr, r.requests_answer]

theorem requests_of_sends {s : Step} {call : Call} (h : s.call? = some call) {c : Client} (hs : c.Sends call)
    (now : String) (answer : Http.Answer) :
    (s.seen (some c) now answer).requests = (c.request call).sent answer := by
  rw [requests_of_call h, Option.elim_some, Client.issued_of_sends hs, List.flatMap_singleton]

theorem requests_of_not_sends {s : Step} {call : Call} (h : s.call? = some call) {c : Client} (hs : ¬ c.Sends call)
    (now : String) (answer : Http.Answer) : (s.seen (some c) now answer).requests = [] := by
  rw [requests_of_call h, Option.elim_some, Client.issued_of_not_sends hs, List.flatMap_nil]

theorem unconfigured_of_call {s : Step} {call : Call} (h : s.call? = some call) (now : String)
    (answer : Http.Answer) : (s.seen none now answer).Unconfigured := by
  obtain ⟨r, hr⟩ := seen_of_call h now answer
  rw [hr]
  exact r.unconfigured

theorem failed_of_not_sends {s : Step} {call : Call} (h : s.call? = some call) {c : Client} (hs : ¬ c.Sends call)
    (now : String) (answer : Http.Answer) : ∃ e, (s.seen (some c) now answer).Failed call.operation e := by
  obtain ⟨r, hr⟩ := seen_of_call h now answer
  obtain ⟨e, he, hn⟩ := Client.result_of_not_sends hs answer
  refine ⟨e, ?_⟩
  rw [hr, Option.map_some, he]
  exact r.failed e _ hn

/-- A step sends nothing, or one request with all that it is redirected to. -/
theorem requests_cases (s : Step) (slot : Option Client) (now : String) (answer : Http.Answer) :
    (s.seen slot now answer).requests = [] ∨ ∃ r : Http.Request, (s.seen slot now answer).requests = r.sent answer := by
  cases h : s.call? with
  | none => exact .inl (seen_of_idle h slot now answer)
  | some call =>
    cases slot with
    | none => exact .inl (requests_of_call h none now answer)
    | some c =>
      by_cases hs : c.Sends call
      · exact .inr ⟨c.request call, requests_of_sends h hs now answer⟩
      · exact .inl (requests_of_not_sends h hs now answer)

theorem length_requests_le (s : Step) (slot : Option Client) (now : String) {answer : Http.Answer} (ha : answer.Direct) :
    (s.seen slot now answer).requests.length ≤ 1 := by
  obtain hn | ⟨r, hr⟩ := s.requests_cases slot now answer
  · rw [hn]
    exact Nat.zero_le 1
  · rw [hr, (Http.Request.sent_eq_iff answer r).mpr ha]
    exact Nat.le_refl 1

/-- However often a step is redirected, its requests come to an end. -/
theorem length_requests_le_limit (s : Step) (slot : Option Client) (now : String) (answer : Http.Answer) :
    (s.seen slot now answer).requests.length ≤ Http.redirectLimit + 1 := by
  obtain hn | ⟨r, hr⟩ := s.requests_cases slot now answer
  · rw [hn]
    exact Nat.zero_le _
  · rw [hr]
    exact Http.Request.length_sent_le answer r

theorem disciplined (s : Step) (slot : Option Client) (now : String) (answer : Http.Answer) :
    Disciplined slot s answer (s.seen slot now answer) where
  replaces c h := by rw [slot_eq, h]; rfl
  keeps h := by rw [slot_eq, h]; rfl
  idle h := seen_of_idle h slot now answer
  unconfigured hslot := by
    subst hslot
    cases h : s.call? with
    | none => exact ⟨seen_of_idle h none now answer, fun hn => absurd rfl hn⟩
    | some call => exact ⟨requests_of_call h none now answer, fun _ => unconfigured_of_call h now answer⟩
  single := s.length_requests_le slot now
  sent c call hc h hs ha := by
    subst hc
    rw [requests_of_sends h hs]
    exact (Http.Request.sent_eq_iff answer _).mpr ha
  unsent c call hc h hs := by
    subst hc
    exact ⟨requests_of_not_sends h hs now answer, failed_of_not_sends h hs now answer⟩

end Step

/-! ## Sessions -/

theorem Session.run_disciplined (now : String) (slot : Option Client) (before : List (Step × Http.Answer)) (s : Step)
    (answer : Http.Answer) (after : List (Step × Http.Answer)) :
    (run now slot (before ++ (s, answer) :: after))[before.length]? = some (s.seen (held slot before) now answer) ∧
      Disciplined (held slot before) s answer (s.seen (held slot before) now answer) :=
  ⟨run_getElem? now s answer after before slot, s.disciplined (held slot before) now answer⟩

/-- The host of this endpoint may stand in a URL, but not in a URI. -/
def bracedClient : Client :=
  { localClient with
    endpoint := "http://a\x7bb"
    base := { localClient.base with host := "a\x7bb".toList } }

def loginPage : Url := { localClient.base with path := ["login".toList] }

theorem requests_not_one :
    Client.build ⟨"http://a\x7bb", "t", none, none⟩ = .ok bracedClient ∧ bracedClient.base.secure = false ∧
      (Session.run "" none [(.connect ⟨"http://a\x7bb", "t", none, none⟩, .dropped),
        (.importPolicy "p", .whole 200 [])]).map (fun r => r.requests.length) = [0, 0] ∧
      (Session.run "" (some localClient) [(.importPolicy "p", .moved true loginPage (.whole 200 []))]).map
        (fun r => r.requests.length) = [2] := by
  refine ⟨rfl, rfl, ?_, ?_⟩
  · decide +kernel
  · decide +kernel

end ProtectionProvider
