import Mathlib.Data.List.Forall2
import ProtectionProvider.Proofs.Client.Building
import ProtectionProvider.Proofs.Session.Discipline

/-!
# The secrecy of the token

Two sessions that differ in nothing but tokens that are accepted give the same answers, up to the
authorization of their requests (`run_twin`). In each pair of steps the clients differ in their tokens
alone, and a step knows of its client only what does not depend on the token.
-/

namespace ProtectionProvider

open Client (withToken)

/-! ## Requests without their authorization -/

/-- A header without its value, if that is the authorization. -/
def Http.veilHeader (h : String × String) : String × String :=
  if h.1 = "authorization" then (h.1, "") else h

namespace Http.Request

def veil (r : Request) : Request := { r with headers := r.headers.map veilHeader }

theorem carried_veil (r : Request) (keeps : Bool) (target : Url) :
    r.veil.carried keeps target = (r.carried keeps target).map veilHeader := by
  have hname : ∀ h : String × String, (veilHeader h).1 = h.1 := by
    intro h
    unfold veilHeader
    split <;> rfl
  -- a header is kept or dropped by its name
  simp only [veil, carried, List.filter_map, Function.comp_def, hname]
  split
  · rfl
  · rw [List.map_append]
    rfl

theorem redirected_veil (r : Request) (keeps : Bool) (target : Url) :
    r.veil.redirected keeps target = (r.redirected keeps target).veil := by
  unfold redirected
  rw [carried_veil]
  rfl

theorem followed_veil (answer : Answer) :
    ∀ (n : Nat) (r : Request), r.veil.followed n answer = (r.followed n answer).map veil := by
  induction answer with
  | dropped | cut | whole => exact fun n _ => by cases n <;> rfl
  | moved keeps target next ih =>
    intro n r
    cases n with
    | zero => rfl
    | succ n => simp only [followed, redirected_veil, ih, List.map_cons]

theorem sent_veil (answer : Answer) (r : Request) : r.veil.sent answer = (r.sent answer).map veil := by
  rw [sent, sent, followed_veil, List.map_cons]

theorem flatMap_sent_veil (answer : Answer) (l : List Request) :
    (l.map veil).flatMap (sent answer) = (l.flatMap (sent answer)).map veil := by
  rw [List.flatMap_map, List.map_flatMap]
  simp only [sent_veil]

end Http.Request

/-! ## One client with two tokens -/

namespace Client

variable (token : String) (c : Client)

theorem veil_headers (u : Url) (body : Option String) :
    ((c.withToken token).headers u body).map Http.veilHeader = (c.headers u body).map Http.veilHeader := by
  simp [headers, Http.veilHeader, withToken]

theorem veil_request (call : Call) : ((c.withToken token).request call).veil = (c.request call).veil := by
  have hh := c.veil_headers token (c.callUrl call) call.body
  show ({ (c.request call) with headers := ((c.withToken token).headers (c.callUrl call) call.body).map Http.veilHeader } :
    Http.Request) = { (c.request call) with headers := (c.headers (c.callUrl call) call.body).map Http.veilHeader }
  rw [hh]

theorem veil_issued (call : Call) :
    ((c.withToken token).issued call).map Http.Request.veil = (c.issued call).map Http.Request.veil := by
  have hi : (c.withToken token).issued call =
      if (reportedUrl (c.callUrl call)).isUri then [(c.withToken token).request call] else [] := rfl
  rw [hi, issued]
  split
  · rw [List.map_singleton, List.map_singleton, veil_request]
  · rfl

theorem result_withToken (call : Call) (answer : Http.Answer) :
    (c.withToken token).result call answer = c.result call answer := rfl

end Client

/-! ## Steps -/

namespace Step

def Result.veil (r : Result) : Result := r.onRequests (List.map Http.Request.veil)

theorem Result.onRequests_onRequests (f g : List Http.Request → List Http.Request) (r : Result) :
    (r.onRequests f).onRequests g = r.onRequests fun l => g (f l) := by
  cases r <;> rfl

/-- The steps are the same, but for a token that is accepted in both. -/
inductive Twin : Step → Step → Prop where
  | same (s : Step) : Twin s s
  | connect {s : Settings} {token : String} (accepted : AcceptedToken s.token) (accepted' : AcceptedToken token) :
      Twin (.connect s) (.connect { s with token })
  | configure {config : Provider.Config} {token : Value String} (accepted : AcceptedToken config.token.text)
      (accepted' : AcceptedToken token.text) : Twin (.configureProvider config) (.configureProvider { config with token })

theorem veil_result (s : Step) (token : String) (slot : Option Client) (now : String) (answer : Http.Answer) :
    (s.result (slot.map (withToken token)) now answer).veil = (s.result slot now answer).veil := by
  cases h : s.call? with
  | none =>
    obtain ⟨r, -, hr⟩ := exists_idle h now answer
    rw [hr, hr]
  | some call =>
    obtain ⟨r, hr⟩ := exists_relay h now answer
    cases slot with
    | none => rfl
    | some c =>
      simp only [hr, Option.map_some, Option.elim_some, Result.veil, r.onRequests_answer, c.result_withToken,
        c.veil_issued]

theorem Twin.veil_result {s s' : Step} (h : s.Twin s') (token : String) (slot : Option Client) (now : String)
    (answer : Http.Answer) :
    (s'.result (slot.map (withToken token)) now answer).veil = (s.result slot now answer).veil := by
  cases h with
  | same => exact s.veil_result token slot now answer
  | @connect settings token' ha ha' =>
    have hb := Client.build_withToken ha ha'
    show Result.connected ((Client.build { settings with token := token' }).map Client.endpoint) =
      .connected ((Client.build settings).map Client.endpoint)
    rw [hb]
    cases Client.build settings <;> rfl
  | @configure config token' ha ha' =>
    have hb := Client.build_withToken (s := config.settings) ha ha'
    have hs : ({ config with token := token' } : Provider.Config).settings = { config.settings with token := token'.text } := rfl
    have ho : (Provider.configure none { config with token := token' }).2 = (Provider.configure none config).2 := by
      unfold Provider.configure
      rw [hs, hb]
      cases Client.build config.settings <;> rfl
    simp only [Step.result]
    rw [Provider.configure_outcome, ho, ← Provider.configure_outcome slot]

/-- Neither do redirections tell of the token. -/
theorem Twin.veil_seen {s s' : Step} (h : s.Twin s') (token : String) (slot : Option Client) (now : String)
    (answer : Http.Answer) :
    (s'.seen (slot.map (withToken token)) now answer).veil = (s.seen slot now answer).veil := by
  have veil_onRequests : ∀ r : Result, (r.onRequests (·.flatMap (Http.Request.sent answer))).veil =
      r.veil.onRequests (·.flatMap (Http.Request.sent answer)) := by
    intro r
    simp only [Result.veil, Result.onRequests_onRequests, Http.Request.flatMap_sent_veil]
  rw [seen, seen, veil_onRequests, veil_onRequests, h.veil_result token slot now answer]

theorem Twin.built {s s' : Step} (h : s.Twin s') : ∃ token, s'.built? = s.built?.map (withToken token) := by
  cases h with
  | same =>
    cases s.built? with
    | none => exact ⟨"", rfl⟩
    | some c => exact ⟨c.token, rfl⟩
  | @connect settings token ha ha' =>
    refine ⟨token, ?_⟩
    simp only [built?, Client.build_withToken ha ha']
    cases Client.build settings <;> rfl
  | @configure config token ha ha' =>
    refine ⟨token.text, ?_⟩
    show (Client.build { config.settings with token := token.text }).toOption = (Client.build config.settings).toOption.map _
    rw [Client.build_withToken (s := config.settings) ha ha']
    cases Client.build config.settings <;> rfl

theorem Twin.slot {s s' : Step} (h : s.Twin s') (token : String) (slot : Option Client) :
    ∃ token', s'.slot (slot.map (withToken token)) = (s.slot slot).map (withToken token') := by
  obtain ⟨token', hb⟩ := h.built
  rw [slot_eq, slot_eq, hb]
  cases s.built? with
  | none => exact ⟨token, rfl⟩
  | some c => exact ⟨token', rfl⟩

end Step

/-! ## Sessions -/

namespace Session

theorem veil_run (now : String) {l l' : List (Step × Http.Answer)}
    (h : List.Forall₂ (fun x y => x.1.Twin y.1 ∧ x.2 = y.2) l l') :
    ∀ (token : String) (slot : Option Client),
      (run now (slot.map (withToken token)) l').map Step.Result.veil = (run now slot l).map Step.Result.veil := by
  induction h with
  | nil => exact fun _ _ => rfl
  | @cons x y l l' hxy _ ih =>
    intro token slot
    obtain ⟨s, answer⟩ := x
    obtain ⟨s', answer'⟩ := y
    obtain ⟨hs, rfl⟩ := hxy
    obtain ⟨token', hslot⟩ := hs.slot token slot
    simp only [run, List.map_cons, hslot]
    rw [hs.veil_seen token slot now answer, ih token' (s.slot slot)]

theorem run_twin (now : String) (slot : Option Client) {l l' : List (Step × Http.Answer)}
    (h : List.Forall₂ (fun x y => x.1.Twin y.1 ∧ x.2 = y.2) l l') :
    (run now slot l).map Step.Result.veil = (run now slot l').map Step.Result.veil := by
  cases slot with
  | none => exact (veil_run now h "" none).symm
  | some c => exact (veil_run now h c.token (some c)).symm

def importing (token : String) : List (Step × Http.Answer) :=
  [(.configureProvider ⟨.value "http://h", .value token, .null, .null⟩, .dropped),
    (.connect ⟨"http://h", token, none, none⟩, .dropped), (.importPolicy "p", .whole 404 [])]

theorem run_twin_importing :
    List.Forall₂ (fun x y => x.1.Twin y.1 ∧ x.2 = y.2) (importing "t") (importing "u") ∧
      (run "" none (importing "t")).map Step.Result.veil =
        (run "" none (importing "u")).map Step.Result.veil ∧
      (run "" none (importing "t")).flatMap (·.requests.map (·.headers.lookup "authorization")) = [some "Bearer t"] ∧
      (run "" none (importing "u")).flatMap (·.requests.map (·.headers.lookup "authorization")) = [some "Bearer u"] := by
  have h : List.Forall₂ (fun x y => x.1.Twin y.1 ∧ x.2 = y.2) (importing "t") (importing "u") :=
    .cons ⟨.configure (by decide) (by decide), rfl⟩
      (.cons ⟨.connect (by decide) (by decide), rfl⟩ (.cons ⟨.same _, rfl⟩ .nil))
  refine ⟨h, run_twin "" none h, ?_, ?_⟩
  · decide +kernel
  · decide +kernel

end Session

end ProtectionProvider
