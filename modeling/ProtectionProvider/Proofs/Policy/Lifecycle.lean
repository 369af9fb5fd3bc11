import ProtectionProvider.Proofs.Policy.Entities
import ProtectionProvider.Proofs.Policy.Operations

/-!
# The life of a policy

A policy is created or imported, and then refreshed and changed any number of times, each time from
the state that was left last, whatever the answers are. One accepted answer after another decides
what the server's attributes are (`Sound`), so that a policy that is managed always has an
identifier, and nothing the server assigns is ever unknown.
-/

namespace ProtectionProvider.Policy.Resource

abbrev Managed : Type := State × Private

/-! ## Runs -/

inductive Origin where
  | created (proposed : State)
  | imported (id : String)

inductive Action where
  | refresh
  /-- Plans an update, and carries it out. -/
  | change (proposed : State)

namespace Origin

def outcome (slot : Option Client) (answer : Http.Answer) : Origin → Outcome Managed
  | .created proposed => create slot (planCreate proposed).1 (planCreate proposed).2 answer
  | .imported id => importId slot id answer

def proposals : Origin → List State
  | .created proposed => [proposed]
  | .imported _ => []

def user : Origin → Model → State
  | .created proposed, _ => proposed
  | .imported _, m => protectionPolicy.flatten m

end Origin

namespace Action

def outcome (slot : Option Client) (answer : Http.Answer) (s : Managed) : Action → Outcome Managed
  | .refresh => read slot s.1 s.2 answer
  | .change proposed =>
    let plan := planUpdate s.1 proposed s.2
    update slot s.1 plan.state plan.hidden answer

def proposals : Action → List State
  | .refresh => []
  | .change proposed => [proposed]

def user : Action → Model → State
  | .refresh, m => protectionPolicy.flatten m
  | .change proposed, _ => proposed

end Action

/-- An action with the client that it finds and the answer that it gets. -/
structure Turn where
  slot : Option Client
  answer : Http.Answer
  action : Action

namespace Turn

def outcome (t : Turn) (s : Managed) : Outcome Managed := t.action.outcome t.slot t.answer s

def next (s : Managed) (t : Turn) : Managed := (t.outcome s).result.getD s

def succeeds (t : Turn) (s : Managed) : Bool := (t.outcome s).result.isSome && (t.outcome s).errors.isEmpty

end Turn

def run (s : Managed) (turns : List Turn) : Managed := turns.foldl Turn.next s

/-- The answer that was accepted last, `last` being the one before the turns. -/
def latest (last : Http.Answer) : Managed → List Turn → Http.Answer
  | _, [] => last
  | s, t :: turns => latest (if t.succeeds s then t.answer else last) (t.next s) turns

theorem run_concat (s : Managed) (turns : List Turn) (t : Turn) : run s (turns ++ [t]) = t.next (run s turns) := by
  rw [run, run, List.foldl_append]
  rfl

theorem latest_concat : ∀ (turns : List Turn) (last : Http.Answer) (s : Managed) (t : Turn),
    latest last s (turns ++ [t]) = if t.succeeds (run s turns) then t.answer else latest last s turns
  | [], _, _, _ => rfl
  | u :: turns, last, s, t => latest_concat turns (if u.succeeds s then u.answer else last) (u.next s) t

/-! ## One step -/

theorem Origin.outcome_result {o : Origin} {slot : Option Client} {answer : Http.Answer} {s : Managed}
    (h : (o.outcome slot answer).result = some s) :
    ∃ m given, policy? answer = some m ∧ s.1 = answered given m (o.user m) := by
  cases o with
  | created proposed =>
    obtain ⟨c, m, given, -, hm, he⟩ := (create_cases slot (planCreate proposed).2 answer
      (planCreate proposed).1).resolve_left fun hn => Option.some_ne_none s (h.symm.trans hn)
    rw [outcome, he] at h
    cases h
    exact ⟨m, given, hm, answered_congr (sameUser_planCreate proposed) given m⟩
  | imported id =>
    obtain ⟨c, m, given, -, hm, he⟩ := (importId_cases slot answer id).resolve_left fun hn =>
      Option.some_ne_none s (h.symm.trans hn)
    rw [outcome, he] at h
    cases h
    exact ⟨m, given, hm, rfl⟩

/-- A turn leaves the state as it was, or its answer is accepted and brings the server's attributes. -/
theorem Turn.next_cases (t : Turn) (s : Managed) :
    (t.succeeds s = false ∧ t.next s = s) ∨
      (t.succeeds s = true ∧ ∃ m given, policy? t.answer = some m ∧
        (t.next s).1 = answered given m (t.action.user m)) := by
  obtain ⟨slot, answer, action⟩ := t
  cases action with
  | refresh =>
    rcases read_cases slot s.2 answer s.1 with hn | ⟨hr, e, he⟩ | ⟨id, -, c, m, given, -, hm, he⟩
    · left
      simp [succeeds, next, outcome, Action.outcome, hn]
    · left
      simp [succeeds, next, outcome, Action.outcome, hr, he]
    · right
      simp only [succeeds, next, outcome, Action.outcome, he]
      exact ⟨rfl, m, given, hm, rfl⟩
  | change proposed =>
    rcases update_cases slot (planUpdate s.1 proposed s.2).hidden answer s.1 (planUpdate s.1 proposed s.2).state with
      hn | ⟨id, -, c, m, given, -, hm, he⟩
    · left
      simp [succeeds, next, outcome, Action.outcome, hn]
    · right
      simp only [succeeds, next, outcome, Action.outcome, he]
      exact ⟨rfl, m, given, hm, answered_congr (sameUser_planUpdate s.1 proposed s.2) given m⟩

theorem run_concat_of_failed {s : Managed} {turns : List Turn} {t : Turn} (h : t.succeeds (run s turns) = false)
    (last : Http.Answer) :
    run s (turns ++ [t]) = run s turns ∧ latest last s (turns ++ [t]) = latest last s turns := by
  rw [run_concat, latest_concat, h]
  refine ⟨?_, rfl⟩
  rcases t.next_cases (run s turns) with ⟨-, hn⟩ | ⟨ht, -⟩
  · exact hn
  · rw [h] at ht
    cases ht

/-! ## What an accepted answer establishes -/

/-- The server's attributes are those of the policy `m`, but for an identifier that may be older. -/
structure Sound (m : Model) (s : State) : Prop where
  identified : ∃ id, getId s = .value id
  known : protectionPolicy.Known Role.assigned s
  revision : Fields.State.Agree isRevision s (protectionPolicy.flatten m)

theorem known_flatten (r : Role → Bool) (m : Model) : protectionPolicy.Known r (protectionPolicy.flatten m) :=
  Fields.settled_flatten (fun _ h => by cases h) protectionPolicy r m

theorem known_answered {r : Role → Bool} {m : Model} {user : State}
    (h : protectionPolicy.Known r (assign (protectionPolicy.flatten m) user)) (given : String) :
    protectionPolicy.Known r (answered given m user) := by
  refine h.set Policy.id ?_
  rw [getId_assign, getId_flatten]
  cases Fields.Model.get Policy.id m <;> trivial

theorem known_all_answered {user : State} (h : protectionPolicy.Known isUser user) (given : String) (m : Model) :
    protectionPolicy.Known (fun _ => true) (answered given m user) :=
  known_answered ((known_flatten Role.assigned m).select h) given

theorem sound_answered (given : String) (m : Model) (user : State) : Sound m (answered given m user) where
  identified := ⟨_, getId_answered given m user⟩
  known := by
    have ha := Fields.State.agree_select_left (r := Role.assigned) (protectionPolicy.flatten m) user
    exact known_answered ((known_flatten Role.assigned m).of_agree ha.symm) given
  revision := by
    have ha := Fields.State.agree_select_left (r := Role.assigned) (protectionPolicy.flatten m) user
    have hr : ∀ r, isRevision r = true → r.assigned = true := by
      intro r hr
      cases r <;> first | rfl | exact absurd hr (by decide)
    exact (Fields.State.agree_set Policy.id _ _ rfl).trans (ha.mono hr)

/-! ## Whole runs -/

theorem run_sound : ∀ (turns : List Turn) {s : Managed} {last : Http.Answer} {m : Model},
    policy? last = some m → Sound m s.1 →
      ∃ m', policy? (latest last s turns) = some m' ∧ Sound m' (run s turns).1
  | [], _, _, m, hm, hs => ⟨m, hm, hs⟩
  | t :: turns, s, last, m, hm, hs => by
    -- a turn that fails keeps the policy that the state is sound for, and its answer replaces it otherwise
    rcases t.next_cases s with ⟨hf, hn⟩ | ⟨hf, m', given, hm', hn⟩
    · have ih := run_sound turns hm hs
      simp only [latest, hf, run, List.foldl_cons, hn]
      exact ih
    · have hs' : Sound m' (t.next s).1 := by
        rw [hn]
        exact sound_answered given m' _
      simp only [latest, hf, run, List.foldl_cons, if_true]
      exact run_sound turns hm' hs'

theorem run_known : ∀ (turns : List Turn) {s : Managed}, protectionPolicy.Known (fun _ => true) s.1 →
    (∀ p ∈ turns.flatMap (·.action.proposals), protectionPolicy.Known isUser p) →
      protectionPolicy.Known (fun _ => true) (run s turns).1
  | [], _, hs, _ => hs
  | t :: turns, s, hs, hp => by
    have hu : ∀ m, protectionPolicy.Known isUser (t.action.user m) := by
      intro m
      cases ha : t.action with
      | refresh => exact known_flatten isUser m
      | change proposed => exact hp proposed (by simp [ha, Action.proposals])
    refine run_known turns (s := t.next s) ?_ fun p h => hp p (by simp [List.flatMap_cons, h])
    rcases t.next_cases s with ⟨-, hn⟩ | ⟨-, m, given, -, hn⟩
    · rwa [hn]
    · rw [hn]
      exact known_all_answered (hu m) given m

/-! ## Answers that hold a policy -/

def written (m : Model) : Http.Answer := .whole 200 (Text.octets (protectionPolicy.encode m).toString.toList)

theorem policy?_written (m : Model) : policy? (written m) = some m := by
  rw [policy?, written, Http.Answer.json?_printed (protectionPolicy.printable_encode m)]
  exact Fields.decode_of_entries (Fields.ofMembers_entries protectionPolicy distinct m)

def localClient : Client where
  endpoint := "http://h"
  base := ⟨false, [], none, ['h'], none, [[]], none, none⟩
  token := "t"
  tenant := none
  userAgent := Client.defaultUserAgent

example : Client.build ⟨"http://h", "t", none, none⟩ = .ok localClient := rfl

def silent : Model := protectionPolicy.expand (.unknown protectionPolicy)

def versioned (id : String) (n : Int64) : Model :=
  Fields.Model.set Policy.id (some id) (Fields.Model.set version (some n) silent)

def nightly : State :=
  let settings : backupPolicy.Model := Fields.Model.set regular (some (regularBackupPolicy.expand (.unknown _)))
    (backupPolicy.expand (.unknown _))
  protectionPolicy.flatten (Fields.Model.set Policy.name (some "nightly")
    (Fields.Model.set Policy.settings (some settings)
      (Fields.Model.set (.there <| .there <| .there <| .there .here) (some []) silent)))

end ProtectionProvider.Policy.Resource
