import Mathlib.Data.List.Forall2
import ProtectionProvider.Proofs.DataSource.Agreement
import ProtectionProvider.Proofs.Entity.Editing
import ProtectionProvider.Proofs.Session.Relay

/-!
# Answers of a newer server

A step depends on an answer through the result of its call only (`Step.result_congr`), and that is the
same for an answer that says more than the table of the reply asks for. So a session in which such
answers come in place of others leads to the same states (`responses_tolerated`).
-/

namespace ProtectionProvider

/-! ## Answers to a call -/

/-- The second answer is the first, or both report success in the end, and the document of the second extends
that of the first. -/
inductive Http.Answer.Extended (call : Call) : Http.Answer → Http.Answer → Prop where
  | same (answer : Http.Answer) : Extended call answer answer
  | success {status : Nat} {body body' : Text.Octets} {j j' : Json} (success : Http.isSuccess status = true)
      (read : json? (.whole status body) = some j) (read' : json? (.whole status body') = some j')
      (extended : Relation.ReflTransGen (Kind.Edited Fields.Extended (.object call.reply)) j j') :
      Extended call (.whole status body) (.whole status body')
  | moved {keeps : Bool} {target : Url} {next next' : Http.Answer} (extended : Extended call next next') :
      Extended call (.moved keeps target next) (.moved keeps target next')

namespace Http.Answer.Extended

variable {call : Call} {answer answer' : Http.Answer}

theorem settle (h : answer.Extended call answer') : ∀ n, (answer.settle n).Extended call (answer'.settle n) := by
  induction h with
  | same => exact fun n => .same _
  | success success read read' extended => exact fun n => by cases n <;> exact .success success read read' extended
  | moved h ih =>
    intro n
    cases n with
    | zero => exact .moved h
    | succ n => exact ih n

theorem asked_eq (h : answer.Extended call answer') : ∀ n u, answer'.asked n u = answer.asked n u := by
  induction h with
  | same => exact fun _ _ => rfl
  | success => exact fun n u => by cases n <;> rfl
  | moved _ ih =>
    intro n u
    cases n with
    | zero => rfl
    | succ n => exact ih n _

theorem followed_eq (h : answer.Extended call answer') :
    ∀ n (r : Http.Request), r.followed n answer' = r.followed n answer := by
  induction h with
  | same => exact fun _ _ => rfl
  | success => exact fun n r => by cases n <;> rfl
  | moved _ ih =>
    intro n r
    cases n with
    | zero => rfl
    | succ n => exact congrArg (_ :: ·) (ih n _)

end Http.Answer.Extended

namespace Call

theorem distinct_reply : ∀ call : Call, call.reply.Distinct
  | .listPolicies _ => DataSource.policies.distinct_answer
  | .getPolicy _ | .createPolicy _ | .updatePolicy .. => DataSource.policy.distinct_answer
  | .deletePolicy _ => trivial
  | .listGroups _ => DataSource.groups.distinct_answer
  | .getGroup .. => DataSource.group.distinct_answer
  | .listRuns .. => DataSource.runs.distinct_answer
  | .getRun .. => DataSource.run.distinct_answer
  | .listReports _ => DataSource.reports.distinct_answer

theorem decodeReply?_congr {call : Call} {text text' : String}
    (h : (Json.read? text').bind call.reply.decode = (Json.read? text).bind call.reply.decode) :
    call.decodeReply? text' = call.decodeReply? text := by
  cases call with
  | deletePolicy => rfl
  | _ => exact h

theorem decodeReply?_of_decode {call : Call} {text : String} {m : call.reply.Model}
    (h : (Json.read? text).bind call.reply.decode = some m) : call.decodeReply? text = some m := by
  cases call with
  | deletePolicy => exact congrArg some (PUnit.ext () m)
  | _ => exact h

end Call

theorem Call.conclude_extended {call : Call} {status : Nat} {body body' : Text.Octets} {j j' : Json}
    (read : Http.Answer.json? (.whole status body) = some j) (read' : Http.Answer.json? (.whole status body') = some j')
    (extended : Relation.ReflTransGen (Kind.Edited Fields.Extended (.object call.reply)) j j')
    (hs : Http.isSuccess status = true) : call.conclude status body' = call.conclude status body := by
  have hd : call.reply.decode j' = call.reply.decode j :=
    Kind.decode_extensions (k := .object call.reply) call.distinct_reply extended
  have hr : Json.read? (Client.bodyText status body) = some j := read
  have hr' : Json.read? (Client.bodyText status body') = some j' := read'
  have hm : call.decodeReply? (Client.bodyText status body') = call.decodeReply? (Client.bodyText status body) :=
    decodeReply?_congr (by rw [hr, hr', Option.bind_some, Option.bind_some, hd])
  simp only [conclude, hs, hm, if_true]

theorem Client.result_extended {call : Call} {answer answer' : Http.Answer} (h : answer.Extended call answer')
    (c : Client) : c.result call answer' = c.result call answer := by
  have hs : answer.settled.Extended call answer'.settled := h.settle Http.redirectLimit
  unfold result
  dsimp only
  rw [h.asked_eq]
  generalize answer.settled = a at hs ⊢
  generalize answer'.settled = a' at hs ⊢
  cases hs with
  | same => rfl
  | success success read read' extended =>
    dsimp only
    rw [Call.conclude_extended read read' extended success]
  | moved => rfl

/-! ## Steps and sessions -/

theorem Outcome.call_congr {α : Type} {slot : Option Client} {call : Call} {answer answer' : Http.Answer}
    (h : ∀ c ∈ slot, c.result call answer' = c.result call answer) (k : Except ApiError call.reply.Model → Outcome α) :
    Outcome.call slot call answer' k = Outcome.call slot call answer k := by
  cases slot with
  | none => rfl
  | some c =>
    unfold Outcome.call
    dsimp only
    rw [h c rfl]

open Policy.Resource (getId)

namespace Step

theorem map_getId {α : Type} {s : Policy.State} {id : String} (h : getId s = .value id) (f : String → α) :
    (getId s).toOption.map f = some (f id) := by
  rw [h]
  rfl

/-- A step depends on the answer only through the result of its call. -/
theorem result_congr {s : Step} {slot : Option Client} {answer answer' : Http.Answer}
    (h : ∀ c ∈ slot, ∀ call, s.call? = some call → c.result call answer' = c.result call answer) (now : String) :
    s.result slot now answer' = s.result slot now answer := by
  have hc : ∀ {α : Type} {call : Call}, s.call? = some call → ∀ k : Except ApiError call.reply.Model → Outcome α,
      Outcome.call slot call answer' k = Outcome.call slot call answer k :=
    fun hs => Outcome.call_congr fun c hc => h c hc _ hs
  cases s with
  | read d config =>
    simp only [result, DataSource.read]
    exact congrArg (Result.listed d) (hc rfl _)
  | readPolicy s hidden =>
    cases hid : getId s with
    | value id =>
      simp only [result, Policy.Resource.read, hid]
      exact congrArg Result.policy (hc (map_getId hid _) _)
    | _ => simp only [result, Policy.Resource.read, hid]
  | create planned hidden =>
    simp only [result, Policy.Resource.create]
    exact congrArg Result.policy (hc rfl _)
  | update prior planned hidden =>
    cases hid : getId prior with
    | value id =>
      simp only [result, Policy.Resource.update, hid]
      exact congrArg Result.policy (hc (map_getId hid _) _)
    | _ => simp only [result, Policy.Resource.update, hid]
  | destroy prior =>
    cases hid : getId prior with
    | value id =>
      simp only [result, Policy.Resource.destroy, hid]
      exact congrArg Result.checked (hc (map_getId hid _) _)
    | _ => simp only [result, Policy.Resource.destroy, hid]
  | importPolicy id =>
    by_cases hid : id = ""
    · simp only [result, Policy.Resource.importId, if_pos hid]
    · simp only [result, Policy.Resource.importId, if_neg hid]
      exact congrArg Result.policy (hc (by simp [call?, hid]) _)
  | call c =>
    cases slot with
    | none => rfl
    | some client =>
      have hr : client.result c answer' = client.result c answer := h client rfl c rfl
      simp only [result, hr]
  | _ => rfl

/-- The same step, with an answer to its call that says more. -/
structure Extends (x y : Step × Http.Answer) : Prop where
  step : y.1 = x.1
  answer : ∀ call, x.1.call? = some call → x.2.Extended call y.2

end Step

theorem Step.seen_extended {s : Step} {answer answer' : Http.Answer}
    (h : ∀ call, s.call? = some call → answer.Extended call answer') (slot : Option Client) (now : String) :
    s.seen slot now answer' = s.seen slot now answer := by
  have hr : s.result slot now answer' = s.result slot now answer :=
    result_congr (fun c _ call hc => Client.result_extended (h call hc) c) now
  unfold seen
  rw [hr]
  cases hc : s.call? with
  | none =>
    obtain ⟨r, hq, hs⟩ := exists_idle hc now answer
    rw [hs, Result.onRequests_nil hq, Result.onRequests_nil hq]
  | some call =>
    have hf : Http.Request.sent answer' = Http.Request.sent answer := by
      funext r
      exact congrArg (r :: ·) ((h call hc).followed_eq Http.redirectLimit r)
    rw [hf]

theorem Session.run_extended (now : String) {l l' : List (Step × Http.Answer)} (h : List.Forall₂ Step.Extends l l')
    (slot : Option Client) : run now slot l' = run now slot l := by
  induction h generalizing slot with
  | nil => rfl
  | @cons x y l l' head tail ih =>
    obtain ⟨s, answer⟩ := x
    obtain ⟨s', answer'⟩ := y
    obtain rfl : s' = s := head.step
    -- the slot that the next step finds is the same, since no answer has a part in it
    show s'.seen slot now answer' :: run now (s'.slot slot) l' = s'.seen slot now answer :: run now (s'.slot slot) l
    rw [Step.seen_extended head.answer, ih]

/-! ## What is tolerated -/

structure Fields.Tolerant (fs : Fields) : Prop where
  extended : ∀ j j', Relation.ReflTransGen (Kind.Edited Fields.Extended (.object fs)) j j' → fs.decode j' = fs.decode j
  spoiled : ∀ j j', Kind.Edited Fields.Spoiled (.object fs) j j' → fs.decode j' = none

theorem Fields.Distinct.tolerant {fs : Fields} (hd : fs.Distinct) : fs.Tolerant where
  extended _ _ h := Kind.decode_extensions (k := .object fs) hd h
  spoiled _ _ h := Kind.decode_spoiled (k := .object fs) hd h

theorem responses_tolerated : (∀ e ∈ tables, e.2.Tolerant) ∧
    ∀ (now : String) (slot : Option Client) (l l' : List (Step × Http.Answer)), List.Forall₂ Step.Extends l l' →
      Session.run now slot l' = Session.run now slot l :=
  ⟨fun e he => (wellNamed_tables e he).distinct.tolerant, fun now slot _ _ h => Session.run_extended now h slot⟩

theorem Http.Answer.extended_replied (call : Call) {j j' : Json} (hj : j.Printable) (hj' : j'.Printable)
    (h : Relation.ReflTransGen (Kind.Edited Fields.Extended (.object call.reply)) j j') :
    (replied j).Extended call (replied j') :=
  .success rfl (json?_printed hj) (json?_printed hj') h

theorem Client.result_replied {c : Client} {call : Call} (hs : c.Sends call) {j : Json} (hj : j.Printable)
    {m : call.reply.Model} (hm : call.reply.decode j = some m) : c.result call (replied j) = .ok m := by
  have hr : Json.read? (bodyText 200 (Text.octets j.toString.toList)) = some j := Http.Answer.json?_printed hj
  exact result_of_success (arrived_of_sends hs _) rfl (Call.decodeReply?_of_decode (Option.bind_eq_some_iff.mpr ⟨j, hr, hm⟩))

section
open Policy.Resource (localClient)

def listingOf (members : List (String × Json)) : Json := .obj [("policies", .array [.obj members])]

def olderMembers : List (String × Json) := [("id", .str "1"), ("name", .str "nightly")]

def newerMembers : List (String × Json) :=
  [("region", .obj [("id", .null), ("id", .null)]), ("description", .null), ("name", .str "nightly"), ("id", .str "1")]

theorem edited_listingOf {P : MemberEdit} {ms ms' : List (String × Json)}
    (h : (Kind.object Policy.protectionPolicy).Edited P (.obj ms) (.obj ms')) :
    (Kind.object Policy.listed).Edited P (listingOf ms) (listingOf ms') := by
  have own : (Policy.policies.entry, Kind.objects Policy.protectionPolicy) ∈ Policy.listed.toList := List.mem_cons_self
  exact .member [] [] own (.item [] [] h)

theorem extended_newerMembers : Relation.ReflTransGen (Kind.Edited Fields.Extended (.object Policy.listed))
    (listingOf olderMembers) (listingOf newerMembers) := by
  let swapped : List (String × Json) := [("name", .str "nightly"), ("id", .str "1")]
  have reordered : (Kind.object Policy.protectionPolicy).Edited Fields.Extended (.obj olderMembers) (.obj swapped) :=
    .here (.reordered (.swap _ _ []))
  have null : (Kind.object Policy.protectionPolicy).Edited Fields.Extended (.obj swapped)
      (.obj (("description", .null) :: swapped)) :=
    .here (.null (by decide +kernel) (by decide))
  have unknown : (Kind.object Policy.protectionPolicy).Edited Fields.Extended (.obj (("description", .null) :: swapped))
      (.obj newerMembers) :=
    .here (.unknown (by decide +kernel) _)
  exact .head (edited_listingOf reordered) (.head (edited_listingOf null) (.single (edited_listingOf unknown)))

theorem printable_listingOf {members : List (String × Json)} (h : (Json.obj members).Printable) :
    (listingOf members).Printable :=
  ⟨Json.Text.scalar_ofString "policies", ⟨h, trivial⟩, trivial⟩

def listing : Call := .listPolicies (Filter.policies.expand (.unknown _))

theorem responses_tolerated_newer :
    (Relation.ReflTransGen (Kind.Edited Fields.Extended (.object Policy.listed))
        (listingOf olderMembers) (listingOf newerMembers) ∧
      Kind.Edited Fields.Spoiled (.object Policy.listed) (listingOf olderMembers)
        (listingOf (("id", .null) :: olderMembers)) ∧
      Step.Extends (.call listing, replied (listingOf olderMembers))
        (.call listing, replied (listingOf newerMembers))) ∧
    Policy.listed.decode (listingOf (("id", .null) :: olderMembers)) = none ∧
    ∃ m, Policy.listed.decode (listingOf olderMembers) = some m ∧
      Policy.listed.decode (listingOf newerMembers) = some m ∧
      Session.run "" (some localClient) [(.call listing, replied (listingOf newerMembers))] =
        [.called listing (some (.ok m)) (localClient.issued listing)] := by
  have spoiled : Kind.Edited Fields.Spoiled (.object Policy.listed) (listingOf olderMembers)
      (listingOf (("id", .null) :: olderMembers)) :=
    edited_listingOf (.here (.repeated (by decide +kernel) List.mem_cons_self .null (.refl _)))
  have older : (listingOf olderMembers).Printable :=
    printable_listingOf ⟨Json.Text.scalar_ofString _, Json.Text.scalar_ofString _, Json.Text.scalar_ofString _,
      Json.Text.scalar_ofString _, trivial⟩
  have newer : (listingOf newerMembers).Printable := by
    refine printable_listingOf ⟨Json.Text.scalar_ofString _, ?_, Json.Text.scalar_ofString _, trivial, ?_⟩
    · exact ⟨Json.Text.scalar_ofString _, trivial, Json.Text.scalar_ofString _, trivial, trivial⟩
    · exact ⟨Json.Text.scalar_ofString _, Json.Text.scalar_ofString _, Json.Text.scalar_ofString _,
        Json.Text.scalar_ofString _, trivial⟩
  have answered : Step.Extends (.call listing, replied (listingOf olderMembers))
      (.call listing, replied (listingOf newerMembers)) := by
    refine ⟨rfl, fun call hc => ?_⟩
    obtain rfl : listing = call := Option.some.inj hc
    exact Http.Answer.extended_replied listing older newer extended_newerMembers
  have tolerant := responses_tolerated.1 ("ProtectionPoliciesResponse", Policy.listed) (by simp [tables, listings])
  obtain ⟨m, hm⟩ : ∃ m, Policy.listed.decode (listingOf olderMembers) = some m :=
    Option.isSome_iff_exists.mp (by decide +kernel)
  refine ⟨⟨extended_newerMembers, spoiled, answered⟩, tolerant.spoiled _ _ spoiled, m, hm, ?_, ?_⟩
  · rw [tolerant.extended _ _ extended_newerMembers, hm]
  · have hr : localClient.result listing (replied (listingOf olderMembers)) = .ok m :=
      Client.result_replied (by decide) older hm
    rw [responses_tolerated.2 "" (some localClient) _ _ (.cons answered .nil)]
    show [Step.Result.called listing (some (localClient.result listing _)) _] = _
    rw [hr, Client.issued_of_sends (by decide)]
    rfl

end

/-- A name that is half of a surrogate pair is no name of an attribute, and still a member with it cannot be read. -/
theorem surrogate_not_tolerated :
    (Policy.retention.decode (.object [])).isSome = true ∧
      [0xD83D] ∉ Policy.retention.names.map Json.Text.ofString ∧
      Json.read? "\x7b\"\\ud83d\":1\x7d" = some (.object [([0xD83D], .int 1)]) ∧
      Policy.retention.decode (.object [([0xD83D], .int 1)]) = none :=
  ⟨rfl, by decide, rfl, rfl⟩

end ProtectionProvider
