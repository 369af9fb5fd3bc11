import ProtectionProvider.Proofs.Policy.Lifecycle
import ProtectionProvider.Proofs.Policy.Entities
import ProtectionProvider.Proofs.Text.Utf8
import ProtectionProvider.Proofs.Url.Segment

/-!
# The identifier of a policy

A policy that is managed has an identifier whatever the answers were, and nothing the server assigns
is unknown. So it is refreshed, changed and deleted by that identifier, and a deletion that sends
nothing is a failure.
-/

namespace ProtectionProvider.Policy.Resource

/-! ## Operations on a state with an identifier -/

/-- The operations find the identifier in the state. -/
structure Identified (id : String) (s : State) : Prop where
  value : getId s = .value id
  read_errors : ∀ slot hidden answer, ∀ d ∈ (read slot s hidden answer).errors,
    d.summary ≠ "Protection policy has no id"
  update_errors : ∀ slot planned hidden answer, ∀ d ∈ (update slot s planned hidden answer).errors,
    d.summary ≠ "Protection policy has no id"
  /-- A deletion whose URL is a URI is requested once. -/
  deleted : ∀ c answer, c.Sends (.deletePolicy id) → ∃ r, (destroy (some c) s answer).requests = [r] ∧
    r.method = .delete ∧ r.url = (c.url ["data-protect", "policies", id]).withoutUser.withoutFragment
  /-- A deletion fails if its URL is no URI. -/
  kept : ∀ c answer, ¬ c.Sends (.deletePolicy id) → (destroy (some c) s answer).requests = [] ∧
    (destroy (some c) s answer).result = none ∧
    ∃ e, (destroy (some c) s answer).errors = [.callFailed "DeleteProtectionPolicy" e]

section
variable {s : State} {id : String} (hid : getId s = .value id)
include hid

theorem read_summary_ne (slot : Option Client) (hidden : Private) (answer : Http.Answer) :
    ∀ d ∈ (read slot s hidden answer).errors, d.summary ≠ "Protection policy has no id" := by
  unfold read
  rw [hid]
  refine Outcome.errors_call (by decide) ?_
  rintro (e | m) d hd
  · dsimp only at hd
    split at hd
    · cases hd
    · rw [List.mem_singleton.mp hd]
      show "GetProtectionPolicyById failed" ≠ "Protection policy has no id"
      decide
  · cases hd

theorem update_summary_ne (slot : Option Client) (planned : State) (hidden : Private) (answer : Http.Answer) :
    ∀ d ∈ (update slot s planned hidden answer).errors, d.summary ≠ "Protection policy has no id" := by
  unfold update
  rw [hid]
  refine Outcome.errors_call (by decide) ?_
  rintro (e | m) d hd
  · rw [List.mem_singleton.mp hd]
    show "UpdateProtectionPolicy failed" ≠ "Protection policy has no id"
    decide
  · cases hd

theorem destroy_of_sends {c : Client} (hs : c.Sends (.deletePolicy id)) (answer : Http.Answer) :
    (destroy (some c) s answer).requests = [c.request (.deletePolicy id)] := by
  unfold destroy
  rw [hid]
  show c.issued (.deletePolicy id) ++ _ = _
  rw [Client.issued_of_sends hs]
  dsimp only
  split
  · rfl
  · split <;> rfl

theorem destroy_of_not_sends {c : Client} (hs : ¬ c.Sends (.deletePolicy id)) (answer : Http.Answer) :
    ∃ e, destroy (some c) s answer = .fail (.callFailed "DeleteProtectionPolicy" e) := by
  obtain ⟨e, he, hn⟩ := Client.result_of_not_sends hs answer
  refine ⟨e, ?_⟩
  unfold destroy Outcome.call
  rw [hid]
  simp only [he, hn, Client.issued_of_not_sends hs]
  rfl

theorem identified : Identified id s where
  value := hid
  read_errors := read_summary_ne hid
  update_errors := update_summary_ne hid
  deleted := fun _ answer hs => ⟨_, destroy_of_sends hid hs answer, rfl, rfl⟩
  kept := by
    intro c answer hs
    obtain ⟨e, he⟩ := destroy_of_not_sends hid hs answer
    rw [he]
    exact ⟨rfl, rfl, e, rfl⟩

end

/-! ## Runs -/

/-- Whatever the answers to a run are, the policy has an identifier, and it is refreshed, changed and
deleted by it. -/
theorem run_identified {o : Origin} {slot : Option Client} {answer : Http.Answer} {s₀ : Managed}
    (h : (o.outcome slot answer).result = some s₀) (turns : List Turn) :
    (∃ id, Identified id (run s₀ turns).1) ∧
      protectionPolicy.Known Role.assigned (run s₀ turns).1 ∧
      ((∀ p ∈ o.proposals ++ turns.flatMap (·.action.proposals), protectionPolicy.Known isUser p) →
        protectionPolicy.Known (fun _ => true) (run s₀ turns).1) := by
  obtain ⟨m, given, hm, hs⟩ := Origin.outcome_result h
  have h₀ : Sound m s₀.1 := hs ▸ sound_answered given m _
  obtain ⟨m', -, hr⟩ := run_sound turns hm h₀
  obtain ⟨id, hid⟩ := hr.identified
  refine ⟨⟨id, identified hid⟩, hr.known, fun hp => ?_⟩
  -- an imported policy has the attributes of the user from the server, where all are known
  have hu : protectionPolicy.Known isUser (o.user m) := by
    cases o with
    | created proposed => exact hp proposed (by simp [Origin.proposals])
    | imported id => exact known_flatten isUser m
  have hk : protectionPolicy.Known (fun _ => true) s₀.1 := hs ▸ known_all_answered hu given m
  exact run_known turns hk fun p hmem => hp p (List.mem_append_right _ hmem)

theorem run_identified_nightly :
    ∃ s₀, ((Origin.created nightly).outcome (some localClient) (written (versioned "p" 3))).result = some s₀ ∧
      ∃ id, Identified id (run s₀ [⟨none, .dropped, .refresh⟩, ⟨some localClient, .cut, .change s₀.1⟩]).1 := by
  have h : ((Origin.created nightly).outcome (some localClient) (written (versioned "p" 3))).result.isSome = true := by
    decide +kernel
  obtain ⟨s₀, hs⟩ := Option.isSome_iff_exists.mp h
  exact ⟨s₀, hs, (run_identified hs _).1⟩

def longId : String := .ofList (.replicate 65535 'a')

theorem long_identifier_not_deleted :
    ∃ s, ((Origin.imported "p").outcome (some localClient) (written (versioned longId 3))).result = some s ∧
      localClient.base.secure = false ∧ (destroy (some localClient) (run s []).1 (.whole 204 [])).requests = [] := by
  have hs : localClient.Sends (.getPolicy "p") := by decide +kernel
  have ha : localClient.arrived (.getPolicy "p") (written (versioned longId 3)) = .whole 200 _ :=
    Client.arrived_of_sends hs _
  have hi := importId_of_arrived ha rfl (policy?_written (versioned longId 3)) (by decide)
  have hid : getId (answered "p" (versioned longId 3) (protectionPolicy.flatten (versioned longId 3))) = .value longId := by
    rw [getId_answered, versioned, Fields.Model.get_set_self]
    rfl
  have hl : longId.toList = .replicate 65535 'a' := String.toList_ofList
  have hu : (Client.reportedUrl (localClient.callUrl (.deletePolicy longId))).isUri = false := by
    refine localClient.not_isUri_deletePolicy ?_ ?_
    · intro c hc
      rw [hl] at hc
      rw [List.eq_of_mem_replicate hc]
      decide
    · rw [hl, List.length_replicate]
      decide
  have hn : ¬ localClient.Sends (.deletePolicy longId) := Bool.eq_false_iff.mp hu
  refine ⟨_, congrArg Outcome.result hi, rfl, ?_⟩
  exact ((identified hid).kept localClient _ hn).1

end ProtectionProvider.Policy.Resource
