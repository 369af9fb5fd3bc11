import ProtectionProvider.Proofs.Policy.Lifecycle

/-!
# The revision of a policy

An update names the revision of the policy that it was planned from, so that the server can refuse
it if somebody else has changed the policy since. Along a run that revision is the one in the answer
that was accepted last, whatever is planned or proposed.
-/

namespace ProtectionProvider.Policy.Resource

/-! ## The body of an update -/

/-- The names of the members that do not come from the plan. -/
def tokenNames : List String := ["id", "version", "lastModificationTimeUsecs"]

def isPlanned (name : String) : Bool := !tokenNames.contains name

theorem isPlanned_revision : ∀ a ∈ protectionPolicy.attributes, isRevision a.role = true →
    isPlanned a.member = false := by
  decide +kernel

theorem planned_updateBody (prior planned : State) :
    restrict isPlanned (protectionPolicy.entries (updateBody prior planned)) =
      restrict isPlanned (protectionPolicy.entries (protectionPolicy.expand planned)) := by
  have hid : isPlanned Policy.id.entry.member = false := by decide
  unfold updateBody
  dsimp only
  rw [Fields.restrict_entries_set Policy.id _ _ hid]
  exact Fields.restrict_entries_select _ _ isPlanned_revision

theorem lookup_id_updateBody {prior : State} {id : String} (h : getId prior = .value id) (planned : State) :
    (protectionPolicy.entries (updateBody prior planned)).lookup "id" = some (.str id) := by
  have hl := Fields.lookup_entries distinct Policy.id (updateBody prior planned)
  have hg : (updateBody prior planned).get Policy.id = some id := by
    rw [updateBody, Fields.Model.get_set_self, Fields.get_expand]
    rw [getId] at h
    rw [h]
    rfl
  rw [hg] at hl
  exact hl

theorem lookup_revision_updateBody {m : Model} {prior : State} (h : Sound m prior) (planned : State)
    {p : Place protectionPolicy .number} (hp : isRevision p.entry.role = true) :
    (protectionPolicy.entries (updateBody prior planned)).lookup p.entry.member = (m.get p).map Kind.number.encode := by
  have hne : p.entry ≠ Policy.id.entry := fun e => by
    rw [e] at hp
    exact absurd hp (by decide)
  have hprior : prior.get p = .ofOption ((m.get p).map Kind.number.flatten) :=
    (h.revision.get p hp).trans (Fields.get_flatten p m)
  -- the identifier is written last, and the choice before it takes the revision from the prior state
  rw [Fields.lookup_entries distinct p]
  unfold updateBody
  dsimp only
  rw [Fields.Model.get_set_of_ne p Policy.id _ _ hne, Fields.Model.get_select, if_pos hp, Fields.get_expand, hprior,
    Value.toOption_ofOption]
  cases Fields.Model.get p m <;> rfl

theorem member?_said {m : Model} {reply : Json} (h : protectionPolicy.decode reply = some m)
    (p : Place protectionPolicy .number) :
    member? p.entry.member (protectionPolicy.said reply) = (m.get p).map Kind.number.encode :=
  member?_eq_of_readMember Kind.encode_of_decode_number
    (Fields.readMember_of_ofMembers p (Fields.ofMembers_said distinct h))

/-! ## Requests along a run -/

/-- The request changes the policy `id` to what is planned, at the revision that `reply` says. -/
structure Changes (c : Client) (id : String) (reply : Json) (planned : State) (r : Http.Request) : Prop where
  method : r.method = .put
  url : r.url = (c.url ["data-protect", "policies", id]).withoutUser.withoutFragment
  body : ∃ sent, r.json? = some (.obj sent) ∧ sent.lookup "id" = some (.str id) ∧
    sent.lookup "version" = member? "version" (protectionPolicy.said reply) ∧
    sent.lookup "lastModificationTimeUsecs" = member? "lastModificationTimeUsecs" (protectionPolicy.said reply) ∧
    restrict isPlanned sent = restrict isPlanned (protectionPolicy.entries (protectionPolicy.expand planned))

theorem changes_of_sound {c : Client} {id : String} {reply : Json} {m : Model} {prior : State}
    (hid : getId prior = .value id) (hm : protectionPolicy.decode reply = some m) (h : Sound m prior)
    (planned : State) : Changes c id reply planned (c.request (.updatePolicy id (updateBody prior planned))) where
  method := rfl
  url := rfl
  body := by
    refine ⟨protectionPolicy.entries (updateBody prior planned), Http.Request.json?_of_body rfl,
      lookup_id_updateBody hid planned, ?_, ?_, planned_updateBody prior planned⟩
    · have hv : isRevision version.entry.role = true := by decide
      exact (lookup_revision_updateBody h planned hv).trans (member?_said hm version).symm
    · have hv : isRevision modified.entry.role = true := by decide
      exact (lookup_revision_updateBody h planned hv).trans (member?_said hm modified).symm

/-- Whatever is planned, an update of the state changes the policy `id` at the revision that `reply`
says. -/
structure Pinned (id : String) (reply : Json) (prior : State) : Prop where
  value : getId prior = .value id
  changes : ∀ slot planned hidden answer, ∀ r ∈ (update slot prior planned hidden answer).requests,
    ∃ c, slot = some c ∧ Changes c id reply planned r
  sent : ∀ c planned hidden answer, c.Sends (.updatePolicy id (updateBody prior planned)) →
    ∃ r, (update (some c) prior planned hidden answer).requests = [r]

theorem pinned_of_sound {id : String} {reply : Json} {m : Model} {prior : State} (hid : getId prior = .value id)
    (hm : protectionPolicy.decode reply = some m) (h : Sound m prior) : Pinned id reply prior where
  value := hid
  changes := by
    intro slot planned hidden answer r hmem
    obtain ⟨c, i, hc, hi, rfl⟩ := eq_request_of_mem_update slot hidden answer hmem
    have hii : i = id := by
      rw [hid] at hi
      cases hi
      rfl
    rw [hii]
    exact ⟨c, hc, changes_of_sound hid hm h planned⟩
  sent := fun _ _ hidden answer hs => ⟨_, update_of_sends hidden answer hid hs⟩

/-- At any point of a run an update names the policy and the revision in the answer that was accepted
last. What fails in between does not matter. -/
theorem run_update_requests {o : Origin} {slot : Option Client} {answer : Http.Answer} {s₀ : Managed}
    (h : (o.outcome slot answer).result = some s₀) (turns : List Turn) :
    (∃ id reply, (latest answer s₀ turns).json? = some reply ∧ Pinned id reply (run s₀ turns).1) ∧
      ∀ t : Turn, t.succeeds (run s₀ turns) = false →
        run s₀ (turns ++ [t]) = run s₀ turns ∧ latest answer s₀ (turns ++ [t]) = latest answer s₀ turns := by
  obtain ⟨m, given, hm, hs⟩ := Origin.outcome_result h
  have h₀ : Sound m s₀.1 := hs ▸ sound_answered given m _
  obtain ⟨m', hm', hr⟩ := run_sound turns hm h₀
  obtain ⟨reply, hj, hd⟩ := Option.bind_eq_some_iff.mp hm'
  obtain ⟨id, hid⟩ := hr.identified
  exact ⟨⟨id, reply, hj, pinned_of_sound hid hd hr⟩, fun t ht => run_concat_of_failed ht answer⟩

theorem run_update_requests_nightly :
    ∃ s₀, ((Origin.imported "p").outcome (some localClient) (written (versioned "p" 3))).result = some s₀ ∧
      ∃ id reply, (latest (written (versioned "p" 3)) s₀ [⟨some localClient, .cut, .change nightly⟩]).json? = some reply ∧
        Pinned id reply (run s₀ [⟨some localClient, .cut, .change nightly⟩]).1 := by
  have h : ((Origin.imported "p").outcome (some localClient) (written (versioned "p" 3))).result.isSome = true := by
    decide +kernel
  obtain ⟨s₀, hs⟩ := Option.isSome_iff_exists.mp h
  exact ⟨s₀, hs, (run_update_requests hs _).1⟩

end ProtectionProvider.Policy.Resource
