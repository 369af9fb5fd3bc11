import ProtectionProvider.Proofs.Policy.Creation

/-!
# No drift

After a policy was created or changed, nothing is left to do: refreshing it from what was sent and
from what the server answered gives the state that it has, and planning it again changes nothing.
-/

namespace ProtectionProvider

namespace Policy.Resource

/-! ## Reading what was sent -/

theorem ofMembers_merged {user : State} {reply : Json} {m : Model} (hm : protectionPolicy.decode reply = some m)
    {es : List (String × Json)}
    (hp : es.Perm (restrict isUserName (protectionPolicy.entries (protectionPolicy.expand user)) ++
      restrict isAssignedName (protectionPolicy.said reply))) :
    protectionPolicy.ofMembers es = some (.select Role.assigned m (protectionPolicy.expand user)) := by
  refine Fields.ofMembers_select ?_ (Fields.ofMembers_said distinct hm)
    (Fields.ofMembers_entries protectionPolicy distinct _)
  -- under each name there is only what one of the two sides says
  intro a ha
  have hw := hp.filter fun e => e.1 == a.member
  rw [List.filter_append] at hw
  have hu := withName_restrict a.member isUserName (protectionPolicy.entries (protectionPolicy.expand user))
  have hs := withName_restrict a.member isAssignedName (protectionPolicy.said reply)
  unfold withName at hu hs ⊢
  rw [hu, hs, isUserName, isAssignedName_member a ha] at hw
  cases hr : a.role.assigned with
  | true => simpa [hr] using hw
  | false => simpa [hr] using hw

theorem flatten_merged {user : State} (h : protectionPolicy.Clean isUser user) (m : Model) :
    protectionPolicy.flatten (.select Role.assigned m (protectionPolicy.expand user)) =
      assign (protectionPolicy.flatten m) user := by
  rw [Fields.flatten_select]
  exact Fields.State.select_congr (.refl _ _) (Fields.flatten_expand protectionPolicy user h)

theorem answered_merged {user : State} (hu : protectionPolicy.Clean isUser user) {given id : String} {m : Model}
    (hid : getId (answered given m user) = .value id) {merged : Model}
    (h : merged = .select Role.assigned m (protectionPolicy.expand user)) :
    answered id merged (protectionPolicy.flatten merged) = answered given m user := by
  rw [answered_flatten, h, flatten_merged hu]
  exact answered_of_getId hid

/-! ## After a change -/

/-- Neither a refresh from what was kept of the request and what the server assigned, nor a plan
without a change by the user has anything to do. -/
structure Applied (kept : List (String × Json)) (reply : Json) (proposed : State) (s : Managed) : Prop where
  refreshed : ∃ id, getId s.1 = .value id ∧ ∀ c answer body es, c.arrived (.getPolicy id) answer = .whole 200 body →
    Json.read? (Text.decodeLossy body) = some (.obj es) →
    es.Perm (kept ++ restrict isAssignedName (protectionPolicy.said reply)) →
    read (some c) s.1 s.2 answer = { result := some s, requests := [c.request (.getPolicy id)] }
  planned : ∀ proposed', SameUser proposed' proposed →
    planUpdate s.1 proposed' s.2 = { state := s.1, hidden := s.2, replaced := [] }

theorem applied_of_answered {proposed planned : State} (hp : protectionPolicy.Clean isUser proposed)
    (hs : SameUser planned proposed) {reply : Json} {m : Model} (hm : protectionPolicy.decode reply = some m)
    (given : String) (hidden : Private) :
    Applied (restrict isUserName (protectionPolicy.entries (protectionPolicy.expand planned))) reply proposed
      (answered given m planned, hidden) where
  refreshed := by
    obtain ⟨id, hid⟩ : ∃ id, getId (answered given m planned) = .value id := ⟨_, getId_answered given m planned⟩
    refine ⟨id, hid, fun c answer body es ha hb hperm => ?_⟩
    have hread : (Json.read? (Client.bodyText 200 body)).bind protectionPolicy.decode =
        some (.select Role.assigned m (protectionPolicy.expand planned)) := by
      show (Json.read? (Text.decodeLossy body)).bind protectionPolicy.decode = _
      rw [hb]
      show (named? _).bind protectionPolicy.ofMembers = _
      rw [named?_eq_some.mpr rfl]
      exact ofMembers_merged hm hperm
    have hclean : protectionPolicy.Clean isUser planned := hp.of_agree (Fields.State.Agree.symm hs)
    rw [read_of_arrived ha rfl hread hid, answered_merged hclean hid rfl]
  planned := by
    intro proposed' h
    have hu : SameUser (answered given m planned) proposed := (sameUser_answered given m planned).trans hs
    exact planUpdate_of_same (h.trans hu.symm) hidden

/-- A policy that was created or changed as planned stays as it is. -/
theorem applied_without_drift {proposed : State} (hp : protectionPolicy.Clean isUser proposed)
    (slot : Option Client) (answer : Http.Answer) :
    (∀ s, (create slot (planCreate proposed).1 (planCreate proposed).2 answer).result = some s →
      ∃ r sent reply, (create slot (planCreate proposed).1 (planCreate proposed).2 answer).requests = [r] ∧
        r.json? = some (.obj sent) ∧ answer.json? = some reply ∧ Applied sent reply proposed s) ∧
    ∀ (prior : Managed) s, (update slot prior.1 (planUpdate prior.1 proposed prior.2).state
        (planUpdate prior.1 proposed prior.2).hidden answer).result = some s →
      ∃ r sent reply, (update slot prior.1 (planUpdate prior.1 proposed prior.2).state
          (planUpdate prior.1 proposed prior.2).hidden answer).requests = [r] ∧
        r.json? = some (.obj sent) ∧ answer.json? = some reply ∧ Applied (restrict isUserName sent) reply proposed s := by
  constructor
  · intro s h
    obtain ⟨c, m, given, -, hm, he⟩ := (create_cases slot (planCreate proposed).2 answer
      (planCreate proposed).1).resolve_left fun hn => Option.some_ne_none s (h.symm.trans hn)
    obtain ⟨reply, hj, hd⟩ := Option.bind_eq_some_iff.mp hm
    have ha := applied_of_answered hp (sameUser_planCreate proposed) hd given (planCreate proposed).2
    rw [he] at h ⊢
    cases h
    refine ⟨_, _, reply, rfl, Http.Request.json?_of_body rfl, hj, ?_⟩
    rwa [restrict_user_planCreate] at ha
  · intro prior s h
    obtain ⟨id, -, c, m, given, -, hm, he⟩ := (update_cases slot (planUpdate prior.1 proposed prior.2).hidden answer
      prior.1 (planUpdate prior.1 proposed prior.2).state).resolve_left fun hn =>
        Option.some_ne_none s (h.symm.trans hn)
    obtain ⟨reply, hj, hd⟩ := Option.bind_eq_some_iff.mp hm
    have ha := applied_of_answered hp (sameUser_planUpdate prior.1 proposed prior.2) hd given
      (planUpdate prior.1 proposed prior.2).hidden
    rw [he] at h ⊢
    cases h
    refine ⟨_, _, reply, rfl, Http.Request.json?_of_body rfl, hj, ?_⟩
    rwa [restrict_user_updateBody]

theorem nightly_without_drift :
    protectionPolicy.Clean isUser nightly ∧
      ∃ s, (create (some localClient) (planCreate nightly).1 (planCreate nightly).2
          (written (versioned "p" 3))).result = some s ∧
        ∃ r sent reply, (create (some localClient) (planCreate nightly).1 (planCreate nightly).2
            (written (versioned "p" 3))).requests = [r] ∧
          r.json? = some (.obj sent) ∧ (written (versioned "p" 3)).json? = some reply ∧
          Applied sent reply nightly s := by
  have hp : protectionPolicy.Clean isUser nightly := by decide +kernel
  have h : (create (some localClient) (planCreate nightly).1 (planCreate nightly).2
      (written (versioned "p" 3))).result.isSome = true := by
    decide +kernel
  obtain ⟨s, hs⟩ := Option.isSome_iff_exists.mp h
  exact ⟨hp, s, hs, (applied_without_drift hp (some localClient) (written (versioned "p" 3))).1 s hs⟩

end Policy.Resource

end ProtectionProvider
