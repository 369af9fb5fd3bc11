import ProtectionProvider.Proofs.Policy.Lifecycle

/-!
# Creating a policy

A creation asks for what the user proposed and for nothing else, and what it leaves is what was
proposed together with what the server assigned. It leaves nothing unless the answer names a policy.
-/

namespace ProtectionProvider

/-! ## What is sent of a policy -/

theorem Fields.restrict_entries_unknown {f : String → Bool} {r : Role → Bool} : ∀ {fs : Fields} (s : fs.State),
    (∀ a ∈ fs.attributes, r a.role = false → f a.member = true) →
      restrict f (fs.entries (fs.expand (.select r (.unknown fs) s))) = fs.entries (fs.expand (.select r (.unknown fs) s))
  | .nil, (), _ => rfl
  | .cons a k fs, (v, s), h => by
    have ih := restrict_entries_unknown s fun b hb => h b (List.mem_cons_of_mem _ hb)
    show restrict f (entry a ((if r a.role then Value.unknown else v).toOption.map k.expand) ++ _) = _
    rw [restrict_append, ih]
    refine congrArg (· ++ _) ?_
    cases hr : r a.role with
    | true => rfl
    | false => exact restrict_entry_self (h a List.mem_cons_self hr) _

namespace Policy.Resource

theorem isUserName_member (a : Attribute) (ha : a ∈ protectionPolicy.attributes) :
    isUserName a.member = !a.role.assigned := by
  rw [isUserName, isAssignedName_member a ha]

theorem restrict_user_planCreate (proposed : State) :
    restrict isUserName (protectionPolicy.entries (protectionPolicy.expand (planCreate proposed).1)) =
      protectionPolicy.entries (protectionPolicy.expand (planCreate proposed).1) := by
  refine Fields.restrict_entries_unknown proposed fun a ha hr => ?_
  rw [isUserName_member a ha, hr]
  rfl

theorem restrict_user_updateBody (prior planned : State) :
    restrict isUserName (protectionPolicy.entries (updateBody prior planned)) =
      restrict isUserName (protectionPolicy.entries (protectionPolicy.expand planned)) := by
  have hid : isUserName Policy.id.entry.member = false := by decide +kernel
  unfold updateBody
  dsimp only
  rw [Fields.restrict_entries_set Policy.id _ _ hid]
  refine Fields.restrict_entries_select _ _ fun a ha hr => ?_
  rw [isUserName_member a ha]
  cases hrole : a.role <;> first | rfl | (rw [hrole] at hr; cases hr)

theorem isUserName_of_assigned {name : String} (h : name ∈ assignedNames) : isUserName name = false := by
  simp [isUserName, isAssignedName, h]

def userMembers (s : State) : List (String × Json) :=
  restrict isUserName (protectionPolicy.entries (protectionPolicy.expand s))

theorem lookup_userMembers {name : String} (h : name ∈ assignedNames) (s : State) :
    (userMembers s).lookup name = none := by
  rw [lookup_eq_head?, userMembers, withName_restrict, isUserName_of_assigned h]
  rfl

theorem entries_planCreate (proposed : State) :
    protectionPolicy.entries (protectionPolicy.expand (planCreate proposed).1) = userMembers proposed := by
  have hs : protectionPolicy.expand (planCreate proposed).1 =
      .select Role.assigned (protectionPolicy.expand (.unknown protectionPolicy)) (protectionPolicy.expand proposed) :=
    Fields.expand_select Role.assigned protectionPolicy (.unknown protectionPolicy) proposed
  have hn : ∀ a ∈ protectionPolicy.attributes, a.role.assigned = true → isUserName a.member = false := by
    intro a ha hr
    rw [isUserName_member a ha, hr]
    rfl
  rw [← restrict_user_planCreate, hs]
  exact Fields.restrict_entries_select _ _ hn

/-! ## Creations -/

structure Creates (proposed : State) (r : Http.Request) : Prop where
  method : r.method = .post
  body : r.body = some (Json.obj (userMembers proposed)).toString
  sent : r.json? = some (.obj (userMembers proposed))
  assigned : ∀ name ∈ assignedNames, (userMembers proposed).lookup name = none

/-- The state has the user's attributes as proposed, and the server's from the policy `m`. -/
structure Created (proposed : State) (m : Model) (s : State) : Prop where
  user : SameUser s proposed
  assigned : Fields.State.Agree Role.assigned s (protectionPolicy.flatten m)
  known : protectionPolicy.Known Role.assigned s
  identified : ∃ id, getId s = .value id
  planned : Fields.State.Keeps (fun _ => true) (planCreate proposed).1 s

theorem creates_request (c : Client) (proposed : State) : Creates proposed (c.request (creation (planCreate proposed).1)) := by
  have hb : (c.request (creation (planCreate proposed).1)).body = some (Json.obj (userMembers proposed)).toString := by
    show some (protectionPolicy.encode (protectionPolicy.expand (planCreate proposed).1)).toString = _
    rw [Fields.encode_eq, entries_planCreate]
  have hj := Http.Request.json?_of_body (r := c.request (creation (planCreate proposed).1)) rfl
  rw [entries_planCreate] at hj
  exact ⟨rfl, hb, hj, fun name hn => lookup_userMembers hn proposed⟩

theorem created_answered {m : Model} {id : String} (hid : m.get Policy.id = some id) (proposed : State) :
    Created proposed m (answered id m (planCreate proposed).1) := by
  have hv : getId (assign (protectionPolicy.flatten m) (planCreate proposed).1) = .value id := by
    rw [getId_assign, getId_flatten, hid]
    rfl
  have ha : Fields.State.Agree Role.assigned (answered id m (planCreate proposed).1) (protectionPolicy.flatten m) := by
    rw [answered, identify_of_value hv]
    exact Fields.State.agree_select_left _ _
  have hu := sameUser_answered id m (planCreate proposed).1
  have hplan : Fields.State.Keeps Role.assigned (planCreate proposed).1 (answered id m (planCreate proposed).1) :=
    Fields.State.keeps_of_unknown _ (Fields.State.agree_select_left (.unknown protectionPolicy) proposed)
  exact {
    user := hu.trans (sameUser_planCreate proposed)
    assigned := ha
    known := (known_flatten Role.assigned m).of_agree ha.symm
    identified := ⟨_, getId_answered id m _⟩
    planned := (Fields.State.keeps_all_iff Role.assigned).mpr ⟨hplan, hu.keeps⟩ }

/-- What a creation of the proposed policy asks for, leaves and reports. What redirections make of its
request is not part of it. -/
structure Creation (slot : Option Client) (proposed : State) (hidden : Private) (answer : Http.Answer)
    (o : Outcome Managed) : Prop where
  single : o.requests.length ≤ 1
  requested : ∀ c, slot = some c → c.Sends (creation (planCreate proposed).1) →
    o.requests = [c.request (creation (planCreate proposed).1)]
  sent : ∀ r ∈ o.requests, Creates proposed r
  left : ∀ s, o.result = some s → s.2 = hidden ∧ o.errors = [] ∧ ∃ c m, slot = some c ∧
    (c.arrived (creation (planCreate proposed).1) answer).Holds (creation (planCreate proposed).1) m ∧
    Created proposed m s.1
  succeeds_iff : o.result.isSome = true ↔ ∃ c m, slot = some c ∧
    (c.arrived (creation (planCreate proposed).1) answer).Holds (creation (planCreate proposed).1) m ∧
    (Fields.Model.get Policy.id m).isSome = true
  reported : o.result = none → ∃ e, o.errors = [e]

theorem creation_unconfigured (proposed : State) (hidden : Private) (answer : Http.Answer) :
    Creation none proposed hidden answer (.fail (.noClient .notConfigured)) where
  single := Nat.zero_le 1
  requested _ hc := by cases hc
  sent _ hr := by cases hr
  left _ hs := by cases hs
  succeeds_iff := by simp [Outcome.fail]
  reported _ := ⟨_, rfl⟩

theorem creation_of_end {c : Client} {proposed : State} {hidden : Private} {answer : Http.Answer} {o : Outcome Managed}
    (h : CreateEnd c (planCreate proposed).1 hidden (c.arrived (creation (planCreate proposed).1) answer) o) :
    Creation (some c) proposed hidden answer o := by
  have hsingle := c.length_issued_le (creation (planCreate proposed).1)
  have hrequested : ∀ c', some c = some c' → c'.Sends (creation (planCreate proposed).1) →
      c.issued (creation (planCreate proposed).1) = [c'.request (creation (planCreate proposed).1)] := by
    intro c' hc hs
    cases hc
    exact Client.issued_of_sends hs
  have hsent : ∀ r ∈ c.issued (creation (planCreate proposed).1), Creates proposed r := by
    intro r hr
    rw [Client.eq_request_of_mem_issued hr]
    exact creates_request c proposed
  -- an ending fixes the form of the answer, which is therefore held apart from what arrived
  generalize ha : c.arrived (creation (planCreate proposed).1) answer = a at h
  cases h with
  | @created m id holds named =>
    rw [← ha] at holds
    refine ⟨hsingle, hrequested, hsent, ?_, ?_, fun h => by cases h⟩
    · intro s h
      cases h
      exact ⟨rfl, rfl, c, m, rfl, holds, created_answered named proposed⟩
    · exact ⟨fun _ => ⟨c, m, rfl, holds, by rw [named]; rfl⟩, fun _ => rfl⟩
  | @unnamed m holds unnamed =>
    refine ⟨hsingle, hrequested, hsent, fun s h => (by cases h), ⟨fun h => (by cases h), ?_⟩, fun _ => ⟨_, rfl⟩⟩
    rintro ⟨c', m', hc, holds', named⟩
    cases hc
    rw [ha] at holds'
    rw [Http.Answer.holds_unique holds' holds, unnamed] at named
    cases named
  | failed fails =>
    refine ⟨hsingle, hrequested, hsent, fun s h => (by cases h), ⟨fun h => (by cases h), ?_⟩, fun _ => ⟨_, rfl⟩⟩
    rintro ⟨c', m', hc, holds', -⟩
    cases hc
    rw [ha] at holds'
    exact absurd holds' (fails m')

theorem create_planned (slot : Option Client) (proposed : State) (hidden : Private) (answer : Http.Answer) :
    Creation slot proposed hidden answer (create slot (planCreate proposed).1 hidden answer) := by
  cases slot with
  | none => exact creation_unconfigured proposed hidden answer
  | some c => exact creation_of_end (create_end c hidden answer (planCreate proposed).1)

end Policy.Resource

end ProtectionProvider
