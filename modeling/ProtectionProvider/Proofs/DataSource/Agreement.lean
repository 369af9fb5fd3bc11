import ProtectionProvider.Proofs.DataSource.Conformance
import ProtectionProvider.Proofs.Entity.Documents

/-!
# Readers agree

An entity is read on its own, as an element of a list, and within another entity. All of them show
what its document says, but for an identifier that is taken from the request. A policy can moreover
be imported and refreshed, which shows the same state (`Readers`).
-/

namespace ProtectionProvider

/-! ## What a document holds -/

section
variable {fs gs : Fields} {k : Kind}

def Place.Holds (p : Place fs k) (j x : Json) : Prop := (p.entry.member, x) ∈ fs.said j ∧ x ≠ .null

def Place.Lists (p : Place fs (.objects gs)) (j : Json) (n : Nat) (x : Json) : Prop :=
  ∃ items, p.Holds j (.array items) ∧ items[n]? = some x

theorem Fields.get_of_holds (hd : fs.Distinct) {p : Place fs k} {j x : Json} {m : fs.Model}
    (hm : fs.decode j = some m) (hx : p.Holds j x) : ∃ y, k.decode x = some y ∧ m.get p = some y := by
  have hr : readMember k.decode p.entry.member (fs.said j) = some (m.get p) :=
    readMember_of_ofMembers p (ofMembers_said hd hm)
  have hw : (p.entry.member, x) ∈ withName p.entry.member (fs.said j) := by
    simp [withName, hx.1]
  -- what is read occurs once under the name, so that it is `x`
  rcases readMember_eq_some hr with ⟨hn, -⟩ | ⟨q, hq, hv⟩
  · rw [hn] at hw
    cases hw
  · rw [hq] at hw
    obtain rfl := List.mem_singleton.mp hw
    rcases nullable_eq_some hv with ⟨h0, -⟩ | ⟨-, y, hy, hg⟩
    · exact absurd h0 hx.2
    · exact ⟨y, hy, hg⟩

theorem Fields.flatten_of_lists (hd : fs.Distinct) {p : Place fs (.objects gs)} {j x : Json} {n : Nat} {m : fs.Model}
    (hm : fs.decode j = some m) (hx : p.Lists j n x) : ∃ (l : List gs.State) (y : gs.Model),
      (fs.flatten m).get p = .value l ∧ l[n]? = some (gs.flatten y) ∧ gs.decode x = some y := by
  obtain ⟨items, hi, hn⟩ := hx
  obtain ⟨(ys : List gs.Model), hys, hg⟩ := get_of_holds hd hm hi
  obtain ⟨hlt, hn⟩ := List.getElem?_eq_some_iff.mp hn
  have hf : List.Forall₂ (fun i y => gs.decode i = some y) items ys := forall₂_of_mapM hys
  have hy : n < ys.length := hf.length_eq ▸ hlt
  refine ⟨ys.map gs.flatten, ys[n], get_flatten_of_some hg, ?_, ?_⟩
  · simp [hy]
  · rw [← hn]
    exact hf.get hlt hy

end

/-! ## States that differ in an identifier -/

section
variable {fs : Fields}

/-- The states have the same attributes, but perhaps not that of the place. -/
def Fields.State.SameBut {k : Kind} (q : Place fs k) (s t : fs.State) : Prop :=
  ∀ {j : Kind} (p : Place fs j), p.entry.name ≠ q.entry.name → s.get p = t.get p

theorem Fields.State.sameBut_set {k : Kind} (q : Place fs k) (v : Value k.State) (s : fs.State) :
    SameBut q s (s.set q v) := by
  intro j p hp
  have hne : p.entry ≠ q.entry := fun e => hp (congrArg Attribute.name e)
  exact (get_set_of_ne p q v s hne).symm

end

/-! ## Calls that are answered with a document -/

/-- What comes back to the call in the end is a success whose body is the document. -/
def Client.Receives (c : Client) (call : Call) (answer : Http.Answer) (j : Json) : Prop :=
  ∃ status body, c.arrived call answer = .whole status body ∧ Http.isSuccess status = true ∧
    Json.read? (bodyText status body) = some j

namespace DataSource

variable {d : DataSource} {config : d.State} {answer : Http.Answer} {now : String} {j : Json}

theorem decodeReply?_call (ids : d.ids.State) (filters : d.filters.State) (text : String) :
    (d.call ids filters).decodeReply? text = (Json.read? text).bind (d.call ids filters).reply.decode := by
  cases d <;> rfl

theorem read_of_receives {c : Client} (h : c.Receives (d.call config.ids config.filters) answer j)
    {m : (d.call config.ids config.filters).reply.Model} (hm : Fields.decode _ j = some m) :
    d.read (some c) config answer now =
      { result := some { config with outputs := ofReply now d config.ids config.filters m }
        requests := c.issued (d.call config.ids config.filters) } := by
  obtain ⟨status, body, ha, hok, hj⟩ := h
  apply read_of_ok
  apply Client.result_of_success ha hok
  rw [decodeReply?_call, hj]
  exact hm

/-! ## What reads show -/

def State.content : {d : DataSource} → d.State → d.answer.State
  | .policies, ⟨_, _, (_, s)⟩ => s
  | .policy, ⟨_, _, s⟩ => s
  | .groups, ⟨_, _, (_, s)⟩ => s
  | .group, ⟨_, _, s⟩ => s
  | .runs, ⟨_, _, (_, s)⟩ => s
  | .run, ⟨_, _, s⟩ => s
  | .reports, ⟨_, _, (_, s)⟩ => s

/-- Every read that is answered with the document succeeds, and what it shows satisfies `P`. -/
def Reads (d : DataSource) (j : Json) (P : d.answer.State → Prop) : Prop :=
  ∀ c config answer now, c.Receives (d.call config.ids config.filters) answer j →
    ∃ s, (d.read (some c) config answer now).result = some s ∧ (d.read (some c) config answer now).errors = [] ∧
      P s.content

/-- Every document that is listed in an answer is shown at its position in the list that is read, by a
state to which it stands in `P`. -/
def ShowsEach {fs : Fields} (list : DataSource) (p : Place list.answer (.objects fs))
    (P : Json → fs.State → Prop) : Prop :=
  ∀ j m, list.answer.decode j = some m → list.Reads j fun s => ∀ n x, p.Lists j n x →
    ∃ (l : List fs.State) (t : fs.State), s.get p = .value l ∧ l[n]? = some t ∧ P x t

theorem Reads.mono {P Q : d.answer.State → Prop} (h : d.Reads j P) (hpq : ∀ s, P s → Q s) : d.Reads j Q := by
  intro c config answer now hc
  obtain ⟨s, hs, he, hp⟩ := h c config answer now hc
  exact ⟨s, hs, he, hpq _ hp⟩

theorem distinct_answer (d : DataSource) : d.answer.Distinct := by
  obtain ⟨name, h⟩ := d.answer_mem_tables
  exact Fields.WellNamed.distinct (wellNamed_tables _ h)

theorem reads_list (hl : d.isList = true) {m : d.answer.Model} (hm : d.answer.decode j = some m) :
    d.Reads j fun s => s = d.answer.flatten m := by
  intro c config answer now h
  cases d with
  | policies | groups | runs | reports =>
    rw [read_of_receives h hm]
    exact ⟨_, rfl, rfl, rfl⟩
  | policy | group | run => cases hl

theorem showsEach_of_decode {fs : Fields} {p : Place d.answer (.objects fs)} {P : Json → fs.State → Prop}
    (hl : d.isList = true) (hP : ∀ x m, fs.decode x = some m → P x (fs.flatten m)) : d.ShowsEach p P := by
  intro j m hm
  apply (reads_list hl hm).mono
  rintro s rfl n x hx
  obtain ⟨l, y, hp, hn, hy⟩ := Fields.flatten_of_lists d.distinct_answer hm hx
  exact ⟨l, fs.flatten y, hp, hn, hP x y hy⟩

theorem reads_policy {m : Policy.protectionPolicy.Model} (hm : Policy.protectionPolicy.decode j = some m) :
    DataSource.policy.Reads j fun s => (∃ x, Policy.id.Holds j x) → s = Policy.protectionPolicy.flatten m := by
  intro c config answer now h
  rw [read_of_receives h hm]
  refine ⟨_, rfl, rfl, ?_⟩
  rintro ⟨x, hx⟩
  obtain ⟨i, -, hi⟩ := Fields.get_of_holds DataSource.policy.distinct_answer hm hx
  exact Fields.State.set_orIfNull_self (Fields.get_flatten_of_some hi) _

theorem reads_group {m : Group.protectionGroup.Model} (hm : Group.protectionGroup.decode j = some m) :
    DataSource.group.Reads j fun s => Fields.State.SameBut Group.id (Group.protectionGroup.flatten m) s := by
  intro c config answer now h
  rw [read_of_receives h hm]
  exact ⟨_, rfl, rfl, Fields.State.sameBut_set Group.id _ _⟩

theorem reads_run {m : Group.protectionGroupRun.Model} (hm : Group.protectionGroupRun.decode j = some m) :
    DataSource.run.Reads j fun s => Fields.State.SameBut Group.runId (Group.protectionGroupRun.flatten m) s ∧
      ((∃ x, Group.runId.Holds j x) → s = Group.protectionGroupRun.flatten m) := by
  intro c config answer now h
  rw [read_of_receives h hm]
  refine ⟨_, rfl, rfl, Fields.State.sameBut_set Group.runId _ _, ?_⟩
  rintro ⟨x, hx⟩
  obtain ⟨i, -, hi⟩ := Fields.get_of_holds DataSource.run.distinct_answer hm hx
  exact Fields.State.set_orIfNull_self (Fields.get_flatten_of_some hi) _

end DataSource

/-! ## Readers of a policy -/

namespace Policy.Resource

variable {c : Client} {id : String} {answer : Http.Answer}

/-- All readers of the policy find `t`, whatever was known before, and report the same. A refresh that
does not find it leaves what was known. -/
structure ReadAlike (c : Client) (id : String) (answer : Http.Answer) (t : Option State) (errors : List Diagnostic) :
    Prop where
  imported : (importId (some c) id answer).result = t.map (·, .null) ∧ (importId (some c) id answer).errors = errors
  refreshed : ∀ s hidden, getId s = .value id → (read (some c) s hidden answer).result = some (t.getD s, hidden) ∧
    (read (some c) s hidden answer).errors = errors
  consulted : ∀ (config : DataSource.policy.State) now, config.ids = (.value id, ()) →
    (DataSource.policy.read (some c) config answer now).result = t.map (fun t => { config with outputs := t }) ∧
      (DataSource.policy.read (some c) config answer now).errors = errors

theorem readAlike_of_ok (hid : id ≠ "") {m : Model} (h : c.result (.getPolicy id) answer = .ok m) :
    ReadAlike c id answer (some (identify (.value id) (protectionPolicy.flatten m))) [] := by
  constructor
  · unfold importId Outcome.call
    rw [if_neg hid]
    simp only [h]
    exact ⟨rfl, rfl⟩
  · intro s hidden hs
    unfold read Outcome.call
    rw [hs]
    simp only [h]
    exact ⟨rfl, rfl⟩
  · rintro ⟨ids, filters, outputs⟩ now hc
    obtain rfl : ids = (.value id, ()) := hc
    have ho := @DataSource.read_of_ok .policy ⟨(.value id, ()), filters, outputs⟩ answer now c m h
    exact ⟨congrArg Outcome.result ho, congrArg Outcome.errors ho⟩

theorem readAlike_of_error (hid : id ≠ "") {e : ApiError} (h : c.result (.getPolicy id) answer = .error e)
    (hn : e.isNotFound = false) : ReadAlike c id answer none [.callFailed "GetProtectionPolicyById" e] := by
  constructor
  · unfold importId Outcome.call
    rw [if_neg hid]
    simp only [h]
    exact ⟨rfl, rfl⟩
  · intro s hidden hs
    unfold read Outcome.call
    rw [hs]
    simp only [h, hn]
    exact ⟨rfl, rfl⟩
  · rintro ⟨ids, filters, outputs⟩ now hc
    obtain rfl : ids = (.value id, ()) := hc
    have ho := @DataSource.read_of_error .policy ⟨(.value id, ()), filters, outputs⟩ answer now c e h
    exact ⟨congrArg Outcome.result ho, congrArg Outcome.errors ho⟩

/-- The policy is found by all readers or by none. None of them can ask for it if the URL is no URI. -/
def Readers (c : Client) (id : String) (answer : Http.Answer) : Prop :=
  (∃ m t, c.Sends (.getPolicy id) ∧ policy? answer = some m ∧ ReadAlike c id answer (some t) [] ∧
    Fields.State.SameBut Policy.id (protectionPolicy.flatten m) t ∧ getId t = .value ((m.get Policy.id).getD id)) ∨
  (∃ e, (¬ c.Sends (.getPolicy id) ∨ policy? answer = none) ∧ ReadAlike c id answer none [e])

theorem readers_of_success (hid : id ≠ "") {status : Nat} {body : Text.Octets} (ha : answer.settled = .whole status body)
    (hok : Http.isSuccess status = true) : Readers c id answer := by
  by_cases hs : c.Sends (.getPolicy id)
  · have hm : policy? answer = (Json.read? (Client.bodyText status body)).bind protectionPolicy.decode :=
      policy?_of_text (Http.Answer.json?_of_settled ha)
    have hr := Client.result_of_settled hs ha
    cases hc : (Call.getPolicy id).conclude status body with
    | ok m =>
      have hd : (Json.read? (Client.bodyText status body)).bind protectionPolicy.decode = some m :=
        Call.decodeReply?_of_conclude hc
      refine .inl ⟨m, _, hs, hm.trans hd, readAlike_of_ok hid (hr.trans hc), Fields.State.sameBut_set Policy.id _ _, ?_⟩
      exact (congrArg getId (answered_flatten id m).symm).trans (getId_answered id m _)
    | error e =>
      have hn := Call.isNotFound_of_success hok hc
      refine .inr ⟨_, .inr ?_, readAlike_of_error hid (hr.trans hc) hn⟩
      cases hd : (Json.read? (Client.bodyText status body)).bind protectionPolicy.decode with
      | none => exact hm.trans hd
      | some m => cases hc.symm.trans (Call.conclude_of_success hok hd)
  · obtain ⟨e, he, hn⟩ := Client.result_of_not_sends hs answer
    exact .inr ⟨_, .inl hs, readAlike_of_error hid he hn⟩

end Policy.Resource

/-! ## All readers -/

def Policy.policies : Place Policy.listed (.objects Policy.protectionPolicy) := .here

def Group.groups : Place Group.listed (.objects Group.protectionGroup) := .here

def Group.runs : Place Group.listedRuns (.objects Group.protectionGroupRun) := .here

def Group.lastRun : Place Group.protectionGroup (.object Group.protectionGroupRun) :=
  .there <| .there <| .there <| .there <| .there <| .there <| .there <| .there <| .there <| .there <|
    .there <| .there <| .there <| .there <| .there <| .there <| .there <| .there <| .there <| .there .here

example : Policy.policies.entry.name = "policies" ∧ Group.groups.entry.name = "protection_groups" ∧
    Group.runs.entry.name = "runs" ∧ Group.lastRun.entry.name = "last_run" := ⟨rfl, rfl, rfl, rfl⟩

def Group.ShowsLastRun (j : Json) (s : Group.protectionGroup.State) : Prop :=
  ∀ x, Group.lastRun.Holds j x → ∃ r : Group.protectionGroupRun.State, s.get Group.lastRun = .value r ∧
    DataSource.run.Reads x fun t => Fields.State.SameBut Group.runId r t ∧ ((∃ y, Group.runId.Holds x y) → t = r)

theorem Group.showsLastRun {j : Json} {m : Group.protectionGroup.Model} (hm : Group.protectionGroup.decode j = some m)
    {s : Group.protectionGroup.State} (hs : Fields.State.SameBut Group.id (Group.protectionGroup.flatten m) s) :
    Group.ShowsLastRun j s := by
  intro x hx
  obtain ⟨(y : Group.protectionGroupRun.Model), hy, hg⟩ := Fields.get_of_holds DataSource.group.distinct_answer hm hx
  have hl : (Group.protectionGroup.flatten m).get Group.lastRun = s.get Group.lastRun := hs Group.lastRun (by decide)
  exact ⟨_, hl.symm.trans (Fields.get_flatten_of_some hg), DataSource.reads_run hy⟩

open Policy.Resource in
theorem readers_agree :
    (∀ c id answer status body, id ≠ "" → answer.settled = .whole status body → Http.isSuccess status = true →
      Readers c id answer) ∧
    (DataSource.policies.ShowsEach Policy.policies fun j t =>
      DataSource.policy.Reads j fun s => (∃ x, Policy.id.Holds j x) → s = t) ∧
    (DataSource.groups.ShowsEach Group.groups fun j t =>
      DataSource.group.Reads j (fun s => Fields.State.SameBut Group.id t s) ∧ Group.ShowsLastRun j t) ∧
    (∀ j m, Group.protectionGroup.decode j = some m → DataSource.group.Reads j (Group.ShowsLastRun j)) ∧
    DataSource.runs.ShowsEach Group.runs fun j t =>
      DataSource.run.Reads j fun s => (∃ x, Group.runId.Holds j x) → s = t := by
  refine ⟨fun _ _ _ _ _ hid ha hok => readers_of_success hid ha hok, ?_, ?_, ?_, ?_⟩
  · apply DataSource.showsEach_of_decode rfl
    intro j m hm
    exact DataSource.reads_policy hm
  · apply DataSource.showsEach_of_decode rfl
    intro j m hm
    exact ⟨DataSource.reads_group hm, Group.showsLastRun hm fun _ _ => rfl⟩
  · intro j m hm
    exact (DataSource.reads_group hm).mono fun s hs => Group.showsLastRun hm hs
  · apply DataSource.showsEach_of_decode rfl
    intro j m hm
    exact (DataSource.reads_run hm).mono fun s hs => hs.2

/-! ## A policy, and a group with its last run -/

theorem Place.holds_encode {fs : Fields} {k : Kind} (hd : fs.Distinct) {p : Place fs k} {m : fs.Model} {x : k.Model}
    (h : m.get p = some x) (hx : k.encode x ≠ .null) : p.Holds (fs.encode m) (k.encode x) := by
  have hw : (p.entry.member, k.encode x) ∈ withName p.entry.member (fs.entries m) := by
    rw [Fields.withName_entries_get hd, h]
    exact List.mem_cons_self
  have hs : fs.said (fs.encode m) = fs.entries m := by
    rw [Fields.encode_eq]
    show (named? _).getD [] = _
    rw [named?_eq_some.mpr rfl]
    rfl
  exact ⟨hs ▸ (List.mem_filter.mp hw).1, hx⟩

theorem decode_answer (d : DataSource) (m : d.answer.Model) : d.answer.decode (d.answer.encode m) = some m :=
  Kind.decode_encode (.object d.answer) d.distinct_answer m

section
open Policy.Resource (localClient)

def replied (j : Json) : Http.Answer := .whole 200 (Text.octets j.toString.toList)

def observed (d : DataSource) (ids : d.ids.State) (m : d.answer.Model) : Option d.answer.State :=
  (d.read (some localClient) ⟨ids, .unknown _, .unknown _⟩ (replied (d.answer.encode m)) "").result.map
    DataSource.State.content

theorem observed_of_reads (d : DataSource) (ids : d.ids.State) (hs : localClient.Sends (d.call ids (.unknown _)))
    {m : d.answer.Model} {P : d.answer.State → Prop} (h : d.Reads (d.answer.encode m) P) :
    ∃ s, observed d ids m = some s ∧ P s := by
  have hr : localClient.Receives (d.call ids (.unknown _)) (replied (d.answer.encode m)) (d.answer.encode m) :=
    ⟨200, _, Client.arrived_of_sends hs _, rfl, Http.Answer.json?_printed (d.answer.printable_encode m)⟩
  obtain ⟨s, he, -, hp⟩ := h _ ⟨ids, .unknown _, .unknown _⟩ _ "" hr
  exact ⟨s.content, congrArg (Option.map _) he, hp⟩

end

namespace Group

def someRun : protectionGroupRun.Model :=
  Fields.Model.set runId (some "1:2") (protectionGroupRun.expand (.unknown _))

def ranGroup : protectionGroup.Model := Fields.Model.set lastRun (some someRun) (protectionGroup.expand (.unknown _))

end Group

open Policy.Resource ProtectionProvider.Group in
theorem readers_agree_encoded :
    ("p" ≠ "" ∧ (∃ body, (written (versioned "p" 3)).settled = .whole 200 body) ∧ Http.isSuccess 200 = true ∧
      Readers localClient "p" (written (versioned "p" 3))) ∧
    (∃ u, ∃ l : List Policy.protectionPolicy.State,
      observed .policies () (some [silent, versioned "p" 3], ()) = some u ∧ u.get Policy.policies = .value l ∧
      l[1]? = observed .policy (.value "p", ()) (versioned "p" 3)) ∧
    (∃ u t s r, ∃ l : List protectionGroup.State,
      observed .groups () (some [ranGroup], ()) = some u ∧ u.get groups = .value l ∧ l[0]? = some t ∧
      observed .group (.value "g", ()) ranGroup = some s ∧ Fields.State.SameBut Group.id t s ∧
      observed .run (.value "g", .value "1:2", ()) someRun = some r ∧ t.get lastRun = .value r) ∧
    (∃ s r, observed .group (.value "g", ()) ranGroup = some s ∧
      observed .run (.value "g", .value "1:2", ()) someRun = some r ∧ s.get lastRun = .value r) ∧
    ∃ u, ∃ l : List protectionGroupRun.State,
      observed .runs (.value "g", ()) (some [someRun], some (1 : Int64), ()) = some u ∧ u.get runs = .value l ∧
      l[0]? = observed .run (.value "g", .value "1:2", ()) someRun := by
  obtain ⟨policies, groups, lastRun, runs⟩ := readers_agree.2
  have runNamed : ∃ y, runId.Holds (protectionGroupRun.encode someRun) y :=
    ⟨_, Place.holds_encode DataSource.run.distinct_answer rfl (by simp [Kind.encode, Json.str])⟩
  have groupRan : Group.lastRun.Holds (protectionGroup.encode ranGroup) (protectionGroupRun.encode someRun) :=
    Place.holds_encode (k := .object protectionGroupRun) (x := someRun) DataSource.group.distinct_answer rfl
      (by simp [Kind.encode])
  refine ⟨⟨by decide, ⟨_, rfl⟩, rfl, readers_agree.1 localClient "p" _ 200 _ (by decide) rfl rfl⟩, ?_, ?_, ?_, ?_⟩
  · have policyNamed : ∃ y, Policy.id.Holds (Policy.protectionPolicy.encode (versioned "p" 3)) y :=
      ⟨_, Place.holds_encode DataSource.policy.distinct_answer rfl (by simp [Kind.encode, Json.str])⟩
    have hl : Policy.policies.Lists (Policy.listed.encode (some [silent, versioned "p" 3], ())) 1
        (Policy.protectionPolicy.encode (versioned "p" 3)) :=
      ⟨_, Place.holds_encode DataSource.policies.distinct_answer rfl (by simp [Kind.encode]), rfl⟩
    obtain ⟨u, hu, hshown⟩ := observed_of_reads .policies () (by decide) (policies _ _ (decode_answer .policies _))
    obtain ⟨l, t, hc, ht, hread⟩ := hshown 1 _ hl
    obtain ⟨s, hs, hsame⟩ := observed_of_reads .policy (.value "p", ()) (by decide) hread
    exact ⟨u, l, hu, hc, ht.trans (hsame policyNamed ▸ hs.symm)⟩
  · have hl : Group.groups.Lists (Group.listed.encode (some [ranGroup], ())) 0 (protectionGroup.encode ranGroup) :=
      ⟨_, Place.holds_encode DataSource.groups.distinct_answer rfl (by simp [Kind.encode]), rfl⟩
    obtain ⟨u, hu, hshown⟩ := observed_of_reads .groups () (by decide) (groups _ _ (decode_answer .groups _))
    obtain ⟨l, t, hc, ht, hread, hlast⟩ := hshown 0 _ hl
    obtain ⟨s, hs, hsame⟩ := observed_of_reads .group (.value "g", ()) (by decide) hread
    obtain ⟨r, hr, hrun⟩ := hlast _ groupRan
    obtain ⟨v, hv, -, hv'⟩ := observed_of_reads .run (.value "g", .value "1:2", ()) (by decide) hrun
    exact ⟨u, t, s, v, l, hu, hc, ht, hs, hsame, hv, hv' runNamed ▸ hr⟩
  · have hread := lastRun _ _ (decode_answer .group ranGroup)
    obtain ⟨s, hs, hlast⟩ := observed_of_reads .group (.value "g", ()) (by decide) hread
    obtain ⟨r, hr, hrun⟩ := hlast _ groupRan
    obtain ⟨v, hv, -, hv'⟩ := observed_of_reads .run (.value "g", .value "1:2", ()) (by decide) hrun
    exact ⟨s, v, hs, hv, hv' runNamed ▸ hr⟩
  · have hl : Group.runs.Lists (listedRuns.encode (some [someRun], some (1 : Int64), ())) 0
        (protectionGroupRun.encode someRun) :=
      ⟨_, Place.holds_encode DataSource.runs.distinct_answer rfl (by simp [Kind.encode]), rfl⟩
    obtain ⟨u, hu, hshown⟩ := observed_of_reads .runs (.value "g", ()) (by decide) (runs _ _ (decode_answer .runs _))
    obtain ⟨l, t, hc, ht, hread⟩ := hshown 0 _ hl
    obtain ⟨v, hv, hsame⟩ := observed_of_reads .run (.value "g", .value "1:2", ()) (by decide) hread
    exact ⟨u, l, hu, hc, ht.trans (hsame runNamed ▸ hv.symm)⟩

end ProtectionProvider
