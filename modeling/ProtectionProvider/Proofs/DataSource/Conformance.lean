import ProtectionProvider.DataSource.Read
import ProtectionProvider.Proofs.Client.Exchange
import ProtectionProvider.Proofs.Entity.Conformance
import ProtectionProvider.Proofs.Policy.Lifecycle
import ProtectionProvider.Proofs.Policy.Refresh

/-!
# Schemas and the states that are left

What is read of a data source and of a policy has the attributes of its schema and no others, and all
that the server sets in it is null or of the kind that the schema says (`states_described`).
-/

namespace ProtectionProvider

namespace DataSource

/-! ## Outcomes of a read -/

section
variable {d : DataSource} {config : d.State} {answer : Http.Answer} {now : String}

theorem read_of_ok {c : Client} {m : (d.call config.ids config.filters).reply.Model}
    (h : c.result (d.call config.ids config.filters) answer = .ok m) :
    d.read (some c) config answer now =
      { result := some { config with outputs := ofReply now d config.ids config.filters m }
        requests := c.issued (d.call config.ids config.filters) } := by
  unfold read Outcome.call
  simp only [h]
  simp [Outcome.ok]

theorem read_of_error {c : Client} {e : ApiError} (h : c.result (d.call config.ids config.filters) answer = .error e) :
    d.read (some c) config answer now =
      { result := none, errors := [.callFailed (d.call config.ids config.filters).operation e]
        requests := c.issued (d.call config.ids config.filters) } := by
  unfold read Outcome.call
  simp only [h]
  simp [Outcome.fail]

theorem requests_read (c : Client) (config : d.State) (answer : Http.Answer) (now : String) :
    (d.read (some c) config answer now).requests = c.issued (d.call config.ids config.filters) := by
  cases hr : c.result (d.call config.ids config.filters) answer with
  | ok m => rw [read_of_ok hr]
  | error e => rw [read_of_error hr]

theorem read_eq_some {slot : Option Client} {s : d.State} (h : (d.read slot config answer now).result = some s) :
    ∃ c m, slot = some c ∧ c.result (d.call config.ids config.filters) answer = .ok m ∧
      s = { config with outputs := ofReply now d config.ids config.filters m } := by
  cases slot with
  | none => cases h
  | some c =>
    cases hr : c.result (d.call config.ids config.filters) answer with
    | error e =>
      rw [read_of_error hr] at h
      cases h
    | ok m =>
      rw [read_of_ok hr] at h
      exact ⟨c, m, rfl, hr, (Option.some.inj h).symm⟩

end

/-! ## Schemas -/

theorem names_table : ∀ d : DataSource, (d.table.attributes.map Attribute.name).Nodup := by
  intro d
  cases d <;> decide +kernel

theorem role_ids : ∀ d : DataSource, ∀ a ∈ d.ids.attributes, a.role.assigned = false := by
  intro d
  cases d <;> decide

theorem role_filters : ∀ d : DataSource, ∀ a ∈ d.filters.attributes, a.role.assigned = false := by
  intro d
  cases d <;> decide

theorem answer_mem_tables : ∀ d : DataSource, ∃ name, (name, d.answer) ∈ tables
  | .policies => ⟨"ProtectionPoliciesResponse", by simp [tables, listings, answer]⟩
  | .policy => ⟨"ProtectionPolicy", by simp [tables, allEntities, Policy.entities, answer]⟩
  | .groups => ⟨"ProtectionGroupsResponse", by simp [tables, listings, answer]⟩
  | .group => ⟨"ProtectionGroup", by simp [tables, allEntities, Group.entities, answer]⟩
  | .runs => ⟨"ProtectionGroupRunsResponse", by simp [tables, listings, answer]⟩
  | .run => ⟨"ProtectionGroupRun", by simp [tables, allEntities, Group.entities, answer]⟩
  | .reports => ⟨"ReportsResponse", by simp [tables, listings, answer]⟩

theorem deeply_outputs (d : DataSource) : d.outputs.Deeply Fields.Regular := by
  obtain ⟨name, h⟩ := d.answer_mem_tables
  have ha := (wellNamed_tables _ h).2
  unfold outputs
  cases d.isList with
  | true => exact ⟨trivial, ha⟩
  | false => exact ha

/-! ## States -/

theorem clean_ofReply (now : String) : ∀ (d : DataSource) (ids : d.ids.State) (s : d.filters.State)
    (m : (d.call ids s).reply.Model), d.outputs.Clean (fun _ => true) (ofReply now d ids s m)
  | .policies, (), _, m => ⟨fun _ => trivial, Policy.listed.clean_flatten _ m⟩
  | .policy, (id, ()), (), m => Fields.clean_fallback Policy.id (Policy.protectionPolicy.clean_flatten _ m) rfl id.text
  | .groups, (), _, m => ⟨fun _ => trivial, Group.listed.clean_flatten _ m⟩
  | .group, (_, ()), _, m => Fields.Settled.set Group.id (Group.protectionGroup.clean_flatten _ m) trivial
  | .runs, (_, ()), _, m => ⟨fun _ => trivial, Group.listedRuns.clean_flatten _ m⟩
  | .run, (_, runId, ()), _, m =>
    Fields.clean_fallback Group.runId (Group.protectionGroupRun.clean_flatten _ m) rfl runId.text
  | .reports, (), _, m => ⟨fun _ => trivial, Reporting.listed.clean_flatten _ m⟩

def Conforms (d : DataSource) (s : d.State) : Prop :=
  ∃ l, s.toDynamic = .object l ∧ d.schema.table.Keys l ∧ d.schema.table.Describes Role.assigned l

theorem conforms_of_clean {d : DataSource} {s : d.State} (h : d.outputs.Clean (fun _ => true) s.outputs) :
    d.Conforms s := by
  refine ⟨_, rfl, ?_, ?_⟩
  · have hk : (d.ids.toDynamics s.ids ++ d.filters.toDynamics s.filters ++ d.outputs.toDynamics s.outputs).map Prod.fst =
        d.schema.table.attributes.map Attribute.name := by
      simp [schema, table, Fields.names_append, Fields.names_output, Fields.keys_toDynamics_eq]
    unfold Fields.Keys
    rw [hk]
    exact ⟨d.names_table, fun _ => Iff.rfl⟩
  · have ho := Fields.describes_toDynamics d.deeply_outputs h
      (List.subset_append_right (d.ids.toDynamics s.ids ++ d.filters.toDynamics s.filters) _)
    refine Fields.describes_append (Fields.describes_output Role.assigned ho) ?_
    exact Fields.describes_append (Fields.describes_of_none _ d.role_filters) (Fields.describes_of_none _ d.role_ids)

theorem conforms_of_read {d : DataSource} {slot : Option Client} {config s : d.State} {answer : Http.Answer}
    {now : String} (h : (d.read slot config answer now).result = some s) : d.Conforms s := by
  obtain ⟨c, m, -, -, rfl⟩ := read_eq_some h
  exact conforms_of_clean (clean_ofReply now d config.ids config.filters m)

end DataSource

namespace Policy.Resource

theorem describes_identify (id : String) (m : Model) : (Kind.object schema.table).Describes
    (protectionPolicy.toDynamic (identify (.value id) (protectionPolicy.flatten m))) := by
  have hm : ("ProtectionPolicy", protectionPolicy) ∈ allEntities := List.mem_cons_self
  exact Fields.describes_toDynamic (wellNamed_entities _ hm)
    (Fields.clean_fallback Policy.id (protectionPolicy.clean_flatten _ m) rfl id)

theorem describes_of_import {slot : Option Client} {id : String} {answer : Http.Answer} {s : Managed}
    (h : (importId slot id answer).result = some s) :
    (Kind.object schema.table).Describes (protectionPolicy.toDynamic s.1) := by
  obtain ⟨c, m, given, -, -, he⟩ := (importId_cases slot answer id).resolve_left fun hn =>
    Option.some_ne_none s (h.symm.trans hn)
  rw [he] at h
  cases h
  rw [answered_flatten]
  exact describes_identify given m

theorem describes_of_read {c : Client} {id : String} {s : State} (hid : getId s = .value id) (hidden : Private)
    {answer : Http.Answer} {m : Model} (h : (c.arrived (.getPolicy id) answer).Holds (.getPolicy id) m) :
    ∃ t, (read (some c) s hidden answer).result = some t ∧
      (Kind.object schema.table).Describes (protectionPolicy.toDynamic t.1) := by
  obtain ⟨hr, -⟩ := (read_end c hidden answer hid).renews h
  exact ⟨_, hr, describes_identify id m⟩

end Policy.Resource

open Policy.Resource in
theorem states_described :
    (∀ e ∈ allEntities, ∀ m : e.2.Model, (Kind.object e.2).Describes (e.2.toDynamic (e.2.flatten m)) ∧
      (Kind.object e.2.output).Describes (e.2.toDynamic (e.2.flatten m))) ∧
    (∀ (d : DataSource) slot config answer now s, (d.read slot config answer now).result = some s → d.Conforms s) ∧
    (∀ slot id answer s, (importId slot id answer).result = some s →
      (Kind.object schema.table).Describes (Policy.protectionPolicy.toDynamic s.1)) ∧
    ∀ c id s hidden answer m, getId s = .value id → (c.arrived (.getPolicy id) answer).Holds (.getPolicy id) m →
      ∃ t, (read (some c) s hidden answer).result = some t ∧
        (Kind.object schema.table).Describes (Policy.protectionPolicy.toDynamic t.1) := by
  refine ⟨fun e he m => ?_, fun _ _ _ _ _ _ h => DataSource.conforms_of_read h, fun _ _ _ _ h => describes_of_import h,
    fun _ _ _ hidden _ _ hid h => describes_of_read hid hidden h⟩
  have hm := Fields.describes_toDynamic (wellNamed_entities e he) (e.2.clean_flatten _ m)
  exact ⟨hm, Kind.describes_output hm⟩

open Policy Policy.Resource in
theorem states_described_versioned :
    ("Retention", retention) ∈ allEntities ∧
      (Kind.object retention.output).Describes (retention.toDynamic (retention.flatten emptyRetention)) ∧
      ∃ s, (DataSource.policy.read (some localClient) ⟨(.value "q", ()), (), .unknown _⟩ (written (versioned "p" 3))
          "").result = some s ∧ DataSource.policy.Conforms s := by
  have he : ("Retention", retention) ∈ allEntities := by simp [allEntities, entities]
  have h : (DataSource.policy.read (some localClient) ⟨(.value "q", ()), (), .unknown _⟩ (written (versioned "p" 3))
      "").result.isSome = true := by
    decide +kernel
  obtain ⟨s, hs⟩ := Option.isSome_iff_exists.mp h
  exact ⟨he, (states_described.1 _ he emptyRetention).2, s, hs, states_described.2.1 _ _ _ _ _ s hs⟩

end ProtectionProvider
