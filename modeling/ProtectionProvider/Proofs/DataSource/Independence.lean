import ProtectionProvider.Proofs.DataSource.Agreement

/-!
# What a read depends on

A read keeps the attributes that the user sets and makes all others anew, from the answer and the
identifiers that were asked for (`read_independent`). What was there before it has no part in it.
-/

namespace ProtectionProvider.DataSource

/-! ## Inputs -/

theorem assigned_output : ∀ (fs : Fields), ∀ a ∈ fs.output.attributes, a.role.assigned = true
  | .nil, _, h => by cases h
  | .cons a _ fs, b, h => by
    rcases List.mem_cons.mp h with rfl | h
    · rfl
    · exact assigned_output fs b h

/-- The user sets the identifiers and the filters, and nothing else. -/
theorem inputs_table (d : DataSource) :
    (d.table.attributes.filter fun a => !a.role.assigned) = (d.ids ++ d.filters).attributes := by
  have hi : ∀ a ∈ (d.ids ++ d.filters).attributes, (!a.role.assigned) = true := by
    intro a ha
    simp only [Fields.attributes, Fields.toList_append, List.map_append, List.mem_append] at ha
    rcases ha with ha | ha
    · simp [d.role_ids a ha]
    · simp [d.role_filters a ha]
  have ho : ∀ a ∈ d.outputs.output.attributes, ¬ (!a.role.assigned) = true := by
    intro a ha
    simp [assigned_output _ a ha]
  have ht : d.table.attributes = (d.ids ++ d.filters).attributes ++ d.outputs.output.attributes := by
    simp [table, Fields.attributes]
  rw [ht, List.filter_append, List.filter_eq_self.mpr hi, List.filter_eq_nil_iff.mpr ho, List.append_nil]

/-! ## Outputs -/

def asked : (ids : Fields) → ids.State → List String
  | .nil, () => []
  | .cons _ .string fs, (v, s) => Value.text v :: asked fs s
  | .cons _ _ fs, (_, s) => asked fs s

/-- What is shown of the entity, or of the list, that was asked for by the identifiers. -/
def shown : (d : DataSource) → List String → d.answer.Model → d.answer.State
  | .policy, [id], m => Policy.Resource.identify (.value id) (Policy.protectionPolicy.flatten m)
  | .group, [id], m => Fields.State.set Group.id (.value id) (Group.protectionGroup.flatten m)
  | .run, [_, id], m =>
    let s := Group.protectionGroupRun.flatten m
    Fields.State.set Group.runId ((Fields.State.get Group.runId s).orIfNull (.value id)) s
  | d, _, m => d.answer.flatten m

variable {d : DataSource} {slot : Option Client} {config s : d.State} {answer : Http.Answer} {now : String}

theorem content_of_read (h : (d.read slot config answer now).result = some s) :
    (answer.json?.bind d.answer.decode).map (d.shown (asked d.ids config.ids)) = some s.content := by
  obtain ⟨c, m, -, hr, rfl⟩ := read_eq_some h
  obtain ⟨text, hj, hm⟩ := (Client.holds_of_result hr).2.exists_text
  rw [decodeReply?_call] at hm
  rw [hj]
  cases d <;> exact (congrArg (Option.map _) hm).trans rfl

theorem ends_of_read : (∃ s, (d.read slot config answer now).result = some s ∧ (d.read slot config answer now).errors = []) ∨
    ∃ e, (d.read slot config answer now).result = none ∧ (d.read slot config answer now).errors = [e] := by
  cases slot with
  | none => exact .inr ⟨_, rfl, rfl⟩
  | some c =>
    cases hr : c.result (d.call config.ids config.filters) answer with
    | error e =>
      rw [read_of_error hr]
      exact .inr ⟨_, rfl, rfl⟩
    | ok m =>
      rw [read_of_ok hr]
      exact .inl ⟨_, rfl, rfl⟩

/-! ## Reads -/

/-- What was in the configuration for the computed attributes has no part in a read. -/
structure Independent (d : DataSource) : Prop where
  inputs : (d.schema.table.attributes.filter fun a => !a.role.assigned) = (d.ids ++ d.filters).attributes
  keeps : ∀ slot config answer now s, (d.read slot config answer now).result = some s →
    s.ids = config.ids ∧ s.filters = config.filters
  shows : ∀ slot config answer now s, (d.read slot config answer now).result = some s →
    (answer.json?.bind d.answer.decode).map (d.shown (asked d.ids config.ids)) = some s.content
  forgets : ∀ slot config config' answer now, config.ids = config'.ids → config.filters = config'.filters →
    d.read slot config answer now = d.read slot config' answer now
  ends : ∀ slot config answer now,
    (∃ s, (d.read slot config answer now).result = some s ∧ (d.read slot config answer now).errors = []) ∨
      ∃ e, (d.read slot config answer now).result = none ∧ (d.read slot config answer now).errors = [e]

theorem read_independent (d : DataSource) : d.Independent where
  inputs := d.inputs_table
  keeps _ _ _ _ _ h := by
    obtain ⟨c, m, -, -, rfl⟩ := read_eq_some h
    exact ⟨rfl, rfl⟩
  shows _ _ _ _ _ h := content_of_read h
  forgets slot config config' answer now hi hf := by
    obtain ⟨ids, filters, outputs⟩ := config
    obtain ⟨ids', filters', outputs'⟩ := config'
    cases hi
    cases hf
    rfl
  ends _ _ _ _ := ends_of_read

/-! ## A run that is read again -/

def readBefore : DataSource.run.State where
  ids := (.value "g", .value "1:2", ())
  filters := (.unknown, .value [.value "a", .null, .unknown], .null, .value false, .value true, ())
  outputs := Group.protectionGroupRun.flatten Group.someRun

def silentRun : DataSource.run.answer.Model := Group.protectionGroupRun.expand (.unknown _)

theorem json?_replied (d : DataSource) (m : d.answer.Model) :
    (replied (d.answer.encode m)).json?.bind d.answer.decode = some m := by
  have hj : (replied (d.answer.encode m)).json? = some (d.answer.encode m) :=
    Http.Answer.json?_printed (d.answer.printable_encode m)
  rw [hj]
  exact decode_answer d m

open Policy.Resource (localClient) in
theorem read_independent_silent :
    ∃ s, (DataSource.run.read (some localClient) readBefore (replied (DataSource.run.answer.encode silentRun))
        "").result = some s ∧
      (s.ids = readBefore.ids ∧ s.filters = readBefore.filters) ∧ s.content = DataSource.run.shown ["g", "1:2"] silentRun := by
  have h : (DataSource.run.read (some localClient) readBefore (replied (DataSource.run.answer.encode silentRun))
      "").result.isSome = true := by
    decide +kernel
  obtain ⟨s, hs⟩ := Option.isSome_iff_exists.mp h
  have hc := (read_independent .run).shows _ _ _ _ s hs
  rw [json?_replied] at hc
  exact ⟨s, hs, (read_independent .run).keeps _ _ _ _ s hs, (Option.some.inj hc).symm⟩

end ProtectionProvider.DataSource
