import ProtectionProvider.Proofs.Client.Query
import ProtectionProvider.Proofs.DataSource.Conformance
import ProtectionProvider.Proofs.Entity.NormalForm
import ProtectionProvider.Proofs.Filter.Parameters

/-!
# What a read asks for

A read asks for what its configuration sets and for nothing else (`read_filters`). What is null, not known
yet, or a list without an element that is known, is left out.
-/

namespace ProtectionProvider

/-! ## Parameters of attributes -/

namespace Dynamic

/-- The text under which an attribute is sent, if it is. -/
def parameter? : Dynamic → Option String
  | string s => some s
  | int n => some (toString n)
  | bool b => some (toString b)
  | list items =>
    match items.filterMap string? with
    | [] => none
    | known => some (",".intercalate known)
  | null | unknown | decimal _ | object _ => none

def parameters (l : List (String × Dynamic)) : List (String × String) :=
  l.filterMap fun p => p.2.parameter?.map fun text => (Text.camelCase p.1, text)

theorem parameters_cons (name : String) (d : Dynamic) (l : List (String × Dynamic)) :
    parameters ((name, d) :: l) = (d.parameter?.map fun text => (Text.camelCase name, text)).toList ++ parameters l := by
  rw [parameters, List.filterMap_cons]
  cases d.parameter? <;> rfl

theorem filterMap_string?_ofValue (l : List (Value String)) :
    (l.map (ofValue string)).filterMap string? = l.filterMap Value.toOption := by
  rw [List.filterMap_map]
  apply List.filterMap_congr
  intro v _
  cases v <;> rfl

end Dynamic

theorem Kind.query?_filter? : ∀ (k : Kind) (s : k.State),
    (k.filter? (k.expand s)).bind k.query? = (k.toDynamic s).parameter?
  | .string, _ => rfl
  | .number, (n : Int64) => congrArg some (Text.ofList_decimal n.toInt)
  | .bool, (b : Bool) => by cases b <;> rfl
  | .strings, (l : List (Value String)) => by
    show (Kind.filter? .strings (l.filterMap Value.toOption)).bind Kind.strings.query? =
      Dynamic.parameter? (.list (l.map (.ofValue .string)))
    rw [Dynamic.parameter?, Dynamic.filterMap_string?_ofValue]
    cases l.filterMap Value.toOption <;> rfl
  | .object _, _ => rfl
  | .objects fs, (l : List fs.State) => by
    have hn : (l.map fun s => Dynamic.object (fs.toDynamics s)).filterMap Dynamic.string? = [] := by
      simp [Dynamic.string?]
    show none = Dynamic.parameter? (.list (l.map fun s => .object (fs.toDynamics s)))
    rw [Dynamic.parameter?, hn]

theorem Fields.query_filters : ∀ {fs : Fields}, (fs.names = fs.attributes.map fun a => Text.camelCase a.name) →
    ∀ s : fs.State, fs.query (fs.filters s) = Dynamic.parameters (fs.toDynamics s)
  | .nil, _, () => rfl
  | .cons a k fs, h, (v, s) => by
    obtain ⟨ha, h⟩ : a.member = Text.camelCase a.name ∧ _ := List.cons.inj h
    have hv : (v.toOption.bind fun x => k.filter? (k.expand x)).bind k.query? =
        (Dynamic.ofValue k.toDynamic v).parameter? := by
      cases v with
      | null => rfl
      | unknown => rfl
      | value x => exact k.query?_filter? x
    rw [filters, query, toDynamics, Dynamic.parameters_cons, hv, ha, query_filters h s]

/-! ## What makes no difference -/

theorem Kind.expand_cleaned (k : Kind) (s : k.State) : k.expand (k.cleaned s) = k.expand s := by
  rw [← flatten_expand_eq, expand_flatten]

theorem Fields.filters_cleaned : ∀ (fs : Fields) (s : fs.State), fs.filters (fs.cleaned s) = fs.filters s
  | .nil, _ => rfl
  | .cons _ k fs, (v, s) => by
    refine Prod.ext ?_ (filters_cleaned fs s)
    cases v with
    | null => rfl
    | unknown => rfl
    | value x => exact congrArg k.filter? (k.expand_cleaned x)

theorem Value.text_cleaned (v : Value String) : (v.cleaned Kind.string.cleaned).text = v.text := by
  cases v <;> rfl

namespace DataSource

variable (d : DataSource)

theorem query_call (ids : d.ids.State) (s : d.filters.State) :
    (d.call ids s).query = d.filters.query (d.filters.filters s) := by
  cases d <;> rfl

theorem call_cleaned (ids : d.ids.State) (s : d.filters.State) :
    d.call (d.ids.cleaned ids) (d.filters.cleaned s) = d.call ids s := by
  have hf := d.filters.filters_cleaned s
  cases d with
  | policies => exact congrArg Call.listPolicies hf
  | policy => exact congrArg Call.getPolicy (Value.text_cleaned ids.1)
  | groups => exact congrArg Call.listGroups hf
  | group => exact congrArg₂ Call.getGroup (Value.text_cleaned ids.1) hf
  | runs => exact congrArg₂ Call.listRuns (Value.text_cleaned ids.1) hf
  | run =>
    have h := congr (congrArg₂ Call.getRun (Value.text_cleaned ids.1) (Value.text_cleaned ids.2.1)) hf
    exact h
  | reports => exact congrArg Call.listReports hf

/-! ## Reads -/

/-- A filter is sent exactly when it is set. -/
structure SendsFilters (d : DataSource) : Prop where
  pairs : ∀ config : d.State,
    (d.call config.ids config.filters).query = Dynamic.parameters (d.filters.toDynamics config.filters)
  ordered : ∀ config : d.State, ((d.call config.ids config.filters).query.map Prod.fst).Sublist
    (d.filters.attributes.map fun a => Text.camelCase a.name)
  once : ∀ config : d.State, ((d.call config.ids config.filters).query.map Prod.fst).Nodup
  sent : ∀ c config answer now, (d.read (some c) config answer now).requests =
    if c.Sends (d.call config.ids config.filters) then [c.request (d.call config.ids config.filters)] else []
  /-- What is read off a request is what the endpoint says and what the filters are set to. -/
  spelled : ∀ s c, Client.build s = .ok c → ∀ config : d.State,
    Text.Form.read (Url.queryOf (c.request (d.call config.ids config.filters)).url.toString) =
      c.base.parameters ++ Dynamic.parameters (d.filters.toDynamics config.filters)
  same : ∀ slot (config config' : d.State) answer now, d.ids.cleaned config.ids = d.ids.cleaned config'.ids →
    d.filters.cleaned config.filters = d.filters.cleaned config'.filters →
      (d.read slot config answer now).requests = (d.read slot config' answer now).requests

theorem parameters_call (ids : d.ids.State) (s : d.filters.State) :
    (d.call ids s).query = Dynamic.parameters (d.filters.toDynamics s) :=
  (d.query_call ids s).trans (Fields.query_filters d.names_filters s)

theorem keys_call_sublist (ids : d.ids.State) (s : d.filters.State) :
    ((d.call ids s).query.map Prod.fst).Sublist d.filters.names := by
  rw [query_call]
  exact d.filters.keys_query_sublist _

theorem read_filters : d.SendsFilters where
  pairs config := d.parameters_call config.ids config.filters
  ordered config := by
    rw [← names_filters]
    exact d.keys_call_sublist config.ids config.filters
  once config := (d.keys_call_sublist config.ids config.filters).nodup d.nodup_filters
  sent c config answer now := by
    rw [requests_read]
    by_cases h : c.Sends (d.call config.ids config.filters)
    · rw [if_pos h, Client.issued_of_sends h]
    · rw [if_neg h, Client.issued_of_not_sends h]
  spelled s c h config := by
    rw [Client.read_request (Client.tidy_base h), parameters_call]
  same slot config config' answer now hi hf := by
    have hc : d.call config.ids config.filters = d.call config'.ids config'.filters := by
      rw [← call_cleaned, hi, hf, call_cleaned]
    cases slot with
    | none => rfl
    | some c => rw [requests_read, requests_read, hc]

example : (DataSource.run.call (.value "g", .value "1:2", ()) (.null, .value [.null, .value "", .unknown, .value "b"],
    .value false, .unknown, .value true, ())).query =
      [("tenantIds", ",b"), ("includeTenants", "false"), ("useCachedData", "true")] := by decide +kernel

/-- Unless a comma stands in an element of a list, the filters are read off the request. -/
theorem filters_of_request {s : Settings} {c : Client} (hc : Client.build s = .ok c) {config : d.State}
    (h : d.filters.Separable (d.filters.filters config.filters)) :
    d.filters.ofQuery ((Text.Form.read (Url.queryOf (c.request (d.call config.ids config.filters)).url.toString)).drop
      c.base.parameters.length) = d.filters.filters config.filters := by
  rw [Client.read_request (Client.tidy_base hc), List.drop_left, query_call]
  exact Fields.ofQuery_query d.nodup_filters d.flat_filters h

end DataSource

end ProtectionProvider
