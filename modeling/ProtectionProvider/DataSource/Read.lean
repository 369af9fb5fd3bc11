import ProtectionProvider.DataSource.Basic
import ProtectionProvider.Diagnostic

/-! # Reading data sources -/

namespace ProtectionProvider.DataSource

/-! ## Validation -/

def missingIds : (ids : Fields) → ids.State → List Diagnostic
  | .nil, () => []
  | .cons a .string fs, (v, s) => Diagnostic.missing a.name v ++ missingIds fs s
  | .cons _ _ fs, (_, s) => missingIds fs s

def rangeErrors (s : Filter.runs.State) : List Diagnostic :=
  match Fields.State.get Filter.startTime s, Fields.State.get Filter.endTime s with
  | .value (start : Int64), .value (stop : Int64) =>
    if stop < start then [.startAfterEnd] else []
  | _, _ => []

def filterErrors : (d : DataSource) → d.filters.State → List Diagnostic
  | .runs, s => rangeErrors s
  | _, _ => []

def validate (d : DataSource) (config : d.State) : Outcome Unit :=
  .check (missingIds d.ids config.ids ++ filterErrors d config.filters)

/-! ## Reading -/

/-- The call that reads a data source; an identifier that is absent is sent empty. -/
def call : (d : DataSource) → d.ids.State → d.filters.State → Call
  | .policies, (), s => .listPolicies (Filter.policies.filters s)
  | .policy, (id, ()), () => .getPolicy id.text
  | .groups, (), s => .listGroups (Filter.groups.filters s)
  | .group, (id, ()), s => .getGroup id.text (Filter.group.filters s)
  | .runs, (id, ()), s => .listRuns id.text (Filter.runs.filters s)
  | .run, (id, runId, ()), s => .getRun id.text runId.text (Filter.run.filters s)
  | .reports, (), s => .listReports (Filter.reports.filters s)

/-- The attributes that an answer gives. A policy and a run keep their own identifier where the
answer has one, and a group takes the one that was asked for. -/
def ofReply (now : String) : (d : DataSource) → (ids : d.ids.State) → (s : d.filters.State) →
    (call d ids s).reply.Model → d.outputs.State
  | .policies, (), _, m => (.value now, Policy.listed.flatten m)
  | .policy, (id, ()), (), m =>
    let s := Policy.protectionPolicy.flatten m
    Fields.State.set Policy.id ((Fields.State.get Policy.id s).orIfNull (.value id.text)) s
  | .groups, (), _, m => (.value now, Group.listed.flatten m)
  | .group, (id, ()), _, m =>
    Fields.State.set Group.id (.value id.text) (Group.protectionGroup.flatten m)
  | .runs, (_, ()), _, m => (.value now, Group.listedRuns.flatten m)
  | .run, (_, runId, ()), _, m =>
    let s := Group.protectionGroupRun.flatten m
    Fields.State.set Group.runId ((Fields.State.get Group.runId s).orIfNull (.value runId.text)) s
  | .reports, (), _, m => (.value now, Reporting.listed.flatten m)

def read (d : DataSource) (slot : Option Client) (config : d.State) (answer : Http.Answer)
    (now : String) : Outcome d.State :=
  let c := call d config.ids config.filters
  .call slot c answer fun
    | .ok m => .ok { config with outputs := ofReply now d config.ids config.filters m }
    | .error e => .fail (.callFailed c.operation e)

end ProtectionProvider.DataSource
