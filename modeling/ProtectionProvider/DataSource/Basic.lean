import ProtectionProvider.Entity.Dynamic
import ProtectionProvider.Filter
import ProtectionProvider.Group.Basic
import ProtectionProvider.Policy.Basic

/-! # Data sources

What can be read, each with the identifiers it asks for, the filters it takes and the attributes it
gives.
-/

namespace ProtectionProvider

inductive DataSource where
  | policies | policy | groups | group | runs | run | reports
  deriving DecidableEq, Repr

namespace DataSource

open Attribute

def all : List DataSource := [.policies, .policy, .groups, .group, .runs, .run, .reports]

def name : DataSource → String
  | .policies => "protection_policies"
  | .policy => "protection_policy"
  | .groups => "protection_groups"
  | .group => "protection_group"
  | .runs => "protection_group_runs"
  | .run => "protection_group_run"
  | .reports => "reports"

def ofName? (name : String) : Option DataSource := all.find? fun d => d.name == name

def description : DataSource → String
  | .policies => "List of protection policies"
  | .policy => "Protection policy"
  | .groups => "List of protection groups"
  | .group => "Protection group"
  | .runs => "Runs of a protection group"
  | .run => "Run of a protection group"
  | .reports => "List of reports"

def ids : DataSource → Fields
  | .policies | .groups | .reports => .nil
  | .policy => .ofList [
    text "protection_policy_id" .required "Specifies a unique id of the protection policy."]
  | .group | .runs => .ofList [
    text "protection_group_id" .required "Specifies a unique id of the Protection Group."]
  | .run => .ofList [
    text "protection_group_run_id" .required "Specifies a unique id of the Protection Group.",
    text "run_id" .required "Specifies a unique run id of the Protection Group run."]

def filters : DataSource → Fields
  | .policies => Filter.policies
  | .policy => .nil
  | .groups => Filter.groups
  | .group => Filter.group
  | .runs => Filter.runs
  | .run => Filter.run
  | .reports => Filter.reports

def answer : DataSource → Fields
  | .policies => Policy.listed
  | .policy => Policy.protectionPolicy
  | .groups => Group.listed
  | .group => Group.protectionGroup
  | .runs => Group.listedRuns
  | .run => Group.protectionGroupRun
  | .reports => Reporting.listed

/-- A list has no identifier of its own and takes the time at which it is read. -/
def timestamp : Attribute × Kind := text "id" .computed "Timestamp of the read"

def isList : DataSource → Bool
  | .policies | .groups | .runs | .reports => true
  | .policy | .group | .run => false

def outputs (d : DataSource) : Fields :=
  match d.isList with
  | true => .cons timestamp.1 timestamp.2 d.answer
  | false => d.answer

def table (d : DataSource) : Fields := d.ids ++ d.filters ++ d.outputs.output

def schema (d : DataSource) : Schema := { description := d.description, table := d.table }

structure State (d : DataSource) where
  ids : d.ids.State
  filters : d.filters.State
  outputs : d.outputs.State

namespace State

variable {d : DataSource}

def toDynamic (s : d.State) : Dynamic :=
  .object (d.ids.toDynamics s.ids ++ d.filters.toDynamics s.filters ++
    d.outputs.toDynamics s.outputs)

def ofDynamic? (d : DataSource) (v : Dynamic) : Option d.State := do
  let l ← v.object?
  return ⟨← d.ids.ofDynamics? l, ← d.filters.ofDynamics? l, ← d.outputs.ofDynamics? l⟩

end State

end DataSource

end ProtectionProvider
