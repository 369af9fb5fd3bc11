import ProtectionProvider.Entity.State
import ProtectionProvider.Text.Basic

/-! # Filters

What a reading may be narrowed by, and the query parameters that say so. A filter is sent exactly
when it is set, an explicit `false` or `0` too, and an empty list is not sent.
-/

namespace ProtectionProvider

namespace Filter

open Attribute

def initiator : Attribute × Kind :=
  text "request_initiator_type" .optional
    "Specifies the type of request from UI (UIUser, UIAuto or Helios)."

def policies : Fields := .ofList [
  initiator,
  texts "ids" .optional "Filter policies by a list of policy ids.",
  texts "policy_names" .optional "Filter policies by a list of policy names.",
  texts "types" .optional "Filter policies by policy type (Regular, Internal).",
  texts "tenant_ids" .optional
    "Return the policies of these tenants and of the tenants they include.",
  flag "include_tenants" .optional
    "Return the policies of all the organizations under the hierarchy of the logged in user.",
  flag "exclude_linked_policies" .optional
    "Only return local policies, excluding policies linked to templates.",
  flag "include_replicated_policies" .optional "Also return replicated policies.",
  flag "include_stats" .optional
    "Return the number of protection groups and objects of each policy."]

def groups : Fields := .ofList [
  initiator,
  texts "ids" .optional "Filter by a list of protection group ids.",
  texts "names" .optional "Filter by a list of protection group names.",
  texts "policy_ids" .optional "Filter by the policies used by the groups.",
  number "storage_domain_id" .optional "Filter by Storage Domain id.",
  flag "include_groups_with_datalock_only" .optional
    "Only return the groups whose policy has a data lock.",
  texts "environments" .optional "Filter by environment types such as kVMware.",
  flag "is_active" .optional "Filter by active or inactive groups.",
  flag "is_deleted" .optional "Filter by deleted or not deleted groups.",
  flag "is_paused" .optional "Filter by paused or non paused groups.",
  texts "last_run_local_backup_status" .optional
    "Filter by the local backup status of the last run.",
  texts "last_run_replication_status" .optional "Filter by the replication status of the last run.",
  texts "last_run_archival_status" .optional "Filter by the archival status of the last run.",
  texts "last_run_cloud_spin_status" .optional "Filter by the cloud spin status of the last run.",
  texts "last_run_any_status" .optional "Filter by any of the statuses of the last run.",
  flag "is_last_run_sla_violated" .optional "Filter by whether the last run violated its SLA.",
  texts "tenant_ids" .optional
    "Return the groups of these tenants and of the tenants they include.",
  flag "include_tenants" .optional
    "Return the groups of all the organizations under the hierarchy of the logged in user.",
  flag "include_last_run_info" .optional "Return the last run of each group.",
  flag "prune_excluded_source_ids" .optional "Omit the excluded source ids from the response.",
  flag "prune_source_ids" .optional "Omit the source ids from the response.",
  flag "use_cached_data" .optional "Answer from the cached data of the cluster."]

def group : Fields := .ofList [
  initiator,
  flag "include_last_run_info" .optional "Return the last run of the group.",
  flag "prune_excluded_source_ids" .optional "Omit the excluded source ids from the response.",
  flag "prune_source_ids" .optional "Omit the source ids from the response."]

def runs : Fields := .ofList [
  initiator,
  text "run_id" .optional "Specifies the protection run id.",
  number "start_time_usecs" .optional "Start time for time range filter, in Unix epoch (usecs).",
  number "end_time_usecs" .optional "End time for time range filter, in Unix epoch (usecs).",
  texts "tenant_ids" .optional "Return the runs of these tenants and of the tenants they include.",
  flag "include_tenants" .optional
    "Return the runs of all the organizations under the hierarchy of the logged in user.",
  texts "run_types" .optional "Filter by run type such as kFull or kRegular.",
  flag "include_object_details" .optional
    "Return the details of the objects protected by each run.",
  texts "local_backup_run_status" .optional "Filter by the local backup status.",
  texts "replication_run_status" .optional "Filter by the replication status.",
  texts "archival_run_status" .optional "Filter by the archival status.",
  texts "cloud_spin_run_status" .optional "Filter by the cloud spin status.",
  number "num_runs" .optional "Specifies the max number of runs.",
  flag "exclude_non_restorable_runs" .optional "Exclude the runs which have no successful object.",
  texts "run_tags" .optional "Filter by the tags of the runs.",
  flag "use_cached_data" .optional "Answer from the cached data of the cluster.",
  flag "filter_by_end_time" .optional "Apply the time range filter on the end time of the runs.",
  texts "snapshot_target_types" .optional
    "Filter by the snapshot target types such as Local or Archival.",
  flag "only_return_successful_copy_run" .optional "Only return the copy runs which succeeded.",
  flag "filter_by_copy_task_end_time" .optional
    "Apply the time range filter on the end time of the copy tasks."]

def run : Fields := .ofList [
  initiator,
  texts "tenant_ids" .optional "Return the run of these tenants and of the tenants they include.",
  flag "include_tenants" .optional
    "Return the run of all the organizations under the hierarchy of the logged in user.",
  flag "include_object_details" .optional "Return the details of the objects protected by the run.",
  flag "use_cached_data" .optional "Answer from the cached data of the cluster."]

def reports : Fields := .ofList [
  texts "ids" .optional "Filter by a list of report ids."]

/-! ## Places in the filters of runs -/

def startTime : Place runs .number := .there (.there .here)

def endTime : Place runs .number := .there (.there (.there .here))

example : startTime.entry.name = "start_time_usecs" ∧ endTime.entry.name = "end_time_usecs" :=
  ⟨rfl, rfl⟩

end Filter

/-! ## Query parameters -/

def Kind.query? : (k : Kind) → k.Model → Option String
  | .string, s => some s
  | .number, n => some (.ofList (Text.decimal n.toInt))
  | .bool, (b : Bool) => some (if b then "true" else "false")
  | .strings, l => some (",".intercalate l)
  | .object _, _ | .objects _, _ => none

def Fields.query : (fs : Fields) → fs.Model → List (String × String)
  | .nil, () => []
  | .cons a k fs, (v, m) =>
    ((v.bind k.query?).map fun s => (a.member, s)).toList ++ fs.query m

/-! ## Filters of a configuration -/

/-- An empty list filters nothing. -/
def Kind.filter? : (k : Kind) → k.Model → Option k.Model
  | .strings, [] => none
  | _, m => some m

def Fields.filters : (fs : Fields) → fs.State → fs.Model
  | .nil, () => ()
  | .cons _ k fs, (v, s) => (v.toOption.bind fun x => k.filter? (k.expand x), fs.filters s)

end ProtectionProvider
