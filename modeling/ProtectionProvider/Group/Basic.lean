import ProtectionProvider.Group.Run

/-! # Protection groups and reports -/

namespace ProtectionProvider.Group

open Attribute

def alertTarget : Fields := .ofList [
  text "email_address" .computed "Specifies an email address to receive an alert.",
  text "language" .computed "Specifies the language of the delivery target.",
  text "recipient_type" .computed "Specifies the recipient type of email recipient."]

def alertingPolicy : Fields := .ofList [
  texts "backup_run_status" .computed
    "Specifies the run status for which the user would like to receive alerts.",
  nestedList "alert_targets" .computed alertTarget
    "Specifies a list of targets to receive the alerts.",
  flag "raise_object_level_failure_alert" .computed
    "Specifies whether object level alerts are raised for backup failures after the backup run.",
  flag "raise_object_level_failure_alert_after_last_attempt" .computed
    "Specifies whether object level alerts are raised for backup failures after last backup attempt.",
  flag "raise_object_level_failure_alert_after_each_attempt" .computed
    "Specifies whether object level alerts are raised for backup failures after each backup attempt."]

def slaRule : Fields := .ofList [
  text "backup_run_type" .computed "Specifies the type of run this rule should apply to.",
  number "sla_minutes" .computed
    "Specifies the number of minutes allotted to a run of the specified type before SLA is considered violated."]

def missingEntity : Fields := .ofList [
  number "id" .computed "Specifies the ID of the object.",
  text "name" .computed "Specifies the name of the object.",
  number "parent_source_id" .computed "Specifies the id of the parent source of the object.",
  text "parent_source_name" .computed "Specifies the name of the parent source of the object."]

def keyValuePair : Fields := .ofList [
  text "key" .computed "Key name.",
  text "value" .computed "Value."]

def protectionGroup : Fields := .ofList [
  text "id" .computed "Specifies the ID of the Protection Group.",
  text "name" .computed "Specifies the name of the Protection Group.",
  text "cluster_id" .computed "Specifies the cluster ID.",
  text "region_id" .computed "Specifies the region ID.",
  text "policy_id" .computed
    "Specifies the unique id of the Protection Policy associated with the Protection Group.",
  text "priority" .computed "Specifies the priority of the Protection Group.",
  number "storage_domain_id" .computed "Specifies the Storage Domain (View Box) ID.",
  text "description" .computed "Specifies a description of the Protection Group.",
  nested "start_time" .computed Policy.timeOfDay "Specifies the time of day to start the backup.",
  number "end_time_usecs" .computed
    "Specifies the end time in micro seconds for this Protection Group.",
  number "last_modified_timestamp_usecs" .computed
    "Specifies the last time this protection group was updated.",
  nested "alert_policy" .computed alertingPolicy
    "Specifies a policy for alerting users of the status of a Protection Group.",
  nestedList "sla" .computed slaRule "Specifies the SLA parameters for this Protection Group.",
  text "qos_policy" .computed
    "Specifies whether the Protection Group will be written to HDD or SSD.",
  flag "abort_in_blackouts" .computed
    "Specifies whether currently executing jobs should abort if a blackout period starts.",
  flag "pause_in_blackouts" .computed
    "Specifies whether currently executing jobs should be paused if a blackout period starts.",
  flag "is_active" .computed "Specifies if the Protection Group is active or not.",
  flag "is_deleted" .computed "Specifies if the Protection Group has been deleted.",
  flag "is_paused" .computed "Specifies if the Protection Group is paused.",
  text "environment" .computed "Specifies the environment of the Protection Group.",
  nested "last_run" .computed protectionGroupRun "Specifies the last run of the Protection Group.",
  nestedList "permissions" .computed tenant
    "Specifies the list of tenants that have permissions for this protection group.",
  flag "is_protect_once" .computed "Specifies if the protection group is of type 'Protect Once'.",
  nestedList "missing_entities" .computed missingEntity
    "Specifies the Information about missing entities.",
  nestedList "invalid_entities" .computed missingEntity
    "Specifies the Information about invalid entities.",
  number "num_protected_objects" .computed
    "Specifies the number of protected objects of the Protection Group.",
  nestedList "advanced_configs" .computed keyValuePair
    "Specifies the advanced configuration for a protection job."]

def listed : Fields := .ofList [
  nestedList "protection_groups" .computed protectionGroup
    "Specifies the list of Protection Groups which were returned by the request."]

def id : Place protectionGroup .string := .here

example : id.entry.name = "id" := rfl

def entities : List (String × Fields) := [
  ("ProtectionGroup", protectionGroup),
  ("AlertingPolicy", alertingPolicy),
  ("AlertTarget", alertTarget),
  ("SlaRule", slaRule),
  ("Tenant", tenant),
  ("MissingEntity", missingEntity),
  ("KeyValuePair", keyValuePair),
  ("ProtectionGroupRun", protectionGroupRun),
  ("ClusterIdentifier", clusterIdentifier),
  ("ObjectRunResult", objectRunResult),
  ("ObjectSummary", objectSummary),
  ("BackupRun", backupRun),
  ("SnapshotInfo", snapshotInfo),
  ("BackupAttempt", backupAttempt),
  ("BackupDataStats", backupDataStats),
  ("DataLockConstraints", dataLockConstraints),
  ("ReplicationRun", replicationRun),
  ("ReplicationTargetResult", replicationTargetResult),
  ("ReplicationDataStats", replicationDataStats),
  ("ArchivalRun", archivalRun),
  ("ArchivalTargetResult", archivalTargetResult),
  ("ArchivalTargetTierInfo", archivalTargetTierInfo),
  ("ArchivalDataStats", archivalDataStats),
  ("WormProperties", wormProperties),
  ("CloudSpinRun", cloudSpinRun),
  ("CloudSpinTargetResult", cloudSpinTargetResult),
  ("CloudSpinDataStats", cloudSpinDataStats),
  ("BackupRunSummary", backupRunSummary)]

end ProtectionProvider.Group

namespace ProtectionProvider.Reporting

open Attribute

def report : Fields := .ofList [
  text "id" .computed "Specifies the id of the report.",
  text "title" .computed "Specifies the title of the report.",
  text "category" .computed "Specifies the category of the report.",
  texts "component_ids" .computed "Specifies the list of component ids in the report.",
  text "description" .computed "Specifies the description of the report.",
  texts "supported_user_contexts" .computed
    "Specifies all the supported user contexts for this report."]

def listed : Fields := .ofList [
  nestedList "reports" .computed report "Specifies the list of reports."]

def entities : List (String × Fields) := [("Report", report)]

end ProtectionProvider.Reporting
