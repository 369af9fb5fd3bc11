import ProtectionProvider.Policy.Target

/-! # Runs of protection groups

What a run did for each object and each target. All of it is set by the server.
-/

namespace ProtectionProvider.Group

open Attribute

def tenant : Fields := .ofList [
  text "id" .computed "The tenant id.",
  text "name" .computed "Name of the tenant."]

def clusterIdentifier : Fields := .ofList [
  number "cluster_id" .computed "Specifies the id of the cluster.",
  number "cluster_incarnation_id" .computed "Specifies the incarnation id of the cluster.",
  text "cluster_name" .computed "Specifies the name of the cluster."]

def dataLockConstraints : Fields := .ofList [
  text "mode" .computed "Specifies the type of WORM retention type.",
  number "expiry_time_usecs" .computed
    "Specifies the expiry time of the attempt in Unix epoch (usecs)."]

def backupDataStats : Fields := .ofList [
  number "logical_size_bytes" .computed "Specifies the total logical size of the object in bytes.",
  number "bytes_written" .computed
    "Specifies the total size of the data written to the storage domain in bytes.",
  number "bytes_read" .computed "Specifies the total logical bytes read for creating the snapshot."]

def backupAttempt : Fields := .ofList [
  number "start_time_usecs" .computed
    "Specifies the start time of the attempt in Unix epoch (usecs).",
  number "end_time_usecs" .computed "Specifies the end time of the attempt in Unix epoch (usecs).",
  number "admitted_time_usecs" .computed
    "Specifies the time at which the backup task was admitted.",
  number "permit_grant_time_usecs" .computed
    "Specifies the time when the gatekeeper permit is granted.",
  number "queue_duration_usecs" .computed
    "Specifies the duration between startTime and when the permit was granted.",
  number "snapshot_creation_time_usecs" .computed
    "Specifies the time at which the source snapshot was taken.",
  text "status" .computed "Status of the attempt.",
  nested "stats" .computed backupDataStats "Specifies statistics about the data.",
  text "progress_task_id" .computed "Progress monitor task of the attempt.",
  text "message" .computed "A message about the error if encountered while performing backup."]

def snapshotInfo : Fields := .ofList [
  text "snapshot_id" .computed "Snapshot id for a successful snapshot.",
  text "status" .computed "Status of snapshot.",
  text "status_message" .computed "A message describing the status.",
  number "start_time_usecs" .computed
    "Specifies the start time of the attempt in Unix epoch (usecs).",
  number "end_time_usecs" .computed "Specifies the end time of the attempt in Unix epoch (usecs).",
  number "admitted_time_usecs" .computed
    "Specifies the time at which the backup task was admitted.",
  number "permit_grant_time_usecs" .computed
    "Specifies the time when the gatekeeper permit is granted.",
  number "queue_duration_usecs" .computed
    "Specifies the duration between startTime and when the permit was granted.",
  number "snapshot_creation_time_usecs" .computed
    "Specifies the time at which the source snapshot was taken.",
  nested "stats" .computed backupDataStats "Specifies statistics about the data.",
  text "progress_task_id" .computed "Progress monitor task for backup of the object.",
  text "indexing_task_id" .computed "Progress monitor task for the indexing of documents.",
  text "stats_task_id" .computed "Stats task for backup of the object.",
  texts "warnings" .computed "Specifies a list of warnings that occurred during the run.",
  flag "is_manually_deleted" .computed "Specifies whether the snapshot is deleted manually.",
  number "expiry_time_usecs" .computed
    "Specifies the expiry time of attempt in Unix epoch (usecs).",
  number "total_file_count" .computed "The total number of files and folders in the snapshot.",
  number "backup_file_count" .computed "The total number of files and folders backed up.",
  nested "data_lock_constraints" .computed dataLockConstraints
    "Specifies the data lock constraints for the snapshot."]

def backupRun : Fields := .ofList [
  nested "snapshot_info" .computed snapshotInfo "Snapshot info of the object.",
  nestedList "failed_attempts" .computed backupAttempt "Failed backup attempts of the object."]

def replicationDataStats : Fields := .ofList [
  number "logical_size_bytes" .computed "Specifies the total logical size in bytes.",
  number "logical_bytes_transferred" .computed "Specifies the total logical bytes transferred.",
  number "physical_bytes_transferred" .computed "Specifies the total physical bytes transferred."]

def replicationTargetResult : Fields := .ofList [
  number "cluster_id" .computed "Specifies the id of the cluster.",
  number "cluster_incarnation_id" .computed "Specifies the incarnation id of the cluster.",
  text "cluster_name" .computed "Specifies the name of the cluster.",
  number "start_time_usecs" .computed
    "Specifies the start time of replication in Unix epoch (usecs).",
  number "end_time_usecs" .computed "Specifies the end time of replication in Unix epoch (usecs).",
  number "queued_time_usecs" .computed
    "Specifies the time when the replication is queued for schedule.",
  text "status" .computed "Status of the replication for a target.",
  text "message" .computed "Message about the replication run.",
  number "percentage_completed" .computed "Specifies the progress in percentage.",
  nested "stats" .computed replicationDataStats "Specifies statistics about the replication data.",
  flag "is_manually_deleted" .computed "Specifies whether the snapshot is deleted manually.",
  number "expiry_time_usecs" .computed
    "Specifies the expiry time of the replication in Unix epoch (usecs).",
  text "replication_task_id" .computed "Task id of the replication run.",
  number "entries_changed" .computed
    "Specifies the number of metadata actions completed during the protection run.",
  flag "is_in_bound" .computed "Specifies the direction of the replication.",
  nested "data_lock_constraints" .computed dataLockConstraints
    "Specifies the data lock constraints of the replicated snapshot.",
  flag "on_legal_hold" .computed "Specifies the legal hold status for a replication target.",
  flag "multi_object_replication" .computed "Specifies whether view based replication was used."]

def replicationRun : Fields := .ofList [
  nestedList "replication_target_results" .computed replicationTargetResult
    "Replication results for each replication target."]

def archivalDataStats : Fields := .ofList [
  number "logical_size_bytes" .computed "Specifies the logical size of the archived data in bytes.",
  number "bytes_read" .computed "Specifies the total logical bytes read for the archival.",
  number "logical_bytes_transferred" .computed "Specifies the logical bytes transferred.",
  number "physical_bytes_transferred" .computed "Specifies the physical bytes transferred.",
  number "avg_logical_transfer_rate_bps" .computed
    "Specifies the average rate of transfer in bytes per second.",
  flag "file_walk_done" .computed "Specifies whether the file system walk is done.",
  number "total_file_count" .computed "The total number of files and folders to archive.",
  number "backup_file_count" .computed "The total number of files and folders archived."]

def archivalTargetTierInfo : Fields := .ofList [
  text "cloud_platform" .computed "Specifies the cloud platform to enable tiering.",
  nested "aws_tiering" .computed Policy.tiers "Specifies AWS tiers.",
  nested "azure_tiering" .computed Policy.tiers "Specifies Azure tiers.",
  nested "google_tiering" .computed Policy.tiers "Specifies Google tiers.",
  nested "oracle_tiering" .computed Policy.tiers "Specifies Oracle tiers.",
  text "current_tier_type" .computed
    "Specifies the type of the current tier where the snapshot resides."]

def wormProperties : Fields := .ofList [
  flag "is_archive_worm_compliant" .computed
    "Specifies whether this archive run is WORM compliant.",
  text "worm_non_compliance_reason" .computed
    "Specifies reason of archive not being WORM compliant.",
  number "worm_expiry_time_usecs" .computed
    "Specifies the time at which the WORM protection expires."]

def archivalTargetResult : Fields := .ofList [
  number "target_id" .computed "Specifies the archival target id.",
  text "archival_task_id" .computed "Specifies the archival task id.",
  text "target_name" .computed "Specifies the archival target name.",
  text "target_type" .computed "Specifies the archival target type.",
  text "usage_type" .computed "Specifies the usage type for the target.",
  text "ownership_context" .computed "Specifies the ownership context for the target.",
  nested "tier_settings" .computed archivalTargetTierInfo "Specifies the tier info for archival.",
  text "run_type" .computed "Type of protection run created by this run.",
  flag "is_sla_violated" .computed "Indicated if SLA has been violated for this run.",
  text "snapshot_id" .computed "Snapshot id for a successful snapshot.",
  number "start_time_usecs" .computed "Start time for the archival, in Unix epoch (usecs).",
  number "end_time_usecs" .computed "End time for the archival, in Unix epoch (usecs).",
  number "queued_time_usecs" .computed
    "Specifies the time when the archival is queued for schedule.",
  flag "is_incremental" .computed "Whether the archival was an incremental archival.",
  flag "is_forever_incremental" .computed "Whether the archival is forever incremental.",
  flag "is_cad_archive" .computed "Whether the archival is a CAD archive.",
  text "status" .computed "Status of the archival run.",
  text "message" .computed "Message about the archival run.",
  text "progress_task_id" .computed "Progress monitor task id for archival.",
  text "stats_task_id" .computed "Run stats task id for archival.",
  text "indexing_task_id" .computed "Progress monitor task for indexing.",
  number "successful_objects_count" .computed
    "Specifies the count of objects for which the archival succeeded.",
  number "failed_objects_count" .computed
    "Specifies the count of objects for which the archival failed.",
  number "cancelled_objects_count" .computed
    "Specifies the count of objects for which the archival was cancelled.",
  number "successful_app_objects_count" .computed
    "Specifies the count of app objects for which the archival succeeded.",
  number "failed_app_objects_count" .computed
    "Specifies the count of app objects for which the archival failed.",
  number "cancelled_app_objects_count" .computed
    "Specifies the count of app objects for which the archival was cancelled.",
  nested "stats" .computed archivalDataStats "Specifies statistics about the archival data.",
  flag "is_manually_deleted" .computed "Specifies whether the snapshot is deleted manually.",
  number "expiry_time_usecs" .computed
    "Specifies the expiry time of the archival in Unix epoch (usecs).",
  nested "data_lock_constraints" .computed dataLockConstraints
    "Specifies the data lock constraints of the archived snapshot.",
  flag "on_legal_hold" .computed "Specifies the legal hold status for an archival target.",
  nested "worm_properties" .computed wormProperties
    "Specifies the WORM related properties for this archive."]

def archivalRun : Fields := .ofList [
  nestedList "archival_target_results" .computed archivalTargetResult
    "Archival results for each archival target."]

def cloudSpinDataStats : Fields := .ofList [
  number "physical_bytes_transferred" .computed "Specifies the physical bytes transferred."]

def cloudSpinTargetResult : Fields := .ofList [
  number "id" .computed "Specifies the unique id of the cloud spin entity.",
  text "name" .computed "Specifies the name of the already added cloud spin target.",
  number "start_time_usecs" .computed
    "Specifies the start time of cloud spin in Unix epoch (usecs).",
  number "end_time_usecs" .computed "Specifies the end time of cloud spin in Unix epoch (usecs).",
  text "status" .computed "Status of the cloud spin for a target.",
  text "message" .computed "Message about the cloud spin run.",
  nested "stats" .computed cloudSpinDataStats "Specifies statistics about the cloud spin data.",
  flag "is_manually_deleted" .computed "Specifies whether the snapshot is deleted manually.",
  number "expiry_time_usecs" .computed
    "Specifies the expiry time of the cloud spin in Unix epoch (usecs).",
  text "cloudspin_task_id" .computed "Task id of the cloud spin run.",
  text "progress_task_id" .computed "Progress monitor task id for cloud spin run.",
  nested "data_lock_constraints" .computed dataLockConstraints
    "Specifies the data lock constraints of the cloud spin.",
  flag "on_legal_hold" .computed "Specifies the legal hold status for a cloud spin target."]

def cloudSpinRun : Fields := .ofList [
  nestedList "cloud_spin_target_results" .computed cloudSpinTargetResult
    "Cloud spin results for each cloud spin target."]

def objectSummary : Fields := .ofList [
  number "id" .computed "Specifies object id.",
  text "name" .computed "Specifies the name of the object.",
  number "source_id" .computed "Specifies registered source id to which object belongs.",
  text "source_name" .computed "Specifies registered source name to which object belongs.",
  text "environment" .computed "Specifies the environment of the object.",
  text "object_hash" .computed "Specifies the hash identifier of the object.",
  text "object_type" .computed "Specifies the type of the object.",
  number "logical_size_bytes" .computed "Specifies the logical size of the object in bytes.",
  text "uuid" .computed "Specifies the uuid which is a unique identifier of the object.",
  text "global_id" .computed "Specifies the global id which is a unique identifier of the object.",
  text "protection_type" .computed "Specifies the protection type of the object if any.",
  text "os_type" .computed "Specifies the operating system type of the object."]

def objectRunResult : Fields := .ofList [
  nested "object" .computed objectSummary "Specifies the object summary.",
  nested "local_snapshot_info" .computed backupRun
    "Specifies information about the backup task of the object.",
  nested "original_backup_info" .computed backupRun
    "Specifies information about the original backup task of the object.",
  nested "replication_info" .computed replicationRun
    "Specifies information about the replication of the object.",
  nested "archival_info" .computed archivalRun
    "Specifies information about the archival of the object.",
  nested "cloud_spin_info" .computed cloudSpinRun
    "Specifies information about the cloud spin of the object.",
  flag "on_legal_hold" .computed "Specifies if the object is on legal hold."]

def backupRunSummary : Fields := .ofList [
  text "run_type" .computed "Type of protection run created by this run.",
  flag "is_sla_violated" .computed "Indicated if SLA has been violated for this run.",
  number "start_time_usecs" .computed
    "Specifies the start time of backup run in Unix epoch (usecs).",
  number "end_time_usecs" .computed "Specifies the end time of backup run in Unix epoch (usecs).",
  text "status" .computed "Status of the backup run.",
  texts "messages" .computed "Message about the backup run.",
  number "successful_objects_count" .computed
    "Specifies the count of objects for which backup was successful.",
  number "skipped_objects_count" .computed
    "Specifies the count of objects for which backup was skipped.",
  number "failed_objects_count" .computed "Specifies the count of objects for which backup failed.",
  number "cancelled_objects_count" .computed
    "Specifies the count of objects for which backup was cancelled.",
  number "successful_app_objects_count" .computed
    "Specifies the count of app objects for which backup was successful.",
  number "failed_app_objects_count" .computed
    "Specifies the count of app objects for which backup failed.",
  number "cancelled_app_objects_count" .computed
    "Specifies the count of app objects for which backup was cancelled.",
  nested "local_snapshot_stats" .computed backupDataStats
    "Specifies statistics about the local snapshot.",
  text "indexing_task_id" .computed "Progress monitor task for indexing.",
  text "progress_task_id" .computed "Progress monitor task id for local backup run.",
  text "stats_task_id" .computed "Stats task id for local backup run.",
  text "data_lock" .computed "This field is deprecated.",
  text "local_task_id" .computed "Task id for local backup run.",
  nested "data_lock_constraints" .computed dataLockConstraints
    "Specifies the data lock constraints of the local snapshot."]

def protectionGroupRun : Fields := .ofList [
  text "id" .computed "Specifies the id of the protection group run.",
  number "protection_group_instance_id" .computed
    "Protection group instance id. This field will be removed later.",
  text "protection_group_id" .computed "ProtectionGroupId to which this run belongs.",
  flag "is_replication_run" .computed
    "Specifies if this protection group run is a replication run.",
  nested "origin_cluster_identifier" .computed clusterIdentifier
    "Specifies the cluster where the run originated.",
  text "origin_protection_group_id" .computed
    "ProtectionGroupId to which this run belongs on the origin cluster.",
  text "protection_group_name" .computed "Name of the protection group.",
  flag "is_local_snapshots_deleted" .computed
    "Specifies if the snapshots of this run have been deleted by the user.",
  nestedList "objects" .computed objectRunResult
    "Snapshot, replication, archival results for each object.",
  nested "local_backup_info" .computed backupRunSummary
    "Specifies summary information about the local snapshot run.",
  nested "original_backup_info" .computed backupRunSummary
    "Specifies summary information about the original snapshot run.",
  nested "replication_info" .computed replicationRun
    "Specifies summary information about the replication run.",
  nested "archival_info" .computed archivalRun
    "Specifies summary information about the archival run.",
  nested "cloud_spin_info" .computed cloudSpinRun
    "Specifies summary information about the cloud spin run.",
  flag "on_legal_hold" .computed "Specifies if the protection group run is on legal hold.",
  nestedList "permissions" .computed tenant "Specifies the tenants which have access to this run.",
  flag "is_cloud_archival_direct" .computed "Specifies whether the run is a CAD run.",
  flag "has_local_snapshot" .computed "Specifies whether the run has a local snapshot.",
  text "environment" .computed "Specifies the environment of the protection group.",
  text "externally_triggered_backup_tag" .computed "The tag of an externally triggered backup job."]

def listedRuns : Fields := .ofList [
  nestedList "runs" .computed protectionGroupRun "Specifies the list of Protection Group runs.",
  number "total_runs" .computed
    "Specifies the count of total runs exist for the given set of filters."]

def runId : Place protectionGroupRun .string := .here

example : runId.entry.name = "id" := rfl

end ProtectionProvider.Group
