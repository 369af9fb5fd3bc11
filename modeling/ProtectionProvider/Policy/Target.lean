import ProtectionProvider.Policy.Timing

/-! # Where snapshots are copied

Replication, archival and cloud targets, with the tiers of each cloud platform.
-/

namespace ProtectionProvider.Policy

open Attribute

def tier : Fields := .ofList [
  text "move_after_unit" .optional "Specifies the unit for moving the data to the next tier.",
  number "move_after" .optional
    "Specifies the time period after which the backup is moved to the next tier.",
  text "tier_type" .optional "Specifies the tier type."]

def tiers : Fields := .ofList [
  nestedList "tiers" .optional tier
    "Specifies the tiers used to move the archived backup from the current tier to the next one."]

def tierLevelSettings : Fields := .ofList [
  text "cloud_platform" .optional "Specifies the cloud platform to enable tiering.",
  nested "aws_tiering" .optional tiers "Specifies AWS tiers.",
  nested "azure_tiering" .optional tiers "Specifies Azure tiers.",
  nested "google_tiering" .optional tiers "Specifies Google tiers.",
  nested "oracle_tiering" .optional tiers "Specifies Oracle tiers."]

def primaryArchivalTarget : Fields := .ofList [
  number "target_id" .optional "Specifies the archival target id to take primary backup.",
  text "target_name" .optional "Specifies the archival target name where snapshots are copied.",
  nested "tier_settings" .optional tierLevelSettings
    "Specifies the tier levels configured with the archival target."]

def primaryBackupTarget : Fields := .ofList [
  text "target_type" .optional "Specifies the primary backup location: Local or Archival.",
  nested "archival_target_settings" .optional primaryArchivalTarget
    "Specifies the primary archival settings, used for cloud direct archive."]

def remoteTargetConfig : Fields := .ofList [
  number "cluster_id" .optional "Specifies the cluster id of the target replication cluster.",
  text "cluster_name" .optional "Specifies the cluster name of the target replication cluster."]

def replicationTarget : Fields := .ofList [
  nested "schedule" .required targetSchedule
    "Specifies the schedule for copying snapshots to the target.",
  nested "retention" .required retention "Specifies the retention of the copied snapshots.",
  flag "copy_on_run_success" .optional
    "Specifies if snapshots are copied from the first completely successful run only.",
  text "config_id" .optional
    "Specifies the unique identifier of the target, only needed when the policy is updated.",
  text "backup_run_type" .optional
    "Specifies which type of run should be copied (only Full is supported).",
  nestedList "run_timeouts" .optional cancellationTimeout
    "Specifies the copy timeouts for different type of runs.",
  nested "log_retention" .optional retention "Specifies the retention of the copied log snapshots.",
  text "target_type" .optional "Specifies the type of the replication target.",
  nested "remote_target_config" .optional remoteTargetConfig
    "Specifies the remote cluster used as replication target."]

def archivalTarget : Fields := .ofList [
  nested "schedule" .required targetSchedule
    "Specifies the schedule for copying snapshots to the target.",
  nested "retention" .required retention "Specifies the retention of the copied snapshots.",
  flag "copy_on_run_success" .optional
    "Specifies if snapshots are copied from the first completely successful run only.",
  text "config_id" .optional
    "Specifies the unique identifier of the target, only needed when the policy is updated.",
  text "backup_run_type" .optional
    "Specifies which type of run should be copied (only Full is supported).",
  nestedList "run_timeouts" .optional cancellationTimeout
    "Specifies the copy timeouts for different type of runs.",
  nested "log_retention" .optional retention "Specifies the retention of the copied log snapshots.",
  number "target_id" .required "Specifies the archival target to copy the snapshots to.",
  text "target_name" .optional "Specifies the archival target name where snapshots are copied.",
  text "target_type" .optional "Specifies the archival target type where snapshots are copied.",
  nested "tier_settings" .optional tierLevelSettings
    "Specifies the tier levels configured with the archival target.",
  nestedList "extended_retention" .optional extendedRetentionPolicy
    "Additional retention policies applied to the archived backup."]

def cloudSpinTarget : Fields := .ofList [
  number "id" .optional "Specifies the unique id of the cloud spin entity.",
  text "name" .optional "Specifies the name of the already added cloud spin target."]

def cloudSpinTargetConfiguration : Fields := .ofList [
  nested "schedule" .required targetSchedule
    "Specifies the schedule for copying snapshots to the target.",
  nested "retention" .required retention "Specifies the retention of the copied snapshots.",
  flag "copy_on_run_success" .optional
    "Specifies if snapshots are copied from the first completely successful run only.",
  text "config_id" .optional
    "Specifies the unique identifier of the target, only needed when the policy is updated.",
  text "backup_run_type" .optional
    "Specifies which type of run should be copied (only Full is supported).",
  nestedList "run_timeouts" .optional cancellationTimeout
    "Specifies the copy timeouts for different type of runs.",
  nested "log_retention" .optional retention "Specifies the retention of the copied log snapshots.",
  nested "target" .required cloudSpinTarget
    "Specifies the cloud spin target where snapshots are converted and stored."]

def targetsConfiguration : Fields := .ofList [
  nestedList "replication_targets" .optional replicationTarget "Specifies the replication targets.",
  nestedList "archival_targets" .optional archivalTarget "Specifies the archival targets.",
  nestedList "cloud_spin_targets" .optional cloudSpinTargetConfiguration
    "Specifies the cloud spin targets."]

end ProtectionProvider.Policy
