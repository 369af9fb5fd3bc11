import ProtectionProvider.Policy.Target

/-! # Protection policies -/

namespace ProtectionProvider.Policy

open Attribute

def scheduledBackup : Fields := .ofList [
  nested "schedule" .optional schedule "Specifies how often the backup is performed."]

def scheduleAndRetention : Fields := .ofList [
  nested "schedule" .optional schedule "Specifies how often the backup is performed.",
  nested "retention" .optional retention "Specifies the retention of the backup."]

def cdpBackupPolicy : Fields := .ofList [
  nested "retention" .optional retention
    "Specifies the retention of a CDP backup, in minutes or hours."]

def regularBackupPolicy : Fields := .ofList [
  nested "incremental" .optional scheduledBackup
    "Specifies incremental backup settings for a protection group.",
  nested "full" .optional scheduledBackup "Specifies full backup settings for a protection group.",
  nestedList "full_backups" .optional scheduleAndRetention
    "Specifies multiple schedules and retentions for full backup.",
  nested "retention" .optional retention "Specifies the retention of a backup.",
  nested "primary_backup_target" .optional primaryBackupTarget
    "Specifies the primary backup target settings for regular backups."]

def backupPolicy : Fields := .ofList [
  nested "regular" .required regularBackupPolicy
    "Specifies the incremental and full policy settings and the common retention.",
  nested "log" .optional scheduleAndRetention
    "Specifies log backup settings for a protection group.",
  nested "bmr" .optional scheduleAndRetention
    "Specifies the BMR schedule in case of physical source protection.",
  nested "cdp" .optional cdpBackupPolicy
    "Specifies CDP (continuous data protection) backup settings.",
  nested "storage_array_snapshot" .optional scheduleAndRetention
    "Specifies storage snapshot management backup settings.",
  nestedList "run_timeouts" .optional cancellationTimeout
    "Specifies the backup timeouts for different type of runs."]

def protectionPolicy : Fields := .ofList [
  text "id" .computed "Specifies a unique policy id assigned by the cluster.",
  text "name" .required "Specifies the name of the protection policy.",
  nested "backup_policy" .required backupPolicy
    "Specifies the backup schedule and retentions of the protection policy.",
  text "description" .optional "Specifies the description of the protection policy.",
  nestedList "blackout_window" .optional blackoutWindow
    "Blackout periods when new protection group runs are not started.",
  nestedList "extended_retention" .optional extendedRetentionPolicy
    "Additional retention policies applied to the backup snapshots.",
  nested "remote_target_policy" .optional targetsConfiguration
    "Specifies the replication, archival and cloud spin targets of the policy.",
  nested "retry_options" .optional retryOptions
    "Retry options of the policy when a protection group run fails.",
  text "data_lock" .optional
    "Specifies the WORM retention type of the snapshots (Compliance or Administrative).",
  number "version" .revision "Specifies the current policy version.",
  ({ name := "is_cbs_enabled", role := .computed, member := "isCBSEnabled",
     description := "Specifies true if calendar based schedules are supported by the client." },
   .bool),
  number "last_modification_time_usecs" .revision
    "Specifies the last time this policy was updated.",
  text "template_id" .optional
    "Specifies the parent policy template id to which the policy is linked.",
  flag "is_usable" .computed "Specifies if the policy can be used to create a protection group.",
  flag "is_replicated" .computed "Specifies if the policy is a replicated policy.",
  number "num_protection_groups" .computed
    "Specifies the number of protection groups using the policy.",
  number "num_protected_objects" .computed
    "Specifies the number of protected objects using the policy."]

def listed : Fields := .ofList [
  nestedList "policies" .computed protectionPolicy "Specifies a list of protection policies."]

/-! ## Places in a policy -/

def id : Place protectionPolicy .string := .here

def name : Place protectionPolicy .string := .there .here

def settings : Place protectionPolicy (.object backupPolicy) := .there (.there .here)

def regular : Place backupPolicy (.object regularBackupPolicy) := .here

example : id.entry.name = "id" ∧ name.entry.name = "name" ∧ settings.entry.name = "backup_policy" ∧
    regular.entry.name = "regular" := ⟨rfl, rfl, rfl, rfl⟩

def entities : List (String × Fields) := [
  ("ProtectionPolicy", protectionPolicy),
  ("BackupPolicy", backupPolicy),
  ("RegularBackupPolicy", regularBackupPolicy),
  ("ScheduledBackup", scheduledBackup),
  ("ScheduleAndRetention", scheduleAndRetention),
  ("CdpBackupPolicy", cdpBackupPolicy),
  ("Schedule", schedule),
  ("Frequency", frequency),
  ("WeekSchedule", weekSchedule),
  ("MonthSchedule", monthSchedule),
  ("YearSchedule", yearSchedule),
  ("Retention", retention),
  ("DataLockConfig", dataLockConfig),
  ("PrimaryBackupTarget", primaryBackupTarget),
  ("PrimaryArchivalTarget", primaryArchivalTarget),
  ("TierLevelSettings", tierLevelSettings),
  ("Tiers", tiers),
  ("Tier", tier),
  ("CancellationTimeout", cancellationTimeout),
  ("BlackoutWindow", blackoutWindow),
  ("TimeOfDay", timeOfDay),
  ("ExtendedRetentionPolicy", extendedRetentionPolicy),
  ("TargetSchedule", targetSchedule),
  ("TargetsConfiguration", targetsConfiguration),
  ("ReplicationTarget", replicationTarget),
  ("RemoteTargetConfig", remoteTargetConfig),
  ("ArchivalTarget", archivalTarget),
  ("CloudSpinTargetConfiguration", cloudSpinTargetConfiguration),
  ("CloudSpinTarget", cloudSpinTarget),
  ("RetryOptions", retryOptions)]

end ProtectionProvider.Policy
