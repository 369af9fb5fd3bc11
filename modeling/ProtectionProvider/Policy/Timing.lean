import ProtectionProvider.Schema

/-! # When backups run

Schedules, frequencies, blackout windows and time limits.
-/

namespace ProtectionProvider.Policy

open Attribute

def timeOfDay : Fields := .ofList [
  number "hour" .optional "Specifies the hour of the day (0-23).",
  number "minute" .optional "Specifies the minute of the hour (0-59).",
  text "time_zone" .optional
    "Specifies the time zone of the user, America/Los_Angeles if not specified."]

def frequency : Fields := .ofList [
  number "frequency" .optional
    "Specifies a factor to multiply the unit by, to determine the backup schedule."]

def weekSchedule : Fields := .ofList [
  texts "day_of_week" .optional "Specifies a list of days of the week when to start runs."]

def monthSchedule : Fields := .ofList [
  texts "day_of_week" .optional "Specifies a list of days of the week when to start runs.",
  text "week_of_month" .optional
    "Specifies the week of the month (such as Third) or the nth day of the month (First or Last).",
  number "day_of_month" .optional "Specifies the exact date of the month (such as 18)."]

def yearSchedule : Fields := .ofList [
  text "day_of_year" .optional "Specifies the day of the year (First or Last) to start the run."]

def schedule : Fields := .ofList [
  text "unit" .optional
    "Specifies how often to start new runs: Minutes, Hours, Days, Weeks, Months, Years or ProtectOnce.",
  nested "minute_schedule" .optional frequency "Schedule starting runs after a number of minutes.",
  nested "hour_schedule" .optional frequency "Schedule starting runs after a number of hours.",
  nested "day_schedule" .optional frequency "Schedule starting runs after a number of days.",
  nested "week_schedule" .optional weekSchedule
    "Schedule starting runs on certain days of the week.",
  nested "month_schedule" .optional monthSchedule
    "Schedule starting runs on a specific week and day of the month.",
  nested "year_schedule" .optional yearSchedule
    "Schedule starting runs on a specific day of the year."]

def targetSchedule : Fields := .ofList [
  text "unit" .optional
    "Specifies the unit of the schedule: Runs, Hours, Days, Weeks, Months or Years.",
  number "frequency" .optional "Specifies a factor to multiply the unit by."]

def blackoutWindow : Fields := .ofList [
  text "day" .optional
    "Specifies a day of the week when no new run should be started, such as Sunday.",
  nested "start_time" .optional timeOfDay "Specifies the start of the blackout window.",
  nested "end_time" .optional timeOfDay "Specifies the end of the blackout window.",
  text "config_id" .optional
    "Specifies the unique identifier of the window, only needed when the policy is updated."]

def cancellationTimeout : Fields := .ofList [
  number "timeout_mins" .optional "Specifies the timeout in minutes.",
  text "backup_type" .optional
    "Specifies the type of the run the timeout applies to (kFull, kRegular, ...)."]

def retryOptions : Fields := .ofList [
  number "retries" .optional
    "Specifies the number of times to retry capturing snapshots before the run fails.",
  number "retry_interval_mins" .optional
    "Specifies the number of minutes before retrying a failed protection group."]

/-! ## How long snapshots are kept -/

def dataLockConfig : Fields := .ofList [
  text "mode" .optional "Specifies the type of WORM retention: Compliance or Administrative.",
  text "unit" .optional "Specifies the data lock unit: Days, Weeks, Months or Years.",
  number "duration" .optional "Specifies the duration of the data lock.",
  flag "enable_worm_on_external_target" .optional
    "Specifies whether objects in the external target need to be made immutable."]

def retention : Fields := .ofList [
  text "unit" .optional
    "Specifies the retention unit: Days, Weeks, Months or Years (Minutes or Hours for CDP).",
  number "duration" .optional "Specifies the duration of the retention.",
  nested "data_lock_config" .optional dataLockConfig "Specifies WORM retention of the snapshots."]

def extendedRetentionPolicy : Fields := .ofList [
  nested "schedule" .optional targetSchedule
    "Specifies a schedule frequency and unit for the extended retention.",
  nested "retention" .optional retention "Specifies the retention of the snapshots.",
  text "run_type" .optional "The backup run type to which this extended retention applies.",
  text "config_id" .optional
    "Specifies the unique identifier of the retention, only needed when the policy is updated."]

end ProtectionProvider.Policy
