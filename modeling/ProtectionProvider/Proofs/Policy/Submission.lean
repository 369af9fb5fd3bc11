import ProtectionProvider.Proofs.Policy.Encoding
import ProtectionProvider.Proofs.Policy.Lifecycle
import ProtectionProvider.Proofs.Provider.Validation

/-!
# What is valid can be sent

A validation looks at a configuration, and a server at the body of a request. Once the name and the
settings of the regular backups are decided, the two see the same: what one of them misses is missing
in the other (`valid_iff_sent`).
-/

namespace ProtectionProvider

theorem Place.distinct : ∀ {fs : Fields} {k : Kind}, Place fs k → fs.Distinct → k.Distinct
  | .cons _ _ _, _, .here, h => h.2.1
  | .cons _ _ _, _, .there p, h => p.distinct h.2.2

theorem Fields.held_members_eq_singleton {fs : Fields} {k : Kind} (hd : fs.Distinct) (p : Place fs k) {m : fs.Model}
    {j : Json} : held p.entry.member (fs.members m) = [j] ↔ ∃ x, m.get p = some x ∧ k.encode x = j := by
  rw [held_members hd]
  cases m.get p <;> simp

namespace Policy.Resource

open Fields.State (get)

structure Decided (config : State) : Prop where
  name : get Policy.name config ≠ .unknown
  settings : get Policy.settings config ≠ .unknown
  regular : ∀ s, get Policy.settings config = .value s → get Policy.regular s ≠ .unknown

/-! ## Parts of a body -/

/-- The body has a name that is a text and not empty. -/
def Named (body : Json) : Prop :=
  ∃ ms s, body = .object ms ∧ held "name" ms = [.str s] ∧ s ≠ ""

def Scheduled (body : Json) : Prop :=
  ∃ ms settings regular, body = .object ms ∧ held "backupPolicy" ms = [.object settings] ∧
    held "regular" settings = [.object regular]

theorem named_encode {m : Model} :
    Named (protectionPolicy.encode m) ↔ ∃ s : String, m.get Policy.name = some s ∧ s ≠ "" := by
  have hh : ∀ j, held "name" (protectionPolicy.members m) = [j] ↔
      ∃ s : String, m.get Policy.name = some s ∧ .str s = j :=
    fun j => Fields.held_members_eq_singleton distinct Policy.name
  constructor
  · rintro ⟨ms, s, hb, hs, hne⟩
    cases hb
    obtain ⟨t, ht, he⟩ := (hh _).mp hs
    exact ⟨t, ht, Json.str_inj.mp he ▸ hne⟩
  · rintro ⟨s, hs, hne⟩
    exact ⟨_, s, rfl, (hh _).mpr ⟨s, hs, rfl⟩, hne⟩

theorem scheduled_encode {m : Model} : Scheduled (protectionPolicy.encode m) ↔
    ∃ s : backupPolicy.Model, m.get Policy.settings = some s ∧ (s.get Policy.regular).isSome = true := by
  have hh : ∀ j, held "backupPolicy" (protectionPolicy.members m) = [j] ↔
      ∃ s : backupPolicy.Model, m.get Policy.settings = some s ∧ .object (backupPolicy.members s) = j :=
    fun j => Fields.held_members_eq_singleton distinct Policy.settings
  have hr : ∀ (s : backupPolicy.Model) j, held "regular" (backupPolicy.members s) = [j] ↔
      ∃ r : regularBackupPolicy.Model, s.get Policy.regular = some r ∧ .object (regularBackupPolicy.members r) = j :=
    fun s j => Fields.held_members_eq_singleton (Policy.settings.distinct distinct) Policy.regular
  constructor
  · rintro ⟨ms, settings, regular, hb, hs, hg⟩
    cases hb
    obtain ⟨s, hm, he⟩ := (hh _).mp hs
    cases he
    obtain ⟨r, hr, -⟩ := (hr s _).mp hg
    exact ⟨s, hm, Option.isSome_of_eq_some hr⟩
  · rintro ⟨s, hs, hg⟩
    obtain ⟨r, hg⟩ := Option.isSome_iff_exists.mp hg
    exact ⟨_, _, _, rfl, (hh _).mpr ⟨s, hs, rfl⟩, (hr s _).mpr ⟨r, hg, rfl⟩⟩

/-! ## Faults of a configuration -/

/-- One error is reported of an attribute whose part is missing, and none if the part is there. -/
inductive Faults (name : String) (present : Prop) : List Diagnostic → Prop where
  | none (there : present) : Faults name present []
  | single {d : Diagnostic} (missing : ¬ present) (place : d.path.head? = some name) : Faults name present [d]

section
variable {name : String} {present : Prop} {errors : List Diagnostic}

theorem Faults.eq_nil_iff (h : Faults name present errors) : errors = [] ↔ present := by
  cases h with
  | none there => exact ⟨fun _ => there, fun _ => rfl⟩
  | single missing => exact ⟨fun h => (by cases h), fun h => absurd h missing⟩

theorem faults_missing {v : Value String} (hv : v ≠ .unknown) :
    Faults name (∃ s, v.toOption = some s ∧ s ≠ "") (Diagnostic.missing name v) := by
  cases v with
  | null => exact .single (by simp [Value.toOption]) rfl
  | unknown => exact absurd rfl hv
  | value s =>
    by_cases hs : s = ""
    · subst hs
      exact .single (by simp [Value.toOption]) rfl
    · have hm : Diagnostic.missing name (.value s) = [] := by simp [Diagnostic.missing]
      rw [hm]
      exact .none ⟨s, rfl, hs⟩

theorem faults_settings {v : Value backupPolicy.State} (hv : v ≠ .unknown)
    (hr : ∀ s, v = .value s → get Policy.regular s ≠ .unknown) :
    Faults "backup_policy" (∃ s, v.toOption = some s ∧ (get Policy.regular s).toOption.isSome = true)
      (settingsErrors v) := by
  cases v with
  | null => exact .single (by simp [Value.toOption]) rfl
  | unknown => exact absurd rfl hv
  | value s =>
    have hs := hr s rfl
    unfold settingsErrors
    dsimp only
    cases hg : get Policy.regular s with
    | null => exact .single (by simp [Value.toOption, hg]) rfl
    | unknown => exact absurd hg hs
    | value r => exact .none ⟨s, rfl, by rw [hg]; rfl⟩

end

/-! ## Configurations and bodies -/

theorem isSome_get_regular (s : backupPolicy.State) : ((backupPolicy.expand s).get Policy.regular).isSome = true ↔
    (get Policy.regular s).toOption.isSome = true := by
  rw [Fields.get_expand, Option.isSome_map]

section
variable {config planned : State} (hu : SameUser planned config)
include hu

theorem named_of_planned : Named (protectionPolicy.encode (protectionPolicy.expand planned)) ↔
    ∃ s, (get Policy.name config).toOption = some s ∧ s ≠ "" := by
  have hn : get Policy.name planned = get Policy.name config := hu.get Policy.name rfl
  rw [named_encode, Fields.get_expand, hn]
  cases get Policy.name config <;> rfl

theorem scheduled_of_planned : Scheduled (protectionPolicy.encode (protectionPolicy.expand planned)) ↔
    ∃ s, (get Policy.settings config).toOption = some s ∧ (get Policy.regular s).toOption.isSome = true := by
  have hs : get Policy.settings planned = get Policy.settings config := hu.get Policy.settings rfl
  rw [scheduled_encode, Fields.get_expand, hs]
  constructor
  · rintro ⟨m, hm, hr⟩
    obtain ⟨s, hv, rfl⟩ := Option.map_eq_some_iff.mp hm
    exact ⟨s, hv, (isSome_get_regular s).mp hr⟩
  · rintro ⟨s, hv, hr⟩
    exact ⟨backupPolicy.expand s, Option.map_eq_some_iff.mpr ⟨s, hv, rfl⟩, (isSome_get_regular s).mpr hr⟩

end

structure Judged (config : State) (body : Json) : Prop where
  valid_iff : (validate config).result = some () ↔ Named body ∧ Scheduled body
  faults : ∃ name settings, (validate config).errors = name ++ settings ∧ Faults "name" (Named body) name ∧
    Faults "backup_policy" (Scheduled body) settings

theorem judged_of_decided {config planned : State} (hd : Decided config) (hu : SameUser planned config) :
    Judged config (protectionPolicy.encode (protectionPolicy.expand planned)) := by
  have hn : Faults "name" (Named (protectionPolicy.encode (protectionPolicy.expand planned)))
      (Diagnostic.missing "name" (get Policy.name config)) := by
    rw [propext (named_of_planned hu)]
    exact faults_missing hd.name
  have hs : Faults "backup_policy" (Scheduled (protectionPolicy.encode (protectionPolicy.expand planned)))
      (settingsErrors (get Policy.settings config)) := by
    rw [propext (scheduled_of_planned hu)]
    exact faults_settings hd.settings hd.regular
  refine ⟨?_, _, _, rfl, hn, hs⟩
  rw [← hn.eq_nil_iff, ← hs.eq_nil_iff, ← List.append_eq_nil_iff]
  exact Outcome.result_check

theorem requests_create (c : Client) (planned : State) (hidden : Private) (answer : Http.Answer) :
    (create (some c) planned hidden answer).requests = c.issued (creation planned) := by
  have he := create_end c hidden answer planned
  generalize create (some c) planned hidden answer = o at he ⊢
  cases he <;> rfl

theorem valid_iff_sent (c : Client) {config planned : State} (hd : Decided config) (hu : SameUser planned config) :
    ∃ body, (c.request (creation planned)).json? = some body ∧ Judged config body ∧
      ∀ hidden answer, ∀ r ∈ (create (some c) planned hidden answer).requests, r.json? = some body := by
  have hb : (c.request (creation planned)).json? =
      some (protectionPolicy.encode (protectionPolicy.expand planned)) := by
    rw [Fields.encode_eq]
    exact Http.Request.json?_of_body rfl
  refine ⟨_, hb, judged_of_decided hd hu, ?_⟩
  intro hidden answer r hr
  rw [requests_create] at hr
  rw [Client.eq_request_of_mem_issued hr]
  exact hb

def sketchedPolicy : State :=
  Fields.State.set Policy.name (.value "")
    (Fields.State.set Policy.settings (.value (Fields.State.set Policy.regular .null (.unknown _))) (.unknown _))

theorem valid_iff_sent_sketched :
    Decided sketchedPolicy ∧ SameUser (planCreate sketchedPolicy).1 sketchedPolicy ∧
      (validate sketchedPolicy).errors = [.emptyAttribute "name", .noRegularBackup] ∧
      ∃ body, (localClient.request (creation (planCreate sketchedPolicy).1)).json? = some body ∧
        ¬ Named body ∧ ¬ Scheduled body := by
  have hd : Decided sketchedPolicy := by
    refine ⟨by decide, by decide, ?_⟩
    intro s hs
    cases hs
    decide
  have hu := sameUser_planCreate sketchedPolicy
  obtain ⟨body, hb, ⟨-, n, s, he, hn, hs⟩, -⟩ := valid_iff_sent localClient hd hu
  refine ⟨hd, hu, rfl, body, hb, ?_⟩
  -- two errors are one of each part
  have hl : 2 = (n ++ s).length := congrArg List.length he
  cases hn with
  | none => cases hs <;> simp at hl
  | single unnamed =>
    cases hs with
    | none => simp at hl
    | single unscheduled => exact ⟨unnamed, unscheduled⟩

end Policy.Resource

end ProtectionProvider
