import ProtectionProvider.Client.Basic

/-!
# Clients from settings

A client is built if nothing speaks against the settings (`exists_build_iff`), and takes over what they
say. Which token they hold matters to the outcome only as far as it is accepted (`build_withToken`).
-/

namespace ProtectionProvider

def AcceptedToken (token : String) : Prop :=
  Text.trim token.toList ≠ [] ∧ Http.isHeaderValue token = true

instance (token : String) : Decidable (AcceptedToken token) := inferInstanceAs (Decidable (_ ∧ _))

namespace Client

structure BuiltFrom (s : Settings) (c : Client) : Prop where
  base : base? s.endpoint = some c.base
  endpoint : c.endpoint = shownEndpoint s.endpoint
  token : c.token = s.token
  tenant : c.tenant = s.tenant
  userAgent : c.userAgent = s.userAgent.getD defaultUserAgent

theorem builtFrom_of_build {s : Settings} {c : Client} (h : build s = .ok c) : BuiltFrom s c := by
  unfold build at h
  split at h
  · rename_i base hb
    simp only [bind, Except.bind, pure, Except.pure, throw, throwThe, MonadExceptOf.throw] at h
    repeat' split at h
    all_goals cases h
    exact ⟨hb, rfl, rfl, rfl, rfl⟩
  · cases h

/-- Nothing speaks against a client with these settings. -/
structure Acceptable (s : Settings) : Prop where
  endpoint : (base? s.endpoint).isSome = true
  token : AcceptedToken s.token
  tenant : s.tenant.all Http.isHeaderValue = true
  userAgent : Http.isHeaderValue (s.userAgent.getD defaultUserAgent) = true

theorem isHeaderValue_bearer (token : String) : Http.isHeaderValue (bearer token) = Http.isHeaderValue token := by
  simp [Http.isHeaderValue, bearer, String.toList_append]

theorem exists_build_iff {s : Settings} : (∃ c, build s = .ok c) ↔ Acceptable s := by
  unfold build
  constructor
  · rintro ⟨c, h⟩
    split at h
    · rename_i base hb
      simp only [isHeaderValue_bearer, bind, Except.bind, pure, Except.pure, throw, throwThe, MonadExceptOf.throw] at h
      -- the checks that were passed, in their order
      split at h
      · cases h
      rename_i htoken
      split at h
      · cases h
      rename_i hheader
      split at h
      · cases h
      rename_i htenant
      split at h
      · cases h
      rename_i hagent
      simp only [Bool.not_eq_true', Bool.not_eq_false] at hheader htenant hagent
      exact ⟨Option.isSome_of_eq_some hb, ⟨htoken, hheader⟩, htenant, hagent⟩
    · cases h
  · intro h
    obtain ⟨base, hb⟩ := Option.isSome_iff_exists.mp h.endpoint
    simp [hb, h.token.1, h.token.2, isHeaderValue_bearer, h.tenant, h.userAgent, pure, Except.pure]

def withToken (token : String) (c : Client) : Client := { c with token }

/-- With another token that is accepted as well, the same is built or the same fault is found. -/
theorem build_withToken {s : Settings} {token : String} (h : AcceptedToken s.token) (h' : AcceptedToken token) :
    build { s with token } = (build s).map (withToken token) := by
  unfold build
  simp only [h.1, h.2, h'.1, h'.2, isHeaderValue_bearer, Bool.not_true, Bool.false_eq_true, if_false]
  cases base? s.endpoint with
  | none => rfl
  | some base =>
    dsimp only [bind, Except.bind, pure, Except.pure, throw, throwThe, MonadExceptOf.throw]
    split
    · rfl
    split
    · rfl
    rfl

end Client

end ProtectionProvider
