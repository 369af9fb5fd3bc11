import ProtectionProvider.Proofs.Client.Building
import ProtectionProvider.Proofs.Provider.Validation

/-!
# Validating and configuring

A configuration from which a client can be built is valid (`configure_sound`). The converse fails in two
ways: a validation looks at the scheme of the endpoint and not at the rest of it, and takes a blank token
for one that is there (`valid_not_configured`). If the values of headers are legal, nothing else that is
valid fails to configure (`configures_iff_of_valid`).
-/

namespace ProtectionProvider

theorem Client.isSome_base? {endpoint : String} : (base? endpoint).isSome = true ↔
    hasHttpScheme (Text.trim endpoint.toList) = true ∧ (Url.read? (Text.trim endpoint.toList)).isSome = true := by
  unfold base?
  dsimp only
  split <;> simp_all

namespace Provider

/-! ## Valid configurations -/

theorem endpointErrors_value {s : String} : endpointErrors (.value s) = [] ↔
    Client.hasHttpScheme (Text.trim s.toList) = true := by
  by_cases hs : s = ""
  · subst hs
    decide
  · by_cases h : Client.hasHttpScheme (Text.trim s.toList) = true
    · have hm : Diagnostic.missing "endpoint" (.value s) = [] := by simp [Diagnostic.missing]
      simp [endpointErrors, hm, h]
    · simp [endpointErrors, hs, h]

theorem valid_iff {c : Config} : (validate c).result = some () ↔
    endpointErrors c.endpoint = [] ∧ Diagnostic.missing "auth_token" c.token = [] :=
  Outcome.result_check.trans List.append_eq_nil_iff

theorem valid_of_acceptable {c : Config} (h : Client.Acceptable c.settings) : (validate c).result = some () := by
  have hb : Client.hasHttpScheme (Text.trim c.endpoint.text.toList) = true := (Client.isSome_base?.mp h.endpoint).1
  have ht : Text.trim c.token.text.toList ≠ [] := h.token.1
  refine valid_iff.mpr ⟨?_, ?_⟩
  · cases he : c.endpoint with
    | null =>
      rw [he] at hb
      cases hb
    | unknown => rfl
    | value s =>
      rw [he] at hb
      exact endpointErrors_value.mpr hb
  · cases he : c.token with
    | null =>
      rw [he] at ht
      exact absurd rfl ht
    | unknown => rfl
    | value s =>
      rw [he] at ht
      have hs : s ≠ "" := by
        rintro rfl
        exact ht rfl
      simp [Diagnostic.missing]

/-! ## Configuring -/

theorem configure_eq_ok_iff {slot : Option Client} {c : Config} :
    (configure slot c).2.result = some () ↔ Client.Acceptable c.settings := by
  rw [← Client.exists_build_iff]
  unfold configure
  cases Client.build c.settings with
  | ok client => simp [Outcome.ok]
  | error e => simp [Outcome.fail]

theorem configure_sound (slot : Option Client) (c : Config) :
    ((configure slot c).2.result = some () → (validate c).result = some () ∧ (validate c).errors = [] ∧
        ∃ client, (configure slot c).1 = some client ∧ Client.BuiltFrom c.settings client) ∧
      ((configure slot c).2.result = none → (configure slot c).1 = slot ∧
        ∃ e, (configure slot c).2.errors = [e] ∧ e.summary = "initialize-client failed" ∧ e.path = []) := by
  constructor
  · intro h
    have hv := valid_of_acceptable (configure_eq_ok_iff.mp h)
    refine ⟨hv, Outcome.result_check.mp hv, ?_⟩
    unfold configure at h ⊢
    cases hb : Client.build c.settings with
    | ok client => exact ⟨client, rfl, Client.builtFrom_of_build hb⟩
    | error e =>
      rw [hb] at h
      cases h
  · intro h
    unfold configure at h ⊢
    cases hb : Client.build c.settings with
    | ok client =>
      rw [hb] at h
      cases h
    | error e => exact ⟨rfl, _, rfl, rfl, rfl⟩

/-- An endpoint between blanks, written as a browser would still take it. -/
def lenientConfig : Config := ⟨.value "\u00a0https:///\\H:443/../v2 ", .value " t", .unknown, .null⟩

theorem configure_sound_lenient :
    (configure none lenientConfig).2.result = some () ∧ (validate lenientConfig).result = some () ∧
      ∀ client, (configure (some client) .unknown).2.result = none ∧
        (configure (some client) .unknown).1 = some client := by
  have h : (configure none lenientConfig).2.result = some () := by decide +kernel
  refine ⟨h, ((configure_sound none lenientConfig).1 h).1, fun client => ?_⟩
  have hu : (configure (some client) .unknown).2.result = none := rfl
  exact ⟨hu, ((configure_sound (some client) .unknown).2 hu).1⟩

/-! ## Valid configurations that fail -/

structure Config.Sendable (c : Config) : Prop where
  token : Http.isHeaderValue c.token.text = true
  tenant : c.tenant.toOption.all Http.isHeaderValue = true
  userAgent : c.userAgent.toOption.all Http.isHeaderValue = true

theorem acceptable_iff_of_valid {c : Config} (hs : c.Sendable) (hv : (validate c).result = some ()) :
    Client.Acceptable c.settings ↔
      Text.trim c.token.text.toList ≠ [] ∧ (Url.read? (Text.trim c.endpoint.text.toList)).isSome = true := by
  constructor
  · intro h
    exact ⟨h.token.1, (Client.isSome_base?.mp h.endpoint).2⟩
  · rintro ⟨ht, hu⟩
    have hb : Client.hasHttpScheme (Text.trim c.endpoint.text.toList) = true := by
      have he := (valid_iff.mp hv).1
      cases hc : c.endpoint with
      | null | unknown =>
        rw [hc] at hu
        cases hu
      | value s =>
        rw [hc] at he
        exact endpointErrors_value.mp he
    have ha : Http.isHeaderValue (c.userAgent.toOption.getD Client.defaultUserAgent) = true := by
      have hl := hs.userAgent
      cases hc : c.userAgent.toOption with
      | none => decide
      | some s =>
        rw [hc] at hl
        exact hl
    exact ⟨Client.isSome_base?.mpr ⟨hb, hu⟩, ⟨ht, hs.token⟩, hs.tenant, ha⟩

theorem configures_iff_of_valid (slot : Option Client) {c : Config} (hs : c.Sendable)
    (hv : (validate c).result = some ()) :
    (configure slot c).2.result = some () ↔
      Text.trim c.token.text.toList ≠ [] ∧ (Url.read? (Text.trim c.endpoint.text.toList)).isSome = true :=
  configure_eq_ok_iff.trans (acceptable_iff_of_valid hs hv)

def blankToken : Config := ⟨.value "http://h", .value " ", .null, .null⟩

def openHost : Config := ⟨.value "http://[", .value "t", .null, .null⟩

theorem configures_iff_of_valid_lenient :
    lenientConfig.Sendable ∧ (validate lenientConfig).result = some () ∧
      (configure none lenientConfig).2.result = some () ∧
      openHost.Sendable ∧ (validate openHost).result = some () ∧ (configure none openHost).2.result ≠ some () := by
  have hs : lenientConfig.Sendable := ⟨by decide, by decide, by decide⟩
  have hv : (validate lenientConfig).result = some () := by decide +kernel
  have ho : openHost.Sendable := ⟨by decide, by decide, by decide⟩
  have hw : (validate openHost).result = some () := by decide +kernel
  refine ⟨hs, hv, (configures_iff_of_valid none hs hv).mpr (by decide +kernel), ho, hw, fun h => ?_⟩
  exact absurd ((configures_iff_of_valid none ho hw).mp h).2 (by decide +kernel)

theorem valid_not_configured :
    (blankToken.Known ∧ blankToken.Sendable ∧ (validate blankToken).result = some () ∧
        (configure none blankToken).2.result = none) ∧
      openHost.Known ∧ openHost.Sendable ∧ (validate openHost).result = some () ∧
        (configure none openHost).2.result = none := by
  refine ⟨⟨⟨?_, ?_, ?_, ?_⟩, ⟨?_, ?_, ?_⟩, ?_, ?_⟩, ⟨?_, ?_, ?_, ?_⟩, ⟨?_, ?_, ?_⟩, ?_, ?_⟩ <;> decide +kernel

end Provider

end ProtectionProvider
