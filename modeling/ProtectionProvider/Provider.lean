import ProtectionProvider.DataSource.Read
import ProtectionProvider.Policy.Resource

/-! # The provider

Its configuration, from which the client is built, and what it offers.
-/

namespace ProtectionProvider.Provider

def table : Fields := .ofList [
  Attribute.text "endpoint" .required
    "Base URL of the Backup & Recovery API, for instance https://host/v2",
  ({ name := "auth_token", role := .required, sensitive := true,
     description := "Bearer token used to authenticate the requests" },
   .string),
  Attribute.text "tenant_id" .optional "Tenant sent along every request",
  Attribute.text "user_agent" .optional "User agent of the requests"]

def schema : Schema := { description := "backuprecovery", table }

structure Config where
  endpoint : Value String
  token : Value String
  tenant : Value String
  userAgent : Value String

def Config.ofDynamic? (d : Dynamic) : Option Config :=
  (table.ofDynamic? d).map fun (endpoint, token, tenant, userAgent, ()) =>
    ⟨endpoint, token, tenant, userAgent⟩

def Config.settings (c : Config) : Settings :=
  ⟨c.endpoint.text, c.token.text, c.tenant.toOption, c.userAgent.toOption⟩

def endpointErrors : Value String → List Diagnostic
  | .value s =>
    if s = "" ∨ Client.hasHttpScheme (Text.trim s.toList) then
      Diagnostic.missing "endpoint" (.value s)
    else [.notHttp s]
  | v => Diagnostic.missing "endpoint" v

def validate (c : Config) : Outcome Unit :=
  .check (endpointErrors c.endpoint ++ Diagnostic.missing "auth_token" c.token)

/-- Puts a new client in the slot, which stays as it is if there is none. -/
def configure (slot : Option Client) (c : Config) : Option Client × Outcome Unit :=
  match Client.build c.settings with
  | .ok client => (some client, .ok ())
  | .error e => (slot, .fail (.noClient e))

def dataSourceNames : List String := (DataSource.all.map DataSource.name).mergeSort

def resources : List (String × Schema) := [("protection_policy", Policy.Resource.schema)]

def resourceNames : List String := resources.map Prod.fst

end ProtectionProvider.Provider
