import ProtectionProvider.Proofs.Client.Addresses
import ProtectionProvider.Proofs.Client.Building

/-!
# Credentials of requests

Every request carries the headers that the settings ask for. Only credentials in the endpoint take the
place of the token (`endpoint_displaces_token`). However a request is redirected, neither goes to another
host (`authorized_sent`).
-/

namespace ProtectionProvider

namespace Client

open Policy.Resource (localClient)

/-- The request carries what the settings say and the given authorization, and nothing else under
these names. -/
structure Carries (s : Settings) (authorization : String) (r : Http.Request) : Prop where
  once : (r.headers.map Prod.fst).Nodup
  authorization : ∀ v, ("authorization", v) ∈ r.headers ↔ v = authorization
  tenant : ∀ v, ("x-ibm-tenant-id", v) ∈ r.headers ↔ s.tenant = some v
  userAgent : ∀ v, ("user-agent", v) ∈ r.headers ↔ v = s.userAgent.getD "terraform-provider-backuprecovery/0.1.0"
  contentType : ∀ v, ("content-type", v) ∈ r.headers ↔ r.body.isSome = true ∧ v = "application/json"

theorem credentials?_callUrl (c : Client) (call : Call) : (c.callUrl call).credentials? = c.base.credentials? := by
  obtain ⟨q, hq⟩ := (c.url call.segments).addQuery_eq call.query
  rw [callUrl, hq]
  rfl

theorem mem_request_headers (c : Client) (call : Call) (name value : String) :
    (name, value) ∈ (c.request call).headers ↔
      name = "accept" ∧ value = "*/*" ∨
      name = "authorization" ∧ value = c.authorization (c.callUrl call) ∨
      name = "content-type" ∧ call.body.isSome = true ∧ value = "application/json" ∨
      name = "user-agent" ∧ value = c.userAgent ∨
      name = "x-ibm-tenant-id" ∧ c.tenant = some value := by
  cases hb : call.body <;> cases ht : c.tenant <;> simp [request, headers, hb, ht, tenantHeader, eq_comm]

theorem request_headers_nodup (c : Client) (call : Call) : ((c.request call).headers.map Prod.fst).Nodup := by
  cases hb : call.body <;> cases ht : c.tenant <;> simp [request, headers, hb, ht, tenantHeader]

theorem carries_request {s : Settings} {c : Client} (h : BuiltFrom s c) (call : Call) :
    Carries s (c.authorization (c.callUrl call)) (c.request call) where
  once := c.request_headers_nodup call
  authorization v := by simp [mem_request_headers]
  tenant v := by simp [mem_request_headers, h.tenant]
  userAgent v := by
    rw [show s.userAgent.getD "terraform-provider-backuprecovery/0.1.0" = c.userAgent from h.userAgent.symm]
    simp [mem_request_headers]
  contentType v := by
    show _ ↔ call.body.isSome = true ∧ _
    simp [mem_request_headers]

/-- A request carries the token of the settings, unless the endpoint holds credentials. -/
theorem request_credentials {s : Settings} {c : Client} (h : build s = .ok c) (call : Call) :
    base? s.endpoint = some c.base ∧
      (c.base.credentials? = none → Carries s ("Bearer " ++ s.token) (c.request call)) ∧
      ∀ user password, c.base.credentials? = some (user, password) →
        Carries s (Url.basicAuthorization user password) (c.request call) := by
  have hb := builtFrom_of_build h
  have hc := carries_request hb call
  have hu := c.credentials?_callUrl call
  refine ⟨hb.base, fun hn => ?_, fun user password hs => ?_⟩
  · rw [hn] at hu
    have ha : c.authorization (c.callUrl call) = "Bearer " ++ s.token := by
      rw [authorization, hu, hb.token]
      rfl
    rwa [ha] at hc
  · rw [hs] at hu
    have ha : c.authorization (c.callUrl call) = Url.basicAuthorization user password := by
      rw [authorization, hu]
    rwa [ha] at hc

def tenantClient : Client := { localClient with tenant := some "acme/" }

theorem request_credentials_tenant :
    build ⟨"http://h", "t", some "acme/", none⟩ = .ok tenantClient ∧ tenantClient.base.credentials? = none ∧
      Carries ⟨"http://h", "t", some "acme/", none⟩ "Bearer t" (tenantClient.request (.deletePolicy "p")) := by
  have h : build ⟨"http://h", "t", some "acme/", none⟩ = .ok tenantClient := rfl
  have hn : tenantClient.base.credentials? = none := by decide +kernel
  exact ⟨h, hn, (request_credentials h (.deletePolicy "p")).2.1 hn⟩

def userClient : Client :=
  { localClient with
    endpoint := "http://user:pw@h"
    base := { localClient.base with user := "user".toList, password := some "pw".toList } }

theorem endpoint_displaces_token :
    build ⟨"http://user:pw@h", "t", none, none⟩ = .ok userClient ∧
      ("authorization", "Bearer t") ∉ (userClient.request (.deletePolicy "p")).headers ∧
      ("authorization", "Basic dXNlcjpwdw==") ∈ (userClient.request (.deletePolicy "p")).headers := by
  refine ⟨rfl, ?_⟩
  decide +kernel

end Client

/-! ## Redirections -/

theorem Url.sameHost_self (u : Url) : u.sameHost u = true := by
  simp [sameHost]

theorem Url.sameHost_trans {u v w : Url} (h : u.sameHost v = true) (h' : v.sameHost w = true) : u.sameHost w = true := by
  simp only [sameHost, Bool.and_eq_true, beq_iff_eq] at *
  exact ⟨h.1.trans h'.1, h.2.trans h'.2⟩

namespace Http.Request

def Authorized (r : Request) : Prop := ∃ h ∈ r.headers, h.1 = "authorization"

theorem authorized_of_redirected {r : Request} {keeps : Bool} {target : Url}
    (h : (r.redirected keeps target).Authorized) : r.Authorized ∧ r.url.sameHost target = true := by
  obtain ⟨header, hmem, hname⟩ := h
  have hkept : header ∈ r.headers.filter fun h =>
      (h.1 != "authorization" || r.url.sameHost target) && (h.1 != "content-type" || keeps) := by
    change header ∈ r.carried keeps target at hmem
    unfold carried at hmem
    dsimp only at hmem
    split at hmem
    · exact hmem
    · rcases List.mem_append.mp hmem with hk | hr
      · exact (List.mem_filter.mp hk).1
      · rw [List.mem_singleton.mp hr] at hname
        exact absurd hname (by simp)
  obtain ⟨hheld, hpass⟩ := List.mem_filter.mp hkept
  simp only [hname, bne_self_eq_false, Bool.false_or, Bool.and_eq_true] at hpass
  exact ⟨⟨header, hheld, hname⟩, hpass.1⟩

theorem authorized_of_followed (answer : Answer) : ∀ (n : Nat) (r q : Request), q ∈ r.followed n answer →
    q.Authorized → r.Authorized ∧ r.url.sameHost q.url = true := by
  induction answer with
  | dropped | cut | whole => exact fun n r q hq => by cases n <;> cases hq
  | moved keeps target next ih =>
    intro n r q hq hauth
    cases n with
    | zero => cases hq
    | succ n =>
      rcases List.mem_cons.mp hq with rfl | hq
      · exact authorized_of_redirected hauth
      · -- the request in between is authorized too, and stands between the two hosts
        obtain ⟨hbetween, hlast⟩ := ih n (r.redirected keeps target) q hq hauth
        obtain ⟨hfirst, hhost⟩ := authorized_of_redirected hbetween
        exact ⟨hfirst, Url.sameHost_trans hhost hlast⟩

end Http.Request

/-- Whatever redirections there are, the credentials go to the host of the endpoint and to no other. -/
theorem Client.authorized_sent (c : Client) (call : Call) (answer : Http.Answer) :
    ∀ q ∈ (c.request call).sent answer, q.Authorized → c.base.sameHost q.url = true := by
  intro q hq hauth
  have hbase : c.base.sameHost (c.request call).url = true := by
    obtain ⟨q, hq⟩ := (c.url call.segments).addQuery_eq call.query
    have hu : (c.request call).url = ((c.url call.segments).addQuery call.query).withoutUser.withoutFragment := rfl
    rw [hu, hq]
    exact c.base.sameHost_self
  rcases List.mem_cons.mp hq with rfl | hq
  · exact hbase
  · exact Url.sameHost_trans hbase (Http.Request.authorized_of_followed answer _ _ q hq hauth).2

end ProtectionProvider
