import ProtectionProvider.Proofs.Client.Confinement
import ProtectionProvider.Proofs.Url.Reading

/-!
# The parameters of requests

The far end reads off the text of a request the parameters of the endpoint and then those of the call, as
they were set. No value adds a parameter, takes one away, or changes another.
-/

namespace ProtectionProvider

open Text (Form.read)

/-- The parameters that the query of a URL spells. -/
def Url.parameters (u : Url) : List (String × String) := Form.read (u.query.getD [])

theorem Url.parameters_addQuery (u : Url) (pairs : List (String × String)) :
    (u.addQuery pairs).parameters = u.parameters ++ pairs := by
  cases pairs with
  | nil => simp [addQuery]
  | cons p pairs =>
    show Form.read (Text.Form.append u.query (p :: pairs)) = _
    unfold Text.Form.append parameters
    split
    · rename_i hu
      rw [hu, Text.Form.read_encode]
      rfl
    · rename_i hu
      rw [hu, Text.Form.read_encode]
      rfl
    · rename_i q hu
      rw [hu, Text.Form.read_append, Text.Form.read_encode]
      rfl

namespace Client

theorem tidy_base {s : Settings} {c : Client} (h : build s = .ok c) : c.base.Tidy := by
  have hb := (builtFrom_of_build h).base
  unfold base? at hb
  dsimp only at hb
  split at hb
  · exact Url.tidy_of_read hb
  · cases hb

theorem read_request {c : Client} (h : c.base.Tidy) (call : Call) :
    Form.read (Url.queryOf (c.request call).url.toString) = c.base.parameters ++ call.query := by
  have ht : (c.callUrl call).Tidy := (h.append _).addQuery _
  have hq : Url.queryOf (c.request call).url.toString = (c.callUrl call).query.getD [] := ht.queryOf_toString
  rw [hq]
  exact Url.parameters_addQuery (c.url call.segments) call.query

/-- What is read off the text of a request is what the endpoint and the options of the call say. -/
theorem request_parameters {s : Settings} {c : Client} (h : build s = .ok c) (call : Call) :
    base? s.endpoint = some c.base ∧
      Form.read (Url.queryOf (c.request call).url.toString) = c.base.parameters ++ call.query ∧
      (call.query = [] → (c.request call).url.query = c.base.query) := by
  refine ⟨(builtFrom_of_build h).base, read_request (tidy_base h) call, ?_⟩
  intro hn
  show ((c.url call.segments).addQuery call.query).query = _
  rw [hn]
  rfl

/-- An identifier that spells another parameter is read as an identifier. -/
theorem request_parameters_forged :
    build ⟨"http://h/v2/?a=b#f", "t", none, none⟩ = .ok nestedClient ∧
      Form.read (Url.queryOf (nestedClient.request (.listReports (some ["x&a=c", "é+ #%"], ()))).url.toString) =
        [("a", "b"), ("ids", "x&a=c,é+ #%")] := by
  have h : build ⟨"http://h/v2/?a=b#f", "t", none, none⟩ = .ok nestedClient := rfl
  have hb : nestedClient.base.parameters = [("a", "b")] := by decide +kernel
  have hq : (Call.listReports (some ["x&a=c", "é+ #%"], ())).query = [("ids", "x&a=c,é+ #%")] := by decide +kernel
  refine ⟨h, ?_⟩
  rw [(request_parameters h _).2.1, hb, hq]
  rfl

end Client

end ProtectionProvider
