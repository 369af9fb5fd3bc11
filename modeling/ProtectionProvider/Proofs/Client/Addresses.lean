import ProtectionProvider.Proofs.Policy.Lifecycle
import ProtectionProvider.Proofs.Url.Segment

/-!
# Where calls go

Calls for different resources are sent to different URLs as long as their identifiers are plain. An
identifier that is a dot segment, or that has tabs or line ends, can lead elsewhere
(`identifier_off_target`).
-/

namespace ProtectionProvider

namespace Call

def ids : Call → List String
  | .getPolicy id | .updatePolicy id _ | .deletePolicy id | .getGroup id _ | .listRuns id _ => [id]
  | .getRun group run _ => [group, run]
  | .listPolicies _ | .createPolicy _ | .listGroups _ | .listReports _ => []

def words : List String := ["data-protect", "policies", "protection-groups", "runs", "reports"]

theorem mem_segments {call : Call} {s : String} (h : s ∈ call.segments) : s ∈ words ∨ s ∈ call.ids := by
  cases call <;> simp only [segments, ids, words, List.mem_cons, List.not_mem_nil, or_false] at h ⊢ <;> grind

theorem isPlain_segments {call : Call} (h : ∀ id ∈ call.ids, Url.IsPlain id.toList) :
    ∀ s ∈ call.segments, Url.IsPlain s.toList := by
  intro s hs
  have hw : ∀ w ∈ words, Url.IsPlain w.toList := by decide
  rcases mem_segments hs with hm | hm
  · exact hw s hm
  · exact h s hm

theorem segments_cons (call : Call) : ∃ s rest, call.segments = s :: rest ∧ s.toList ≠ [] := by
  cases call <;> exact ⟨_, _, rfl, by decide⟩

def idsOf : List String → List String
  | [_, _, id] | [_, _, id, _] => [id]
  | [_, _, group, _, run] => [group, run]
  | _ => []

theorem idsOf_segments (call : Call) : idsOf call.segments = call.ids := by
  cases call <;> rfl

end Call

namespace Url

def origin (u : Url) : List Char := u.scheme ++ "://".toList ++ u.host ++ u.portText

theorem addQuery_eq (u : Url) (pairs : List (String × String)) : ∃ q, u.addQuery pairs = { u with query := q } := by
  cases pairs with
  | nil => exact ⟨u.query, rfl⟩
  | cons p pairs => exact ⟨some (Text.Form.append u.query (p :: pairs)), rfl⟩

end Url

namespace Client

open Policy.Resource (localClient)

/-- The path under which all requests go. -/
def root (c : Client) : List (List Char) := Url.stem (Url.dropEmptyLast c.base.path)

def pathSegments (call : Call) : List (List Char) := call.segments.map fun s => Url.written s.toList

theorem isEnd_pathSegments (call : Call) : ∀ s ∈ pathSegments call, ∀ ch ∈ s, Url.isEnd ch = false := by
  intro s hs ch hc
  obtain ⟨t, -, rfl⟩ := List.mem_map.mp hs
  exact Url.isEnd_of_mem_written hc

theorem segments_eq_of_pathSegments {call call' : Call} (h : pathSegments call = pathSegments call') :
    call.segments = call'.segments := by
  refine (List.map_inj_right ?_).mp h
  intro s t hst
  exact String.toList_injective (Url.written_injective hst)

section
variable {c : Client} {call : Call} (h : ∀ id ∈ call.ids, Url.IsPlain id.toList)
include h

theorem url_path : (c.url call.segments).path = c.root ++ pathSegments call := by
  obtain ⟨s, rest, hs, hne⟩ := call.segments_cons
  have hp : ∀ t ∈ s.toList :: rest.map String.toList, Url.IsPlain t := by
    intro t ht
    have hm : t ∈ call.segments.map String.toList := by
      rw [hs]
      exact ht
    obtain ⟨w, hw, rfl⟩ := List.mem_map.mp hm
    exact Call.isPlain_segments h w hw
  have ha := Url.append_path c.base hne hp
  unfold url pathSegments
  rw [hs]
  simpa [root, Function.comp_def] using ha

theorem request_url : ∃ q, (c.request call).url =
    { c.base with
      user := [], password := none, path := c.root ++ pathSegments call, query := q, fragment := none } := by
  obtain ⟨q, hq⟩ := (c.url call.segments).addQuery_eq call.query
  refine ⟨q, ?_⟩
  rw [← url_path h]
  show ((c.url call.segments).addQuery call.query).withoutUser.withoutFragment = _
  rw [hq]
  rfl

theorem request_chars : ∃ q : List Char, (∀ ch ∈ q.head?, ch = '?') ∧
    (c.request call).url.chars = c.base.origin ++ Url.slashed c.root ++ (Url.slashed (pathSegments call) ++ q) := by
  obtain ⟨q, hu⟩ := request_url (c := c) h
  refine ⟨q.elim [] fun q => '?' :: q, ?_, ?_⟩
  · cases q with
    | none => simp
    | some q => simp
  · rw [hu]
    simp [Url.chars, Url.userInfo, Url.pathText, Url.origin, Url.scheme, Url.portText, Url.slashed]

end

/-- Whatever two calls ask for, their requests go to different URLs if their identifiers differ. -/
theorem request_url_ne {c : Client} {call call' : Call} (h : ∀ id ∈ call.ids ++ call'.ids, Url.IsPlain id.toList)
    (hne : call.ids ≠ call'.ids) : (c.request call).url.toString ≠ (c.request call').url.toString := by
  intro he
  obtain ⟨q, hq, hu⟩ := request_chars (c := c) fun id hid => h id (List.mem_append_left _ hid)
  obtain ⟨q', hq', hu'⟩ := request_chars (c := c) fun id hid => h id (List.mem_append_right _ hid)
  have hc : (c.request call).url.chars = (c.request call').url.chars := String.ofList_injective he
  rw [hu, hu'] at hc
  have hs := Url.slashed_injective (isEnd_pathSegments call) (isEnd_pathSegments call') hq hq'
    (List.append_cancel_left hc)
  apply hne
  rw [← call.idsOf_segments, ← call'.idsOf_segments, segments_eq_of_pathSegments hs]

theorem request_url_ne_escaped :
    (∀ id ∈ (Call.deletePolicy "a/b").ids ++ (Call.deletePolicy "a%2Fb").ids, Url.IsPlain id.toList) ∧
      (Call.deletePolicy "a/b").ids ≠ (Call.deletePolicy "a%2Fb").ids ∧
      (localClient.request (.deletePolicy "a/b")).url.toString ≠
        (localClient.request (.deletePolicy "a%2Fb")).url.toString := by
  have hp : ∀ id ∈ (Call.deletePolicy "a/b").ids ++ (Call.deletePolicy "a%2Fb").ids, Url.IsPlain id.toList := by decide
  have hne : (Call.deletePolicy "a/b").ids ≠ (Call.deletePolicy "a%2Fb").ids := by decide
  exact ⟨hp, hne, request_url_ne hp hne⟩

/-- A policy can be deleted at the URL of all policies, or at that of another policy. -/
theorem identifier_off_target :
    (localClient.request (.deletePolicy ".")).url.toString = "http://h/data-protect/policies" ∧
      (localClient.request (.listPolicies (Filter.policies.expand (.unknown _)))).url.toString =
        "http://h/data-protect/policies" ∧
      (localClient.request (.deletePolicy "a\tb")).url.toString = (localClient.request (.deletePolicy "ab")).url.toString ∧
      (localClient.request (.deletePolicy ".\t.")).url.toString = "http://h/data-protect/" := by
  decide +kernel

end Client

end ProtectionProvider
