import Mathlib.Data.List.Forall2
import ProtectionProvider.Proofs.Client.Addresses
import ProtectionProvider.Proofs.Client.Building
import ProtectionProvider.Proofs.Text.Form
import ProtectionProvider.Proofs.Url.Subtree

/-!
# Where calls cannot go

The endpoint fixes the origin of every request and the path that it goes under. An identifier stands
only after a fixed word, of which it can take off no more than that word, so that nothing it holds
leads out of the area of the API that the call is for.
-/

namespace ProtectionProvider

/-! ## Routes -/

inductive Call.Part where
  | word (w : String)
  | given (id : String)

namespace Call

def Part.text : Part → String
  | .word w => w
  | .given id => id

def Part.Fills (t : List Char) : Part → Prop
  | .word w => t = w.toList
  | .given id => Text.percentDecode t = Text.octets id.toList

def area : Call → String
  | .listReports _ => "reports"
  | _ => "data-protect"

/-- The parts of the path after the area. -/
def route : Call → List Part
  | .listPolicies _ | .createPolicy _ => [.word "policies"]
  | .getPolicy id | .updatePolicy id _ | .deletePolicy id => [.word "policies", .given id]
  | .listGroups _ => [.word "protection-groups"]
  | .getGroup id _ => [.word "protection-groups", .given id]
  | .listRuns group _ => [.word "protection-groups", .given group, .word "runs"]
  | .getRun group run _ => [.word "protection-groups", .given group, .word "runs", .given run]
  | .listReports _ => []

theorem segments_eq (call : Call) : call.segments = call.area :: call.route.map Part.text := by
  cases call <;> rfl

def IsWord (w : String) : Prop := Url.IsPlain w.toList ∧ Url.written w.toList = w.toList

instance (w : String) : Decidable (IsWord w) := inferInstanceAs (Decidable (_ ∧ _))

theorem isWord_area (call : Call) : IsWord call.area := by
  cases call <;> simp only [area] <;> decide

/-- Every identifier of a route comes right after a word, and the first part after one if `wordBefore` says so. -/
def Guarded : Bool → List Part → Prop
  | _, [] => True
  | _, .word w :: parts => IsWord w ∧ Guarded true parts
  | wordBefore, .given _ :: parts => wordBefore = true ∧ Guarded false parts

theorem guarded_route (call : Call) : Guarded false call.route := by
  cases call <;> simp only [route, Guarded] <;> decide

theorem fills_written : ∀ {parts : List Part} {wordBefore : Bool}, Guarded wordBefore parts →
    List.Forall₂ Part.Fills (parts.map fun p => Url.written p.text.toList) parts
  | [], _, _ => .nil
  | .word _ :: _, _, ⟨hw, hg⟩ => .cons hw.2 (fills_written hg)
  | .given _ :: _, _, ⟨_, hg⟩ => .cons (Text.percentDecode_percentEncode (by decide) _) (fills_written hg)

end Call

/-! ## Appending a route -/

namespace Url

theorem append_ne_root {path : List (List Char)} (hp : path ≠ []) (hr : path ≠ [[]]) (t : List (List Char)) :
    path ++ t ≠ [[]] := by
  intro e
  rcases List.append_eq_singleton_iff.mp e with ⟨h, -⟩ | ⟨h, -⟩
  · exact hp h
  · exact hr h

-- `t` is what has been appended so far; its last segment is the word that the next identifier may take off
theorem foldl_pushSegment_route {path : List (List Char)} (hp : path ≠ []) (hr : path ≠ [[]]) :
    ∀ (parts : List Call.Part) (wordBefore : Bool) (t : List (List Char)), Call.Guarded wordBefore parts →
      (wordBefore = true → ∃ init w, t = init ++ [w]) → (∀ s ∈ t, IsInner s) →
      ∃ t', (parts.map fun p => p.text.toList).foldl pushSegment (path ++ t) = path ++ t' ∧
        (∀ s ∈ t', IsInner s) ∧ (t' = [] ↔ t = [] ∧ parts = [])
  | [], _, t, _, _, ht => ⟨t, rfl, ht, by simp⟩
  | .word w :: parts, _, t, hg, _, ht => by
    obtain ⟨hw, hg⟩ := hg
    have hpush : pushSegment (path ++ t) w.toList = path ++ (t ++ [written w.toList]) := by
      rw [pushSegment_of_isPlain hw.1, stem_of_ne (append_ne_root hp hr t), List.append_assoc]
    obtain ⟨t', he, hi, hn⟩ := foldl_pushSegment_route hp hr parts true (t ++ [written w.toList]) hg
      (fun _ => ⟨t, _, rfl⟩) (by simpa [or_imp, forall_and] using ⟨ht, hw.1.isInner_written⟩)
    refine ⟨t', ?_, hi, by simp [hn]⟩
    rw [List.map_cons, List.foldl_cons, Call.Part.text, hpush]
    exact he
  | .given id :: parts, _, t, hg, hb, ht => by
    obtain ⟨hword, hg⟩ := hg
    -- the word before the identifier is all that can go
    obtain ⟨init, w, rfl⟩ := hb hword
    have hw : IsInner w := ht w (by simp)
    obtain ⟨u, hu, hui, hpush⟩ := pushSegment_concat (show path ++ init ≠ [] by simp [hp]) hw id.toList
    obtain ⟨t', he, hi, hn⟩ := foldl_pushSegment_route hp hr parts false (init ++ u) hg (fun h => by cases h)
      (by
        intro s hs
        rcases List.mem_append.mp hs with h | h
        · exact ht s (List.mem_append_left _ h)
        · exact hui s h)
    refine ⟨t', ?_, hi, by simp [hn, hu]⟩
    rw [List.map_cons, List.foldl_cons, Call.Part.text, ← List.append_assoc, hpush, List.append_assoc]
    exact he

def ownQuery (u : Url) : List Char :=
  match u.query with
  | none | some [] => []
  | some q => q ++ ['&']

theorem addQuery_query (u : Url) (pairs : List (String × String)) :
    (u.addQuery pairs).query = if pairs = [] then u.query else some (u.ownQuery ++ Text.Form.encode pairs) := by
  cases pairs with
  | nil => rfl
  | cons p pairs => rcases hq : u.query with _ | _ | ⟨c, q⟩ <;> simp [addQuery, Text.Form.append, ownQuery, hq]

end Url

/-! ## Requests -/

namespace Client

/-- The request goes to the origin of the endpoint, below its path, and asks for what the query of the
endpoint and the options of the call say. -/
structure Confined (c : Client) (call : Call) (u : Url) : Prop where
  origin : u.secure = c.base.secure ∧ u.host = c.base.host ∧ u.port = c.base.port
  text : u.chars = c.base.origin ++ Url.slashed u.path ++ u.query.elim [] fun q => '?' :: q
  query : u.query = if call.query = [] then c.base.query else some (c.base.ownQuery ++ Text.Form.encode call.query)
  options : ∀ ch ∈ Text.Form.encode call.query, Text.Form.isFormChar ch = true
  /-- Only slashes at its end are missing from the path of the endpoint. -/
  root : ∃ n, Url.slashed c.base.path = Url.slashed c.root ++ .replicate n '/'
  below : ∃ rest, u.path = c.root ++ call.area.toList :: rest ∧ (∀ s ∈ rest, Url.IsInner s) ∧
    (rest = [] ↔ call.route = []) ∧
    ((∀ id ∈ call.ids, Url.IsPlain id.toList) → List.Forall₂ Call.Part.Fills rest call.route)

section
variable (c : Client) (call : Call)

theorem request_url_eq : (c.request call).url =
    { c.base with
      user := [], password := none, path := (c.url call.segments).path, query := (c.base.addQuery call.query).query
      fragment := none } := by
  have hq : (c.callUrl call).query = (c.base.addQuery call.query).query := by
    rw [callUrl, Url.addQuery_query, Url.addQuery_query]
    rfl
  obtain ⟨q, hu⟩ := (c.url call.segments).addQuery_eq call.query
  rw [← hq]
  show (c.callUrl call).withoutUser.withoutFragment = _
  rw [callUrl, hu]
  rfl

theorem url_path_below : ∃ rest, (c.url call.segments).path = c.root ++ call.area.toList :: rest ∧
    (∀ s ∈ rest, Url.IsInner s) ∧ (rest = [] ↔ call.route = []) := by
  have hw := call.isWord_area
  have ha : call.area.toList ≠ [] := by cases call <;> simp only [Call.area] <;> decide
  -- the area ends the path that is kept, so that a bare `/` is never what a route is appended to
  have hroot : c.root ++ [call.area.toList] ≠ [[]] := by
    intro e
    have hl := List.append_eq_singleton_iff.mp e
    simp [ha] at hl
  have hpush : Url.pushSegment (Url.dropEmptyLast c.base.path) call.area.toList = c.root ++ [call.area.toList] := by
    rw [Url.pushSegment_of_isPlain hw.1, hw.2]
    rfl
  obtain ⟨rest, he, hi, hn⟩ := Url.foldl_pushSegment_route (by simp) hroot call.route false [] call.guarded_route
    (fun h => by cases h) (fun s hs => by cases hs)
  refine ⟨rest, ?_, hi, by simp [hn]⟩
  rw [List.append_cons, ← he, List.append_nil, ← hpush, call.segments_eq]
  simp [url, Url.append, Function.comp_def]

theorem url_path_filled (h : ∀ id ∈ call.ids, Url.IsPlain id.toList) :
    (c.url call.segments).path =
      c.root ++ call.area.toList :: call.route.map fun p => Url.written p.text.toList := by
  rw [url_path h, pathSegments, call.segments_eq, List.map_cons, call.isWord_area.2, List.map_map]
  rfl

theorem confined : Confined c call (c.request call).url := by
  obtain ⟨rest, hp, hi, hn⟩ := c.url_path_below call
  have hfills : (∀ id ∈ call.ids, Url.IsPlain id.toList) → List.Forall₂ Call.Part.Fills rest call.route := by
    intro h
    have he := hp.symm.trans (c.url_path_filled call h)
    rw [List.tail_eq_of_cons_eq (List.append_cancel_left he)]
    exact Call.fills_written call.guarded_route
  rw [request_url_eq]
  exact {
    origin := ⟨rfl, rfl, rfl⟩
    text := by simp [Url.chars, Url.userInfo, Url.pathText, Url.origin, Url.scheme, Url.portText, Url.slashed]
    query := c.base.addQuery_query call.query
    options := fun _ => Text.Form.isFormChar_of_mem_encode
    root := Url.slashed_stem_dropEmptyLast c.base.path
    below := ⟨rest, hp, hi, hn, hfills⟩ }

end

/-- Whatever the identifiers and options are, a request stays under the endpoint that was accepted. -/
theorem request_confined {s : Settings} {c : Client} (h : build s = .ok c) (call : Call) :
    base? s.endpoint = some c.base ∧ Confined c call (c.request call).url :=
  ⟨(builtFrom_of_build h).base, c.confined call⟩

def nestedClient : Client where
  endpoint := "http://h/v2/?a=b#f"
  base := ⟨false, [], none, ['h'], none, ["v2".toList, []], some "a=b".toList, some ['f']⟩
  token := "t"
  tenant := none
  userAgent := defaultUserAgent

theorem request_confined_climbing :
    build ⟨"http://h/v2/?a=b#f", "t", none, none⟩ = .ok nestedClient ∧
      base? "http://h/v2/?a=b#f" = some nestedClient.base ∧
      Confined nestedClient (.getRun ".\t." "../?x#y" (Filter.run.expand (.unknown _)))
        (nestedClient.request (.getRun ".\t." "../?x#y" (Filter.run.expand (.unknown _)))).url ∧
      (nestedClient.request (.getRun ".\t." "../?x#y" (Filter.run.expand (.unknown _)))).url.toString =
        "http://h/v2/data-protect//runs/..%2F%3Fx%23y?a=b" := by
  have h : build ⟨"http://h/v2/?a=b#f", "t", none, none⟩ = .ok nestedClient := rfl
  obtain ⟨hbase, hconfined⟩ := request_confined h (.getRun ".\t." "../?x#y" (Filter.run.expand (.unknown _)))
  exact ⟨h, hbase, hconfined, by decide +kernel⟩

end Client

end ProtectionProvider
