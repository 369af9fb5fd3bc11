import ProtectionProvider.Proofs.Session.Reports

/-!
# What is shown of a refusal

A refusal is a whole answer whose status is no success. If its body is an object that explains itself, the
error and the report of it begin with that explanation (`explanation_shown`). A member of the wrong kind
hides it (`explanation_hidden`). Where no explanation can be taken from a body, its first characters are
shown, without those that are controls (`excerpt_shown`).
-/

namespace ProtectionProvider

open Policy.Resource (localClient)

/-! ## Excerpts -/

namespace Text

def visible (body : String) : List Char := body.toList.filter fun c => !isControl c

/-- The message shows the characters `head` of the body, and says so if they are not all. -/
structure Shows (body message : String) (head : List Char) : Prop where
  clean : ∀ c ∈ message.toList, isControl c = false
  leading : head <+: visible body
  bound : head.length ≤ 200
  whole : (visible body).length ≤ 200 → head = visible body ∧ message = .ofList head
  cut : 200 < (visible body).length → head.length = 200 ∧ message = .ofList head ++
    ("... [truncated, " ++ toString (octets body.toList).length ++ " bytes total]")

theorem utf8ByteSize_eq (s : String) : s.utf8ByteSize = (octets s.toList).length := by
  have hs : s.toByteArray = s.toList.utf8Encode := by
    rw [← String.toByteArray_ofList, String.ofList_toList]
  rw [← String.size_toByteArray, hs]
  exact List.size_toByteArray

theorem isControl_of_mem_visible {body : String} {c : Char} (h : c ∈ visible body) : isControl c = false := by
  simpa using (List.mem_filter.mp h).2

theorem isControl_of_isDigit {c : Char} (h : c.isDigit = true) : isControl c = false := by
  have hd : 48 ≤ c.toNat ∧ c.toNat ≤ 57 := Char.isDigit_iff_toNat.mp h
  refine Bool.eq_false_iff.mpr fun hc => ?_
  simp only [isControl, Bool.or_eq_true, Bool.and_eq_true, decide_eq_true_eq] at hc
  omega

theorem isControl_of_mem_note {n : Nat} {c : Char}
    (h : c ∈ ("... [truncated, " ++ toString n ++ " bytes total]").toList) : isControl c = false := by
  rw [String.toList_append, String.toList_append, List.mem_append, List.mem_append] at h
  have hall : (("... [truncated, ".toList ++ " bytes total]".toList).all fun c => !isControl c) = true := by decide
  have hl : ∀ c ∈ "... [truncated, ".toList ++ " bytes total]".toList, isControl c = false := fun c hc => by
    simpa using List.all_eq_true.mp hall c hc
  rcases h with (h | h) | h
  · exact hl c (List.mem_append_left _ h)
  · rw [Nat.toString_eq_ofList_toDigits, String.toList_ofList] at h
    exact isControl_of_isDigit (Nat.isDigit_of_mem_toDigits (by decide) (by decide) h)
  · exact hl c (List.mem_append_right _ h)

theorem shows_excerpt (body : String) : ∃ head, Shows body (excerpt body) head := by
  by_cases h : (visible body).length ≤ 200
  · have he : excerpt body = .ofList (visible body) := if_pos h
    rw [he]
    refine ⟨visible body, ?_, List.prefix_refl _, h, fun _ => ⟨rfl, rfl⟩, fun hc => absurd h (Nat.not_le.mpr hc)⟩
    intro c hc
    rw [String.toList_ofList] at hc
    exact isControl_of_mem_visible hc
  · have he : excerpt body = .ofList ((visible body).take 200) ++
        ("... [truncated, " ++ toString (octets body.toList).length ++ " bytes total]") := by
      rw [← utf8ByteSize_eq, ← String.append_assoc, ← String.append_assoc]
      exact if_neg h
    rw [he]
    refine ⟨(visible body).take 200, ?_, List.take_prefix _ _, List.length_take_le _ _, fun hw => absurd hw h, ?_⟩
    · intro c hc
      rw [String.toList_append, String.toList_ofList, List.mem_append] at hc
      rcases hc with hc | hc
      · exact isControl_of_mem_visible (List.mem_of_mem_take hc)
      · exact isControl_of_mem_note hc
    · intro hc
      exact ⟨List.length_take_of_le (Nat.le_of_lt hc), rfl⟩

end Text

/-! ## Bodies that explain themselves -/

namespace ApiError

/-- The members are of the form that is declared for a refusal, and give this message. -/
structure Explains (message : String) (ms : List (String × Json)) : Prop where
  unique : (ms.map Prod.fst).Nodup
  message : ("message", .str message) ∈ ms
  code : ∀ j, ("errorCode", j) ∈ ms → j = .null ∨ ∃ code, j = .str code

theorem readMember_text {name : String} {ms : List (String × Json)} (unique : (ms.map Prod.fst).Nodup)
    (h : ∀ j, (name, j) ∈ ms → j = .null ∨ ∃ text, j = .str text) : ∃ v, readMember string? name ms = some v := by
  by_cases hn : name ∈ ms.map Prod.fst
  · obtain ⟨⟨_, j⟩, hj, rfl⟩ := List.mem_map.mp hn
    rw [readMember_of_single string? (withName_of_mem unique hj)]
    rcases h j hj with rfl | ⟨text, rfl⟩
    · exact ⟨none, rfl⟩
    · exact ⟨some text, by simp [nullable, Json.str, string?]⟩
  · exact ⟨none, readMember_of_nil string? (withName_eq_nil hn)⟩

theorem Explains.decode {message : String} {ms : List (String × Json)} (h : Explains message ms) :
    ∃ code : Option String, details.decode (.obj ms) = some (some message, code, ()) := by
  obtain ⟨code, hc⟩ := readMember_text h.unique h.code
  have hm : readMember string? "message" ms = some (some message) := by
    rw [readMember_of_single string? (withName_of_mem h.unique h.message)]
    simp [nullable, Json.str, string?]
  refine ⟨code, ?_⟩
  show (named? _).bind details.ofMembers = _
  rw [named?_eq_some.mpr rfl]
  exact Fields.ofMembers_cons.mpr ⟨hm, Fields.ofMembers_cons.mpr ⟨hc, rfl⟩⟩

theorem Explains.bodyMessage {body message : String} {ms : List (String × Json)}
    (hb : Json.read? body = some (.obj ms)) (h : Explains message ms) :
    ∃ rest, bodyMessage body = message ++ rest := by
  obtain ⟨code, hd⟩ := h.decode
  have hm : (Json.read? body).bind details.decode = some (some message, code, ()) := by
    rw [hb]
    exact hd
  unfold ApiError.bodyMessage
  rw [hm]
  cases code with
  | none => exact ⟨"", (String.append_empty).symm⟩
  | some code => exact ⟨" (" ++ code ++ ")", by simp only [String.append_assoc]⟩

/-- No message can be taken from the body. -/
def Wordless (body : String) : Prop := ∀ m, (Json.read? body).bind details.decode = some m → m.1 = none

theorem bodyMessage_of_wordless {body : String} (h : Wordless body) : bodyMessage body = Text.excerpt body := by
  unfold bodyMessage
  split
  · next hm => cases h _ hm
  · next hm => cases h _ hm
  · rfl

end ApiError

theorem Client.result_of_refusal {c : Client} {call : Call} {answer : Http.Answer} {status : Nat} {body : Text.Octets}
    (h : c.arrived call answer = .whole status body) (hs : Http.isSuccess status = false) :
    c.result call answer = .error (.status status (ApiError.bodyMessage (bodyText status body))) :=
  (result_of_arrived h).trans (Call.conclude_of_refusal hs body)

theorem explanation_shown {status : Nat} (hr : Http.isSuccess status = false) {body : Text.Octets}
    {ms : List (String × Json)} (hb : Json.read? (Client.bodyText status body) = some (.obj ms))
    {message : String} (h : ApiError.Explains message ms) :
    ∃ rest, ApiError.bodyMessage (Client.bodyText status body) = message ++ rest ∧
      ∀ (c : Client) (call : Call) (answer : Http.Answer), c.arrived call answer = .whole status body →
        c.result call answer = .error (.status status (message ++ rest)) ∧
          ∀ (s : Step) (now complaint : String) (r : Conclusion), s.call? = some call →
            (s.result (some c) now answer).conclusion? = some r →
            r.texts complaint = if s.forgiving && status == 404 then []
              else [(call.operation ++ " failed",
                "API returned " ++ Http.statusLine status ++ ": " ++ (message ++ rest), [])] := by
  obtain ⟨rest, he⟩ := h.bodyMessage hb
  refine ⟨rest, he, fun c call answer ha => ?_⟩
  have hc : c.result call answer = .error (.status status (message ++ rest)) := by
    rw [Client.result_of_refusal ha hr, he]
  refine ⟨hc, fun s now complaint r hcall hend => ?_⟩
  rw [((Step.reported hend).tells call hcall).failed c _ complaint rfl hc]
  rfl

def takenName : String := "\x7b\"causes\":[5],\"message\":\"name is taken\",\"errorCode\":\"KConflict\"\x7d"

theorem explanation_shown_taken :
    ∃ rest, localClient.result (.createPolicy Policy.Resource.silent)
        (.whole 409 (Text.octets takenName.toList)) = .error (.status 409 ("name is taken" ++ rest)) := by
  have hb : Json.read? (Client.bodyText 409 (Text.octets takenName.toList)) =
      some (.obj [("causes", .array [.int 5]), ("message", .str "name is taken"), ("errorCode", .str "KConflict")]) :=
    (congrArg Json.read? (Text.decodeLossy_octets takenName)).trans rfl
  obtain ⟨rest, -, h⟩ := explanation_shown (by decide) hb
    ⟨by decide, .tail _ (.head _), fun j hj => .inr ⟨"KConflict", by simpa using hj⟩⟩
  have hs : localClient.Sends (.createPolicy Policy.Resource.silent) := by decide +kernel
  exact ⟨rest, (h localClient (.createPolicy Policy.Resource.silent) _ (Client.arrived_of_sends hs _)).1⟩

/-- The body is an object with this message and no repeated names, but what is shown does not begin with it. -/
structure ApiError.Hidden (message body : String) (ms : List (Json.Text × Json)) : Prop where
  read : Json.read? body = some (.object ms)
  unique : (ms.map Prod.fst).Nodup
  given : (.ofString "message", .str message) ∈ ms
  hidden : ∃ shown, localClient.result (.deletePolicy "p") (.whole 400 (Text.octets body.toList)) =
    .error (.status 400 shown) ∧ ¬ message.toList <+: shown.toList

theorem explanation_hidden :
    ApiError.Hidden "m" "\x7b\"message\":\"m\",\"errorCode\":5\x7d"
        [(.ofString "message", .str "m"), (.ofString "errorCode", .int 5)] ∧
      ApiError.Hidden "m" "\x7b\"message\":\"m\",\"\\ud83d\":5\x7d"
        [(.ofString "message", .str "m"), ([0xD83D], .int 5)] := by
  have hs : localClient.Sends (.deletePolicy "p") := by decide +kernel
  refine ⟨⟨rfl, by decide, .head _, _, Client.result_of_refusal (Client.arrived_of_sends hs _) rfl, by decide +kernel⟩,
    ⟨rfl, by decide, .head _, _, Client.result_of_refusal (Client.arrived_of_sends hs _) rfl, by decide +kernel⟩⟩

theorem excerpt_shown {status : Nat} (hr : Http.isSuccess status = false) {body : Text.Octets}
    (h : ApiError.Wordless (Client.bodyText status body)) :
    ∃ message head, Text.Shows (Client.bodyText status body) message head ∧
      (∀ (c : Client) (call : Call) (answer : Http.Answer), c.arrived call answer = .whole status body →
        c.result call answer = .error (.status status message)) ∧
      (Http.isBodiless status = false → ∀ text : String, body = Text.octets text.toList →
        Client.bodyText status body = text) := by
  obtain ⟨head, hh⟩ := Text.shows_excerpt (Client.bodyText status body)
  refine ⟨_, head, hh, fun c call answer ha => ?_, fun hb text ht => ?_⟩
  · rw [Client.result_of_refusal ha hr, ApiError.bodyMessage_of_wordless h]
  · rw [Client.bodyText, hb, ht]
    exact Text.decodeLossy_octets text

def wide : String := .ofList ('\n' :: .replicate 201 'é')

theorem excerpt_shown_wide :
    ∃ head, head.length = 200 ∧ localClient.result (.deletePolicy "p") (.whole 502 (Text.octets wide.toList)) =
        .error (.status 502 (.ofList head ++ "... [truncated, 403 bytes total]")) := by
  have hb : Client.bodyText 502 (Text.octets wide.toList) = wide := Text.decodeLossy_octets wide
  have hl : wide.toList = '\n' :: .replicate 201 'é' := String.toList_ofList
  have hw : ApiError.Wordless (Client.bodyText 502 (Text.octets wide.toList)) := by
    have hn : (Json.read? wide).isNone = true := by
      rw [Json.read?, hl]
      decide +kernel
    intro m hm
    rw [hb, Option.isNone_iff_eq_none.mp hn] at hm
    cases hm
  obtain ⟨message, head, hs, hc, -⟩ := excerpt_shown (by decide) hw
  rw [hb] at hs
  have hlong : 200 < (Text.visible wide).length := by
    rw [Text.visible, hl]
    decide +kernel
  have hsize : (Text.octets wide.toList).length = 403 := by
    rw [hl]
    decide +kernel
  obtain ⟨hlength, hmessage⟩ := hs.cut hlong
  refine ⟨head, hlength, ?_⟩
  have hs : localClient.Sends (.deletePolicy "p") := by decide +kernel
  rw [hc localClient (.deletePolicy "p") _ (Client.arrived_of_sends hs _), hmessage, hsize]
  rfl

end ProtectionProvider
