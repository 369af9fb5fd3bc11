import ProtectionProvider.Proofs.Text.Percent
import ProtectionProvider.Text.Octets

/-!
# Encoded forms

In a name or a value that is encoded nothing is left of what joins names, values and pairs. So a form is
read as it was written, whatever its names and values are (`read_encode`).
-/

namespace ProtectionProvider.Text

theorem mem_intercalate {sep : List Char} {c : Char} : ∀ {ls : List (List Char)}, c ∈ List.intercalate sep ls →
    c ∈ sep ∨ ∃ l ∈ ls, c ∈ l
  | [], h => by simp at h
  | [l], h => .inr ⟨l, by simp, by simpa using h⟩
  | l :: m :: ls, h => by
    rw [List.intercalate_cons_cons, List.append_assoc, List.mem_append, List.mem_append] at h
    rcases h with h | h | h
    · exact .inr ⟨l, by simp, h⟩
    · exact .inl h
    · rcases mem_intercalate h with h | ⟨x, hx, h⟩
      · exact .inl h
      · exact .inr ⟨x, List.mem_cons_of_mem _ hx, h⟩

namespace Form

/-! ## Characters -/

/-- Between plain characters there are only escapes, blanks and what joins names, values and pairs. -/
def isFormChar (c : Char) : Bool := isPlain c || ['%', '+', '=', '&'].contains c

theorem isPlain_of_isAlphanum {c : Char} (h : c.isAlphanum = true) : isPlain c = true := by
  simp [isPlain, h]

theorem mem_percentChar {c d : Char} (h : d ∈ percentChar isPlain c) : isPlain d = true ∨ d = '%' := by
  have hm : d ∈ percentEncode isPlain [c] := by simpa [percentEncode] using h
  rcases mem_percentEncode hm with hp | hp | ha
  · exact .inl hp
  · exact .inr hp
  · exact .inl (isPlain_of_isAlphanum ha)

theorem mem_encodeText {s : String} {c : Char} (h : c ∈ encodeText s) : isPlain c = true ∨ c = '%' ∨ c = '+' := by
  obtain ⟨d, -, hd⟩ := List.mem_flatMap.mp h
  split at hd
  · exact .inr (.inr (List.mem_singleton.mp hd))
  · rcases mem_percentChar hd with hp | hp
    · exact .inl hp
    · exact .inr (.inl hp)

theorem isFormChar_of_mem_encodeText {s : String} {c : Char} (h : c ∈ encodeText s) : isFormChar c = true := by
  rcases mem_encodeText h with hp | rfl | rfl
  · simp [isFormChar, hp]
  · rfl
  · rfl

theorem isFormChar_of_mem_encodePair {p : String × String} {c : Char} (h : c ∈ encodePair p) : isFormChar c = true := by
  rcases List.mem_append.mp h with h | h
  · exact isFormChar_of_mem_encodeText h
  · rcases List.mem_cons.mp h with rfl | h
    · rfl
    · exact isFormChar_of_mem_encodeText h

theorem isFormChar_of_mem_encode {pairs : List (String × String)} {c : Char} (h : c ∈ encode pairs) :
    isFormChar c = true := by
  rcases mem_intercalate h with h | ⟨l, hl, h⟩
  · rw [List.mem_singleton.mp h]
    rfl
  · obtain ⟨p, -, rfl⟩ := List.mem_map.mp hl
    exact isFormChar_of_mem_encodePair h

theorem notMem_encodeText {c : Char} (hp : isPlain c = false) (he : c ≠ '%') (hb : c ≠ '+') (s : String) :
    c ∉ encodeText s := by
  intro h
  rcases mem_encodeText h with h | h | h
  · simp [hp] at h
  · exact he h
  · exact hb h

/-! ## Reading -/

def ofPlus (c : Char) : Char := if c = '+' then ' ' else c

def readText (s : List Char) : String := decodeLossy (percentDecode (s.map ofPlus))

def readPair (s : List Char) : String × String :=
  (readText (s.takeWhile (· != '=')), readText ((s.dropWhile (· != '=')).drop 1))

/-- The pairs are what stands between ampersands, where nothing is no pair. -/
def read (s : List Char) : List (String × String) := ((s.splitOn '&').filter (· ≠ [])).map readPair

theorem map_ofPlus_percentChar (c : Char) : (percentChar isPlain c).map ofPlus = percentChar isPlain c := by
  have hm : ∀ d ∈ percentChar isPlain c, ofPlus d = d := by
    intro d hd
    have hne : d ≠ '+' := by
      intro h
      subst h
      rcases mem_percentChar hd with h | h <;> exact absurd h (by decide)
    simp [ofPlus, hne]
  rw [List.map_congr_left hm, List.map_id']

theorem percentDecode_map_encodeText (s : String) : percentDecode ((encodeText s).map ofPlus) = octets s.toList := by
  unfold encodeText
  induction s.toList with
  | nil => rfl
  | cons c l ih =>
    rw [List.flatMap_cons, List.map_append]
    by_cases hc : c = ' '
    · subst hc
      simp only [if_true, List.map_cons, List.map_nil, List.cons_append, List.nil_append]
      rw [show ofPlus '+' = ' ' from rfl, percentDecode_cons_of_ne (by decide), ih]
      rfl
    · rw [if_neg hc, map_ofPlus_percentChar, percentDecode_percentChar (by decide), ih]
      rfl

theorem readText_encodeText (s : String) : readText (encodeText s) = s := by
  rw [readText, percentDecode_map_encodeText, decodeLossy_octets]

theorem readPair_encodePair (p : String × String) : readPair (encodePair p) = p := by
  have hn : ∀ c ∈ encodeText p.1, (c != '=') = true := by
    intro c hc
    have hne : c ≠ '=' := fun h => notMem_encodeText (by decide) (by decide) (by decide) p.1 (h ▸ hc)
    simp [hne]
  rw [readPair, encodePair, List.takeWhile_append_of_pos hn, List.dropWhile_append_of_pos hn]
  simp [readText_encodeText]

theorem notMem_encodePair (p : String × String) : '&' ∉ encodePair p := by
  have h : ∀ s, '&' ∉ encodeText s := notMem_encodeText (by decide) (by decide) (by decide)
  simp [encodePair, h]

theorem read_encode (pairs : List (String × String)) : read (encode pairs) = pairs := by
  cases pairs with
  | nil => rfl
  | cons p pairs =>
    have hs : (encode (p :: pairs)).splitOn '&' = (p :: pairs).map encodePair := by
      apply List.splitOn_intercalate
      · intro l hl
        obtain ⟨q, -, rfl⟩ := List.mem_map.mp hl
        exact notMem_encodePair q
      · simp
    have hf : ((p :: pairs).map encodePair).filter (· ≠ []) = (p :: pairs).map encodePair := by
      apply List.filter_eq_self.mpr
      intro l hl
      obtain ⟨q, -, rfl⟩ := List.mem_map.mp hl
      simp [encodePair]
    rw [read, hs, hf, List.map_map]
    exact List.map_id'' readPair_encodePair _

theorem read_append (s t : List Char) : read (s ++ '&' :: t) = read s ++ read t := by
  simp [read, List.splitOn_append_cons_self]

end Form

end ProtectionProvider.Text
