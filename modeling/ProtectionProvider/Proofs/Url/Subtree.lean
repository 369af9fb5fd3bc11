import ProtectionProvider.Proofs.Url.Segment

/-!
# Below a path

A segment that is appended neither leads upwards nor ends the path, and it takes off at most the one
segment that stands right before it (`pushSegment_concat`).
-/

namespace ProtectionProvider.Url

/-! ## Inner segments -/

def IsInner (s : List Char) : Prop :=
  isSingleDot s = false ∧ isDoubleDot s = false ∧ ∀ c ∈ s, c ∉ ['/', '\\', '?', '#']

instance (s : List Char) : Decidable (IsInner s) :=
  letI : Decidable (∀ c ∈ s, c ∉ ['/', '\\', '?', '#']) := List.decidableBAll _ s
  inferInstanceAs (Decidable (_ ∧ _))

theorem percentDecode_of_afterDot? {s r : List Char} (h : afterDot? s = some r) :
    Text.percentDecode s = Text.octets ['.'] ++ Text.percentDecode r := by
  unfold afterDot? at h
  split at h
  · cases h
    exact Text.percentDecode_cons_of_ne (by decide) r
  · cases h
    rfl
  · cases h
    rfl
  · cases h

theorem isSingleDot_written {s : List Char} (h : s ≠ ['.']) : isSingleDot (written s) = false := by
  refine Bool.eq_false_iff.mpr fun hd => h ?_
  have hd := percentDecode_of_afterDot? (beq_iff_eq.mp hd)
  rw [written, Text.percentDecode_percentEncode (by decide)] at hd
  exact Text.octets_injective hd

theorem isDoubleDot_written {s : List Char} (h : s ≠ ['.', '.']) : isDoubleDot (written s) = false := by
  refine Bool.eq_false_iff.mpr fun hd => h ?_
  obtain ⟨r, hr, hr'⟩ := Option.bind_eq_some_iff.mp (beq_iff_eq.mp hd)
  have hd := percentDecode_of_afterDot? hr
  rw [percentDecode_of_afterDot? hr', written, Text.percentDecode_percentEncode (by decide)] at hd
  exact Text.octets_injective hd

theorem not_separator_of_mem_written {s : List Char} {c : Char} (h : c ∈ written s) :
    c ∉ ['/', '\\', '?', '#'] := by
  intro hc
  have hm := Text.mem_percentEncode h
  simp only [List.mem_cons, List.not_mem_nil, or_false] at hc
  rcases hc with rfl | rfl | rfl | rfl <;> exact absurd hm (by decide)

theorem isInner_written {s : List Char} (h : s ≠ ['.']) (h' : s ≠ ['.', '.']) : IsInner (written s) :=
  ⟨isSingleDot_written h, isDoubleDot_written h', fun _ => not_separator_of_mem_written⟩

theorem isInner_nil : IsInner [] := by decide

theorem IsPlain.isInner_written {s : List Char} (h : IsPlain s) : IsInner (written s) :=
  Url.isInner_written h.1 h.2.1

/-! ## Appending after a segment -/

theorem parent_concat (path : List (List Char)) (s : List Char) :
    parent (path ++ [s]) = path ++ [s] ∨ parent (path ++ [s]) = path := by
  unfold parent
  rw [List.getLast?_concat]
  dsimp only
  split
  · exact .inl rfl
  · rw [List.dropLast_concat]
    exact .inr rfl

/-- Whatever is appended, all that stands before the last segment is kept, and something follows. -/
theorem pushSegment_concat {path : List (List Char)} (hp : path ≠ []) {w : List Char} (hw : IsInner w)
    (s : List Char) : ∃ t, t ≠ [] ∧ (∀ x ∈ t, IsInner x) ∧ pushSegment (path ++ [w]) s = path ++ t := by
  have hr : path ++ [w] ≠ [[]] := by
    intro e
    have hl := List.append_eq_singleton_iff.mp e
    simp [hp] at hl
  unfold pushSegment
  rw [stem_of_ne hr]
  split
  · exact ⟨[w], by simp, by simpa using hw, rfl⟩
  dsimp only
  split
  · rcases parent_concat path w with h | h
    · exact ⟨[w, []], by simp, by simp [hw, isInner_nil], by simp [h]⟩
    · exact ⟨[[]], by simp, by simp [isInner_nil], by rw [h]⟩
  split
  · exact ⟨[w, []], by simp, by simp [hw, isInner_nil], by simp⟩
  · rename_i hdouble hsingle
    exact ⟨[w, written _], by simp, by simpa using ⟨hw, isInner_written hsingle hdouble⟩, by simp [written]⟩

theorem parent_append {path : List (List Char)} (hn : path ≠ []) (before : List (List Char)) :
    parent (before ++ path) = before ++ parent path := by
  obtain ⟨init, s, rfl⟩ : ∃ init s, path = init ++ [s] := ⟨_, _, (List.dropLast_concat_getLast hn).symm⟩
  unfold parent
  rw [← List.append_assoc, List.getLast?_concat, List.getLast?_concat]
  dsimp only
  split
  · rw [List.append_assoc]
  · rw [List.dropLast_concat, List.dropLast_concat]

theorem pushSegment_append {path : List (List Char)} (hn : path ≠ []) (hr : path ≠ [[]]) (before : List (List Char))
    (s : List Char) : pushSegment (before ++ path) s = before ++ pushSegment path s := by
  have hb : before ++ path ≠ [[]] := by
    intro e
    rcases List.append_eq_singleton_iff.mp e with ⟨-, h⟩ | ⟨-, h⟩
    · exact hr h
    · exact hn h
  unfold pushSegment
  rw [stem_of_ne hr, stem_of_ne hb]
  split
  · rfl
  dsimp only
  split
  · rw [parent_append hn, List.append_assoc]
  split <;> rw [List.append_assoc]

/-! ## The path that is appended to -/

theorem slashed_dropEmptyLast (path : List (List Char)) :
    ∃ n, slashed path = slashed (dropEmptyLast path) ++ .replicate n '/' := by
  unfold dropEmptyLast
  split
  · rename_i h
    obtain ⟨init, hi⟩ := List.getLast?_eq_some_iff.mp h.2
    exact ⟨1, by rw [hi]; simp [slashed]⟩
  · exact ⟨0, by simp⟩

theorem slashed_stem (path : List (List Char)) : ∃ n, slashed path = slashed (stem path) ++ .replicate n '/' := by
  unfold stem
  split
  · exact ⟨1, rfl⟩
  · exact ⟨0, by simp⟩

/-- Only slashes are taken off the end of a path before it is appended to. -/
theorem slashed_stem_dropEmptyLast (path : List (List Char)) :
    ∃ n, slashed path = slashed (stem (dropEmptyLast path)) ++ .replicate n '/' := by
  obtain ⟨m, hm⟩ := slashed_dropEmptyLast path
  obtain ⟨n, hn⟩ := slashed_stem (dropEmptyLast path)
  refine ⟨n + m, ?_⟩
  rw [hm, hn, List.append_assoc, List.replicate_append_replicate]

end ProtectionProvider.Url
