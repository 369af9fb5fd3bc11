import ProtectionProvider.Client.Call
import ProtectionProvider.Proofs.Text.Percent

/-!
# Appended segments

A segment that is neither a dot segment nor broken up by characters that are dropped is appended in
its place, escaped, and what follows it is appended after it. The text of a URL shows where one
segment ends and the next begins (`slashed_injective`), and it is at least as long as any of them.
-/

namespace ProtectionProvider

namespace Url

/-! ## Plain segments -/

/-- The segment is appended as one, with nothing left out of it. -/
def IsPlain (s : List Char) : Prop := s ≠ ['.'] ∧ s ≠ ['.', '.'] ∧ ∀ c ∈ s, isSkipped c = false

-- the characters of the segment are tried, not all characters
instance (s : List Char) : Decidable (IsPlain s) :=
  letI : Decidable (∀ c ∈ s, isSkipped c = false) := List.decidableBAll _ s
  inferInstanceAs (Decidable (_ ∧ _))

/-- A segment as it stands in a path. -/
def written (s : List Char) : List Char := Text.percentEncode isSegmentChar s

theorem written_injective : Function.Injective written := Text.percentEncode_injective (by decide)

theorem pushSegment_of_isPlain {s : List Char} (h : IsPlain s) (path : List (List Char)) :
    pushSegment path s = stem path ++ [written s] := by
  obtain ⟨h₁, h₂, hs⟩ := h
  have hf : s.filter (fun c => !isSkipped c) = s := by
    refine List.filter_eq_self.mpr fun c hc => ?_
    rw [hs c hc]
    rfl
  simp only [pushSegment, hf, h₁, h₂, or_self, if_false]
  rfl

theorem stem_of_ne {path : List (List Char)} (h : path ≠ [[]]) : stem path = path := by
  unfold stem
  split
  · exact absurd rfl h
  · rfl

theorem foldl_pushSegment : ∀ (segments path : List (List Char)), (∀ s ∈ segments, IsPlain s) → path ≠ [] →
    path ≠ [[]] → segments.foldl pushSegment path = path ++ segments.map written
  | [], path, _, _, _ => (List.append_nil path).symm
  | s :: segments, path, h, hn, hr => by
    have hs := h s List.mem_cons_self
    -- a path that has begun does not become the root again, so that `stem` takes nothing off it
    have hl : path ++ [written s] ≠ [[]] := by
      intro e
      cases path with
      | nil => exact hn rfl
      | cons p path => simp at e
    rw [List.foldl_cons, pushSegment_of_isPlain hs, stem_of_ne hr,
      foldl_pushSegment segments _ (fun t ht => h t (List.mem_cons_of_mem _ ht)) (by simp) hl]
    simp

/-- Nothing is resolved if all that is appended is plain and does not begin with an empty segment. -/
theorem append_path (u : Url) {s : List Char} {segments : List (List Char)} (hs : s ≠ [])
    (h : ∀ t ∈ s :: segments, IsPlain t) :
    (u.append (s :: segments)).path = stem (dropEmptyLast u.path) ++ (s :: segments).map written := by
  have hw : written s ≠ [] := fun e => hs (written_injective (e.trans (show [] = written [] from rfl)))
  have hr : stem (dropEmptyLast u.path) ++ [written s] ≠ [[]] := by
    intro e
    have hl := List.append_eq_singleton_iff.mp e
    simp [hw] at hl
  show (s :: segments).foldl pushSegment (dropEmptyLast u.path) = _
  rw [List.foldl_cons, pushSegment_of_isPlain (h s List.mem_cons_self),
    foldl_pushSegment segments _ (fun t ht => h t (List.mem_cons_of_mem _ ht)) (by simp) hr]
  simp

/-! ## Text of a path -/

def slashed (segments : List (List Char)) : List Char := segments.flatMap fun s => '/' :: s

def isEnd (c : Char) : Bool := c == '/' || c == '?'

theorem isEnd_of_mem_written {s : List Char} {c : Char} (h : c ∈ written s) : isEnd c = false := by
  refine Bool.eq_false_iff.mpr fun he => ?_
  simp only [isEnd, Bool.or_eq_true, beq_iff_eq] at he
  have hc := Text.mem_percentEncode h
  rcases he with rfl | rfl <;> exact absurd hc (by decide)

theorem takeWhile_end {s r : List Char} (hs : ∀ c ∈ s, isEnd c = false) (hr : ∀ c ∈ r.head?, isEnd c = true) :
    (s ++ r).takeWhile (fun c => !isEnd c) = s := by
  have ht : r.takeWhile (fun c => !isEnd c) = [] := by
    cases r with
    | nil => rfl
    | cons c r => simp [hr c rfl]
  rw [List.takeWhile_append_of_pos (fun c hc => by simp [hs c hc]), ht, List.append_nil]

theorem head?_slashed_append {segments : List (List Char)} {r : List Char} (hr : ∀ c ∈ r.head?, isEnd c = true) :
    ∀ c ∈ (slashed segments ++ r).head?, isEnd c = true := by
  cases segments with
  | nil => exact hr
  | cons s segments =>
    intro c hc
    cases hc
    rfl

theorem slashed_injective : ∀ {l l' : List (List Char)} {q q' : List Char},
    (∀ s ∈ l, ∀ c ∈ s, isEnd c = false) → (∀ s ∈ l', ∀ c ∈ s, isEnd c = false) →
      (∀ c ∈ q.head?, c = '?') → (∀ c ∈ q'.head?, c = '?') → slashed l ++ q = slashed l' ++ q' → l = l'
  | [], [], _, _, _, _, _, _, _ => rfl
  | [], s' :: l', q, q', _, _, hq, _, h => by
    -- a query does not begin with a slash
    have hc : q = '/' :: (s' ++ slashed l' ++ q') := h
    rw [hc] at hq
    have hslash := hq _ rfl
    exact absurd hslash (by decide)
  | s :: l, [], q, q', _, _, _, hq', h => by
    have hc : q' = '/' :: (s ++ slashed l ++ q) := h.symm
    rw [hc] at hq'
    have hslash := hq' _ rfl
    exact absurd hslash (by decide)
  | s :: l, s' :: l', q, q', hl, hl', hq, hq', h => by
    have hend : ∀ {r : List Char}, (∀ c ∈ r.head?, c = '?') → ∀ c ∈ r.head?, isEnd c = true := by
      intro r hr c hc
      rw [hr c hc]
      rfl
    have ht : s ++ (slashed l ++ q) = s' ++ (slashed l' ++ q') := by
      have hcons : '/' :: (s ++ slashed l ++ q) = '/' :: (s' ++ slashed l' ++ q') := h
      simpa using hcons
    -- the first segments are what stands before the first end
    have hs : s = s' := by
      have hr : ∀ c ∈ (slashed l ++ q).head?, isEnd c = true := head?_slashed_append (hend hq)
      have hr' : ∀ c ∈ (slashed l' ++ q').head?, isEnd c = true := head?_slashed_append (hend hq')
      rw [← takeWhile_end (hl s List.mem_cons_self) hr, ht, takeWhile_end (hl' s' List.mem_cons_self) hr']
    subst hs
    have hrest := slashed_injective (fun t htm => hl t (List.mem_cons_of_mem _ htm))
      (fun t htm => hl' t (List.mem_cons_of_mem _ htm)) hq hq' (List.append_cancel_left ht)
    rw [hrest]

/-! ## Long segments -/

theorem isPlain_of_isSegmentChar {s : List Char} (h : ∀ c ∈ s, isSegmentChar c = true) (hs : 2 < s.length) : IsPlain s := by
  refine ⟨?_, ?_, ?_⟩
  · rintro rfl
    simp at hs
  · rintro rfl
    simp at hs
  · intro c hc
    refine Bool.eq_false_iff.mpr fun he => ?_
    have hc := h c hc
    simp only [isSkipped, Bool.or_eq_true, beq_iff_eq] at he
    rcases he with (rfl | rfl) | rfl <;> exact absurd hc (by decide)

theorem length_le_chars {u : Url} {s : List Char} (h : s ∈ u.path) : s.length ≤ u.chars.length := by
  have hp : s.length ≤ u.pathText.length := by
    obtain ⟨before, after, hs⟩ := List.append_of_mem h
    rw [pathText, hs, List.flatMap_append, List.flatMap_cons]
    simp only [List.length_append, List.length_cons]
    omega
  simp only [chars, List.length_append]
  omega

theorem not_isUri_of_long {u : Url} {s : List Char} (h : s ∈ u.path) (hs : uriLimit < s.length) :
    u.isUri = false := by
  have hl : ¬ u.chars.length ≤ uriLimit := Nat.not_le.mpr (Nat.lt_of_lt_of_le hs (length_le_chars h))
  simp [isUri, hl]

end Url

theorem Client.not_isUri_deletePolicy (c : Client) {id : String} (h : ∀ x ∈ id.toList, Url.isSegmentChar x = true)
    (hs : Url.uriLimit < id.toList.length) : (reportedUrl (c.callUrl (.deletePolicy id))).isUri = false := by
  have hid : Url.IsPlain id.toList := Url.isPlain_of_isSegmentChar h (by rw [Url.uriLimit] at hs; omega)
  have hplain : ∀ s ∈ ["data-protect".toList, "policies".toList, id.toList], Url.IsPlain s := by
    simp only [List.forall_mem_cons, List.not_mem_nil, false_implies, implies_true, and_true]
    exact ⟨by decide, by decide, hid⟩
  have hp : id.toList ∈ (c.url ["data-protect", "policies", id]).path := by
    show id.toList ∈ (c.base.append ["data-protect".toList, "policies".toList, id.toList]).path
    rw [Url.append_path c.base (by decide) hplain]
    refine List.mem_append_right _ (List.mem_map.mpr ⟨id.toList, by simp, ?_⟩)
    exact Text.percentEncode_of_keep h
  refine Url.not_isUri_of_long (s := id.toList) ?_ hs
  unfold reportedUrl
  split <;> exact hp

end ProtectionProvider
