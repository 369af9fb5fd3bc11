import ProtectionProvider.Proofs.Url.Reading
import ProtectionProvider.Proofs.Url.Subtree

/-!
# Reading what is continued

A text that is read as a URL, and that does not end in a slash, can be continued: segments that are written
after it are read as segments after its path (`exists_continued`). An empty segment at the end of its path
does not count.
-/

namespace ProtectionProvider

namespace Url

/-! ## Settled segments -/

/-- The segment is read as it is written. -/
def IsSettled (s : List Char) : Prop := IsInner s ∧ ∀ c ∈ s, isPathChar c = true

theorem isSettled_nil : IsSettled [] := ⟨isInner_nil, by simp⟩

theorem IsSettled.percentEncode {s : List Char} (h : IsSettled s) : Text.percentEncode isPathChar s = s :=
  Text.percentEncode_of_keep h.2

theorem IsSettled.slash_notMem {s : List Char} (h : IsSettled s) : '/' ∉ s := fun hc => h.1.2.2 _ hc (by simp)

theorem isSettled_replicate (n : Nat) : ∀ s ∈ List.replicate n [], IsSettled s := by
  intro s hs
  rw [List.eq_of_mem_replicate hs]
  exact isSettled_nil

theorem isPathChar_of_isAlphanum {c : Char} (h : c.isAlphanum = true) : isPathChar c = true := by
  have hrange : ∀ {m n : Char}, m.val ≤ c.val ∧ c.val ≤ n.val → m.toNat ≤ c.toNat ∧ c.toNat ≤ n.toNat :=
    fun ⟨hm, hn⟩ => ⟨UInt32.le_iff_toNat_le.mp hm, UInt32.le_iff_toNat_le.mp hn⟩
  have hv : 0x21 ≤ c.toNat ∧ c.toNat ≤ 0x7E := by
    rcases Bool.or_eq_true_iff.mp h with h | h
    · rcases Bool.or_eq_true_iff.mp h with h | h
      · have hupper : 65 ≤ c.toNat ∧ c.toNat ≤ 90 := hrange (m := 'A') (n := 'Z') (of_decide_eq_true h)
        omega
      · obtain ⟨ha, hz⟩ := Bool.and_eq_true_iff.mp h
        have hlower : 97 ≤ c.toNat ∧ c.toNat ≤ 122 :=
          hrange (m := 'a') (n := 'z') ⟨of_decide_eq_true ha, of_decide_eq_true hz⟩
        omega
    · have hdigit : 48 ≤ c.toNat ∧ c.toNat ≤ 57 := Char.isDigit_iff_toNat.mp h
      omega
  have hall : ("\"#<>?`\x7b\x7d".toList.all fun d => !d.isAlphanum) = true := by decide
  have hn : c ∉ "\"#<>?`\x7b\x7d".toList := by
    intro hm
    have hc := List.all_eq_true.mp hall c hm
    rw [h] at hc
    cases hc
  simpa [isPathChar, isVisible, hv] using hn

theorem isSettled_written {s : List Char} (h : s ≠ ['.']) (h' : s ≠ ['.', '.']) : IsSettled (written s) := by
  refine ⟨isInner_written h h', fun c hc => ?_⟩
  rcases Text.mem_percentEncode hc with hk | rfl | ha
  · exact (Bool.and_eq_true_iff.mp hk).1
  · rfl
  · exact isPathChar_of_isAlphanum ha

theorem mem_parent {path : List (List Char)} {s : List Char} (h : s ∈ parent path) : s ∈ path := by
  unfold parent at h
  split at h
  · split at h
    · exact h
    · exact List.dropLast_subset _ h
  · cases h

theorem mem_stem {path : List (List Char)} {s : List Char} (h : s ∈ stem path) : s ∈ path := by
  unfold stem at h
  split at h
  · cases h
  · exact h

theorem isSettled_pushSegment {path : List (List Char)} (h : ∀ t ∈ path, IsSettled t) (s : List Char) :
    ∀ t ∈ pushSegment path s, IsSettled t := by
  have hs : ∀ t ∈ stem path, IsSettled t := fun t ht => h t (mem_stem ht)
  have hp : ∀ t ∈ parent (stem path), IsSettled t := fun t ht => hs t (mem_parent ht)
  unfold pushSegment
  split
  · exact h
  dsimp only
  split
  · exact List.forall_mem_append.mpr ⟨hp, List.forall_mem_singleton.mpr isSettled_nil⟩
  split
  · exact List.forall_mem_append.mpr ⟨hs, List.forall_mem_singleton.mpr isSettled_nil⟩
  · rename_i hdouble hsingle
    exact List.forall_mem_append.mpr ⟨hs, List.forall_mem_singleton.mpr (isSettled_written hsingle hdouble)⟩

theorem isSettled_foldl_pushSegment : ∀ (segments : List (List Char)) {path : List (List Char)},
    (∀ s ∈ path, IsSettled s) → ∀ s ∈ segments.foldl pushSegment path, IsSettled s
  | [], _, h => h
  | s :: segments, _, h => isSettled_foldl_pushSegment segments (isSettled_pushSegment h s)

/-! ## Resolving -/

def trimmed (path : List (List Char)) : List (List Char) := if path.getLast? = some [] then path.dropLast else path

theorem trimmed_concat_nil (path : List (List Char)) : trimmed (path ++ [[]]) = path := by
  simp [trimmed]

theorem trimmed_concat_of_ne (path : List (List Char)) {s : List Char} (h : s ≠ []) :
    trimmed (path ++ [s]) = path ++ [s] := by
  simp [trimmed, h]

theorem resolve_cons (before : List (List Char)) (s : List Char) {l : List (List Char)} (hl : l ≠ []) :
    resolve before (s :: l) = if isDoubleDot s then resolve (parent before) l
      else if isSingleDot s then resolve before l else resolve (before ++ [s]) l := by
  cases l with
  | nil => exact absurd rfl hl
  | cons t l => rfl

theorem resolve_settled : ∀ {l : List (List Char)} (before : List (List Char)), (∀ s ∈ l, IsSettled s) →
    resolve before l = before ++ l
  | [], before, _ => (List.append_nil before).symm
  | [s], before, h => by
    obtain ⟨hs, hd, -⟩ := (h s List.mem_cons_self).1
    simp [resolve, hs, hd]
  | s :: t :: l, before, h => by
    obtain ⟨hs, hd, -⟩ := (h s List.mem_cons_self).1
    rw [resolve_cons before s (List.cons_ne_nil t l), hs, hd]
    simp only [Bool.false_eq_true, if_false]
    rw [resolve_settled (before ++ [s]) fun u hu => h u (List.mem_cons_of_mem _ hu)]
    simp

/-- The segment before those that are appended is no longer the last, so that it leaves nothing if it is a dot. -/
theorem resolve_append {s : List Char} (hs : s ≠ []) {w : List (List Char)} (hn : w ≠ []) (hw : ∀ s ∈ w, IsSettled s) :
    ∀ (l before : List (List Char)), resolve before (l ++ [s] ++ w) = trimmed (resolve before (l ++ [s])) ++ w
  | [], before => by
    simp only [List.nil_append, List.singleton_append, resolve_cons before s hn, resolve, resolve_settled _ hw]
    split
    · rw [trimmed_concat_nil]
    split
    · rw [trimmed_concat_nil]
    · rw [trimmed_concat_of_ne before hs]
  | x :: l, before => by
    rw [List.cons_append, List.cons_append, resolve_cons before x (by simp), resolve_cons before x (by simp)]
    split
    · exact resolve_append hs hn hw l _
    split
    · exact resolve_append hs hn hw l _
    · exact resolve_append hs hn hw l _

/-! ## Paths -/

def plainSlash (c : Char) : Char := if c = '\\' then '/' else c

theorem plainSlash_eq_slash {c : Char} : plainSlash c = '/' ↔ isSlash c = true := by
  by_cases h : c = '\\' <;> simp [plainSlash, isSlash, h]

/-- The segments in the text of a path, before they are resolved. -/
def pieces (p : List Char) : List (List Char) := if p = [] then [] else ((p.drop 1).map plainSlash).splitOn '/'

theorem readPath_eq {p : List Char} (hp : p ≠ []) :
    readPath p = resolve [] ((pieces p).map (Text.percentEncode isPathChar)) := by
  rw [pieces, if_neg hp, List.map_drop]
  rfl

theorem splitOn_append_slashed : ∀ (q : List Char) {w : List (List Char)}, (∀ s ∈ w, '/' ∉ s) →
    (q ++ slashed w).splitOn '/' = q.splitOn '/' ++ w
  | q, [], _ => by simp [slashed]
  | q, s :: w, h => by
    have hs : s.splitOn '/' = [s] := List.splitOn_eq_singleton (h s List.mem_cons_self)
    have hw : ∀ t ∈ w, '/' ∉ t := fun t ht => h t (List.mem_cons_of_mem _ ht)
    show (q ++ '/' :: (s ++ slashed w)).splitOn '/' = _
    rw [List.splitOn_append_cons_self, splitOn_append_slashed s hw, hs]
    rfl

theorem slashed_append (l l' : List (List Char)) : slashed (l ++ l') = slashed l ++ slashed l' := List.flatMap_append

theorem mem_slashed {c : Char} {l : List (List Char)} (h : c ∈ slashed l) : c = '/' ∨ ∃ s ∈ l, c ∈ s := by
  obtain ⟨s, hs, hc⟩ := List.mem_flatMap.mp h
  rcases List.mem_cons.mp hc with hc | hc
  · exact .inl hc
  · exact .inr ⟨s, hs, hc⟩

theorem map_plainSlash {s : List Char} (h : '\\' ∉ s) : s.map plainSlash = s := by
  have hs : ∀ c ∈ s, plainSlash c = id c := fun c hc => if_neg fun e => h (by rwa [e] at hc)
  rw [List.map_congr_left hs, List.map_id]

theorem backslash_notMem_slashed {w : List (List Char)} (hw : ∀ s ∈ w, IsSettled s) : '\\' ∉ slashed w := by
  intro hc
  rcases mem_slashed hc with hc | ⟨s, hs, hc⟩
  · exact absurd hc (by decide)
  · exact (hw s hs).1.2.2 _ hc (by simp)

theorem pieces_append_slashed (p : List Char) {w : List (List Char)} (hw : ∀ s ∈ w, IsSettled s) :
    pieces (p ++ slashed w) = pieces p ++ w := by
  have hslash : ∀ s ∈ w, '/' ∉ s := fun s hs => (hw s hs).slash_notMem
  cases p with
  | cons c q =>
    show ((q ++ slashed w).map plainSlash).splitOn '/' = (q.map plainSlash).splitOn '/' ++ w
    rw [List.map_append, map_plainSlash (backslash_notMem_slashed hw), splitOn_append_slashed _ hslash]
  | nil =>
    cases w with
    | nil => rfl
    | cons s w =>
      have hs : s.splitOn '/' = [s] := List.splitOn_eq_singleton (hslash s List.mem_cons_self)
      have hb : '\\' ∉ s ++ slashed w := fun hc => backslash_notMem_slashed hw (List.mem_cons_of_mem _ hc)
      show ((s ++ slashed w).map plainSlash).splitOn '/' = [] ++ s :: w
      rw [map_plainSlash hb, splitOn_append_slashed _ fun t ht => hslash t (List.mem_cons_of_mem _ ht), hs]
      rfl

theorem slashed_eq_intercalate : ∀ {l : List (List Char)}, l ≠ [] → slashed l = '/' :: List.intercalate ['/'] l
  | [], h => absurd rfl h
  | [s], _ => by simp [slashed]
  | s :: t :: l, _ => by
    have hl := slashed_eq_intercalate (List.cons_ne_nil t l)
    rw [List.intercalate_cons_cons]
    show '/' :: (s ++ slashed (t :: l)) = _
    rw [hl]
    simp

theorem slashed_pieces {p : List Char} (hp : ∀ c ∈ p.head?, isSlash c = true) :
    slashed (pieces p) = p.map plainSlash := by
  cases p with
  | nil => rfl
  | cons c q =>
    have hc : plainSlash c = '/' := plainSlash_eq_slash.mpr (hp c rfl)
    show slashed ((q.map plainSlash).splitOn '/') = plainSlash c :: q.map plainSlash
    rw [slashed_eq_intercalate (List.splitOn_ne_nil _ _), List.intercalate_splitOn, hc]

theorem exists_pieces_concat {p : List Char} (hp : ∀ c ∈ p.head?, isSlash c = true) (hn : p ≠ [])
    (hl : ∀ c ∈ p.getLast?, isSlash c = false) : ∃ l s, pieces p = l ++ [s] ∧ s ≠ [] := by
  have ht := slashed_pieces hp
  rcases List.eq_nil_or_concat (pieces p) with h | ⟨l, s, h⟩
  · rw [h] at ht
    exact absurd (List.map_eq_nil_iff.mp ht.symm) hn
  · rw [List.concat_eq_append] at h
    refine ⟨l, s, h, ?_⟩
    rintro rfl
    -- the last character would be a slash
    obtain ⟨q, c, rfl⟩ := (List.eq_nil_or_concat p).resolve_left hn
    rw [List.concat_eq_append] at ht hl h
    rw [h] at ht
    have he : slashed l ++ ['/'] = q.map plainSlash ++ [plainSlash c] := by
      rw [slashed_append, List.map_append] at ht
      exact ht
    have hc : plainSlash c = '/' := by simpa using (List.append_inj' he rfl).2.symm
    have hlast := hl c (by simp)
    rw [plainSlash_eq_slash.mp hc] at hlast
    cases hlast

/-- Segments that are written after a path come after all that is not an empty segment at its end. -/
theorem readPath_append_slashed {p : List Char} (hp : ∀ c ∈ p.head?, isSlash c = true)
    (hl : ∀ c ∈ p.getLast?, isSlash c = false) {w : List (List Char)} (hn : w ≠ []) (hw : ∀ s ∈ w, IsSettled s) :
    readPath (p ++ slashed w) = trimmed (readPath p) ++ w := by
  have hne : p ++ slashed w ≠ [] := by
    cases w with
    | nil => exact absurd rfl hn
    | cons s w => simp [slashed]
  have he : ∀ s ∈ w, Text.percentEncode isPathChar s = id s := fun s hs => (hw s hs).percentEncode
  rw [readPath_eq hne, pieces_append_slashed p hw, List.map_append, List.map_congr_left he, List.map_id]
  by_cases hempty : p = []
  · subst hempty
    exact resolve_settled [] hw
  · obtain ⟨l, s, h, hs⟩ := exists_pieces_concat hp hempty hl
    have hs' : Text.percentEncode isPathChar s ≠ [] := Text.percentEncode_ne_nil hs
    rw [readPath_eq hempty, h, List.map_append, List.map_singleton]
    exact resolve_append hs' hn hw _ []

/-! ## Whole URLs -/

theorem splitBefore_append {e : Char → Bool} {a b : List Char} (ha : ∀ c ∈ a, e c = false)
    (hb : ∀ c ∈ b.head?, e c = true) : splitBefore e (a ++ b) = (a, b) := by
  have ha' : ∀ c ∈ a, (!e c) = true := fun c hc => by rw [ha c hc]; rfl
  unfold splitBefore
  rw [List.takeWhile_append_of_pos ha', List.dropWhile_append_of_pos ha']
  cases b with
  | nil => simp
  | cons c b => simp [hb c rfl]

theorem splitBefore_of_forall {e : Char → Bool} {a : List Char} (ha : ∀ c ∈ a, e c = false) :
    splitBefore e a = (a, []) := by
  simpa using splitBefore_append (b := []) ha (by simp)

theorem readRest?_of_slashes {s : List Char} (h : ∀ c ∈ s, isSlash c = true) (secure : Bool) :
    readRest? secure s = none := by
  have hs : s.dropWhile isSlash = [] := by
    rw [← List.append_nil s, List.dropWhile_append_of_pos h]
    rfl
  unfold readRest?
  rw [hs]
  rfl

/-- An authority, after the slashes that lead to it and before a path. -/
structure Parted (lead a p : List Char) : Prop where
  lead : ∀ c ∈ lead, isSlash c = true
  nonempty : a ≠ []
  authority : ∀ c ∈ a, isSlash c = false
  path : ∀ c ∈ p.head?, isSlash c = true

theorem Parted.readRest?_eq {lead a p : List Char} (h : Parted lead a p) (hq : Unbroken a) (hpq : Unbroken p)
    (secure : Bool) :
    readRest? secure (lead ++ a ++ p) = (readRest? secure a).map fun u => { u with path := readPath p } := by
  have hends : ∀ c ∈ a, (isSlash c || c == '?' || c == '#') = false := by
    intro c hc
    simp [h.authority c hc, (hq c hc).1, (hq c hc).2]
  have hp : ∀ c ∈ p.head?, (isSlash c || c == '?' || c == '#') = true := fun c hc => by simp [h.path c hc]
  have hstart : ∀ q : List Char, (a ++ q).dropWhile isSlash = a ++ q := by
    intro q
    obtain ⟨c, b, hb⟩ := List.exists_cons_of_ne_nil h.nonempty
    have hc : isSlash c = false := h.authority c (by simp [hb])
    simp [hb, hc]
  have ha : a.dropWhile isSlash = a := by simpa using hstart []
  unfold readRest?
  rw [List.append_assoc, List.dropWhile_append_of_pos h.lead, hstart p, ha]
  dsimp only
  rw [splitBefore_append hends hp, splitBefore_of_forall hends]
  dsimp only
  rw [splitBefore_of_forall fun c hc => beq_false_of_ne (hpq c hc).2]
  dsimp only
  rw [splitBefore_of_forall fun c hc => beq_false_of_ne (hpq c hc).1]
  cases Host.read? (splitHost (splitUser a).2).1 with
  | none => rfl
  | some host => cases port? secure (splitHost (splitUser a).2).2 <;> rfl

theorem afterStart?_eq_some : ∀ {p s r : List Char}, afterStart? p s = some r ↔ s = p ++ r
  | [], s, r => by simp [afterStart?]
  | c :: p, [], r => by simp [afterStart?]
  | c :: p, d :: s, r => by
    by_cases h : c = d
    · subst h
      simp [afterStart?, afterStart?_eq_some]
    · simp [afterStart?, h, Ne.symm h]

def schemeText (secure : Bool) : List Char := (if secure then "https://" else "http://").toList

theorem afterScheme?_eq_some {s r : List Char} {secure : Bool} :
    afterScheme? s = some (secure, r) ↔ s = schemeText secure ++ r := by
  constructor
  · intro h
    unfold afterScheme? at h
    split at h
    · rename_i r' h'
      cases h
      exact afterStart?_eq_some.mp h'
    · obtain ⟨r', h', e⟩ := Option.map_eq_some_iff.mp h
      cases e
      exact afterStart?_eq_some.mp h'
  · rintro rfl
    cases secure <;> rfl

structure Clean (s : List Char) : Prop where
  kept : ∀ c ∈ s, isSkipped c = false
  ended : ∀ c ∈ s.getLast?, isEdge c = false

theorem Clean.read?_eq {s : List Char} (h : Clean s) :
    read? s = (afterScheme? s).bind fun x => readRest? x.1 x.2 := by
  have he : (s.reverse.dropWhile isEdge).reverse = s := by
    have hr : ∀ c ∈ s.reverse.head?, isEdge c = false := by
      rw [List.head?_reverse]
      exact h.ended
    cases hs : s.reverse with
    | nil => exact (List.reverse_eq_nil_iff.mp hs).symm
    | cons c r =>
      rw [hs] at hr
      rw [List.dropWhile_cons_of_neg (by simp [hr c rfl]), ← hs, List.reverse_reverse]
  unfold read?
  rw [he]
  refine Option.bind_congr fun (secure, r) hx => ?_
  have hr : r.filter (fun c => !isSkipped c) = r := by
    refine List.filter_eq_self.mpr fun c hc => ?_
    have hm : c ∈ s := by
      rw [afterScheme?_eq_some.mp hx]
      exact List.mem_append_right _ hc
    rw [h.kept c hm]
    rfl
  dsimp only
  rw [hr]

theorem isSkipped_of_isEdge {c : Char} (h : isEdge c = false) : isSkipped c = false := by
  refine Bool.eq_false_iff.mpr fun hs => ?_
  simp only [isSkipped, Bool.or_eq_true, beq_iff_eq] at hs
  rcases hs with (rfl | rfl) | rfl <;> cases h

theorem isEdge_of_mem_slashed {w : List (List Char)} (hw : ∀ s ∈ w, IsSettled s) {c : Char} (h : c ∈ slashed w) :
    isEdge c = false := by
  rcases mem_slashed h with rfl | ⟨s, hs, hc⟩
  · rfl
  · have hv := (hw s hs).2 c hc
    simp only [isPathChar, isVisible, Bool.and_eq_true, decide_eq_true_eq] at hv
    simp only [isEdge, decide_eq_false_iff_not]
    omega

theorem Clean.append_slashed {t : List Char} (h : Clean t) {w : List (List Char)} (hw : ∀ s ∈ w, IsSettled s) :
    Clean (t ++ slashed w) := by
  refine ⟨fun c hc => ?_, fun c hc => ?_⟩
  · rcases List.mem_append.mp hc with hc | hc
    · exact h.kept c hc
    · exact isSkipped_of_isEdge (isEdge_of_mem_slashed hw hc)
  · cases hlast : (slashed w).getLast? with
    | none =>
      rw [List.getLast?_append, hlast, Option.none_or] at hc
      exact h.ended c hc
    | some d =>
      rw [List.getLast?_append, hlast, Option.some_or] at hc
      cases hc
      exact isEdge_of_mem_slashed hw (List.mem_of_getLast? hlast)

/-- The text is read as the URL, and segments that are written after it are read after the path of the URL. -/
structure Continued (t : List Char) (u : Url) : Prop where
  read : read? t = some u
  more : ∀ w, w ≠ [] → (∀ s ∈ w, IsSettled s) → read? (t ++ slashed w) = some { u with path := trimmed u.path ++ w }

def slashes (n : Nat) : List Char := .replicate n '/'

theorem slashes_eq : ∀ n, slashes n = slashed (.replicate n [])
  | 0 => rfl
  | n + 1 => congrArg ('/' :: ·) (slashes_eq n)

theorem exists_parted : ∀ {s : List Char}, (¬ ∀ c ∈ s, isSlash c = true) →
    ∃ lead a p, s = lead ++ a ++ p ∧ Parted lead a p
  | [], h => absurd (by simp) h
  | c :: s, h => by
    cases hc : isSlash c with
    | true =>
      have hs : ¬ ∀ d ∈ s, isSlash d = true := by simpa [hc] using h
      obtain ⟨lead, a, p, rfl, ⟨hlead, hn, ha, hp⟩⟩ := exists_parted hs
      exact ⟨c :: lead, a, p, by simp, ⟨by simpa [hc] using hlead, hn, ha, hp⟩⟩
    | false =>
      refine ⟨[], (c :: s).takeWhile (fun d => !isSlash d), (c :: s).dropWhile fun d => !isSlash d, ?_, ?_⟩
      · rw [List.nil_append, List.takeWhile_append_dropWhile]
      refine ⟨by simp, by simp [hc], fun d hd => ?_, fun d hd => ?_⟩
      · simpa using List.all_eq_true.mp List.all_takeWhile d hd
      · have hf := List.head?_dropWhile_not (fun d => !isSlash d) (c :: s)
        rw [hd] at hf
        simpa using hf

theorem unbroken_slashed {w : List (List Char)} (hw : ∀ s ∈ w, IsSettled s) : Unbroken (slashed w) := by
  refine .flatMap fun s hs => .cons (by decide) fun c hc => ?_
  have hi := (hw s hs).1.2.2 c hc
  simp only [List.mem_cons, not_or] at hi
  exact ⟨hi.2.2.1, hi.2.2.2.1⟩

theorem Parted.append_slashed {lead a p : List Char} (h : Parted lead a p) (w : List (List Char)) :
    Parted lead a (p ++ slashed w) := by
  refine ⟨h.lead, h.nonempty, h.authority, ?_⟩
  have hp := h.path
  cases p with
  | cons d p => exact hp
  | nil =>
    cases w with
    | nil => exact hp
    | cons s w =>
      intro c hc
      cases hc
      rfl

section
variable {secure : Bool} {lead a p : List Char} (h : Parted lead a p)
  (hq : Unbroken (schemeText secure ++ (lead ++ a ++ p))) (hc : Clean (schemeText secure ++ (lead ++ a ++ p)))
include h hq hc

theorem Parted.read?_append_slashed {w : List (List Char)} (hw : ∀ s ∈ w, IsSettled s) :
    read? (schemeText secure ++ (lead ++ a ++ p) ++ slashed w) =
      (readRest? secure a).map fun u => { u with path := readPath (p ++ slashed w) } := by
  have hqa : Unbroken a := fun c hc => hq c (by simp [hc])
  have hqp : Unbroken p := fun c hc => hq c (by simp [hc])
  rw [(hc.append_slashed hw).read?_eq, afterScheme?_eq_some.mpr (List.append_assoc _ _ _), Option.bind_some,
    List.append_assoc (lead ++ a)]
  exact (h.append_slashed w).readRest?_eq hqa (hqp.append (unbroken_slashed hw)) secure

theorem Parted.continued (hl : ∀ c ∈ p.getLast?, isSlash c = false) {o : Url} (ho : readRest? secure a = some o) :
    Continued (schemeText secure ++ (lead ++ a ++ p)) { o with path := readPath p } where
  read := by
    have hread := h.read?_append_slashed hq hc (w := []) (by simp)
    simpa [slashed, ho] using hread
  more w hn hw := by
    rw [h.read?_append_slashed hq hc hw, ho, readPath_append_slashed h.path hl hn hw]
    rfl

end

theorem exists_continued {t : List Char} (hq : Unbroken t) (hc : Clean t) (hl : ∀ c ∈ t.getLast?, isSlash c = false)
    {n : Nat} (h : (read? (t ++ slashes n)).isSome = true) : ∃ u, Continued t u := by
  have hslash : ∀ c ∈ slashes n, isSlash c = true := by
    intro c hc
    rw [List.eq_of_mem_replicate hc]
    rfl
  rw [slashes_eq] at h hslash
  have hn := isSettled_replicate n
  obtain ⟨v, hv⟩ := Option.isSome_iff_exists.mp h
  rw [(hc.append_slashed hn).read?_eq] at hv
  obtain ⟨⟨secure, r⟩, hr, hrest⟩ := Option.bind_eq_some_iff.mp hv
  -- there is more than slashes after the scheme, so that the scheme ends before the slashes that were added
  have hmore : ¬ ∀ c ∈ r, isSlash c = true := by
    intro hall
    have hnone : readRest? secure r = none := readRest?_of_slashes hall secure
    rw [hnone] at hrest
    cases hrest
  rcases List.append_eq_append_iff.mp (afterScheme?_eq_some.mp hr) with ⟨b, -, hb⟩ | ⟨r, rfl, rfl⟩
  · refine absurd (fun c hc => hslash c ?_) hmore
    rw [hb]
    exact List.mem_append_right _ hc
  · have hauthority : ¬ ∀ c ∈ r, isSlash c = true := fun hall => hmore (List.forall_mem_append.mpr ⟨hall, hslash⟩)
    obtain ⟨lead, a, p, rfl, hparted⟩ := exists_parted hauthority
    have hlast : ∀ c ∈ p.getLast?, isSlash c = false := by
      intro c hc
      refine hl c ?_
      rw [← List.append_assoc, List.getLast?_append, hc, Option.some_or]
      rfl
    have hread := hparted.read?_append_slashed hq hc hn
    rw [(hc.append_slashed hn).read?_eq, hv] at hread
    obtain ⟨o, ho, -⟩ := Option.map_eq_some_iff.mp hread.symm
    exact ⟨_, hparted.continued hq hc hlast ho⟩

end Url

end ProtectionProvider
