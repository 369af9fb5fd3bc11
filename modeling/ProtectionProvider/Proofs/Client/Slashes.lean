import ProtectionProvider.Proofs.Client.Confinement
import ProtectionProvider.Proofs.Url.Slashes

/-!
# Slashes at the end of an endpoint

The endpoint is shown without the slashes at its end, and requests go to it as it is shown if it was written
with one slash at its end or with none. Of more slashes all but one are passed on to the requests
(`slashes_passed_on`), though none is shown.
-/

namespace ProtectionProvider

/-! ## Ends of texts -/

namespace Text

theorem dropWhile_of_forall {p : Char → Bool} {s : List Char} (h : ∀ c ∈ s, p c = false) : s.dropWhile p = s := by
  cases s with
  | nil => rfl
  | cons c s => exact List.dropWhile_cons_of_neg (by simp [h c List.mem_cons_self])

theorem trim_of_forall {s : List Char} (h : ∀ c ∈ s, isBlank c = false) : trim s = s := by
  have hr : ∀ c ∈ s.reverse, isBlank c = false := fun c hc => h c (List.mem_reverse.mp hc)
  rw [trim, dropWhile_of_forall h, dropEndWhile, dropWhile_of_forall hr, List.reverse_reverse]

def dropSlashes (s : List Char) : List Char := dropEndWhile (· == '/') s

theorem dropSlashes_append_slashes (s : List Char) (n : Nat) : dropSlashes (s ++ Url.slashes n) = dropSlashes s := by
  have hs : ∀ c ∈ (Url.slashes n).reverse, (c == '/') = true := by
    intro c hc
    rw [List.eq_of_mem_replicate (List.mem_reverse.mp hc)]
    rfl
  rw [dropSlashes, dropEndWhile, List.reverse_append, List.dropWhile_append_of_pos hs]
  rfl

theorem exists_dropSlashes_append (s : List Char) : ∃ n, s = dropSlashes s ++ Url.slashes n := by
  refine ⟨(s.reverse.takeWhile (· == '/')).length, ?_⟩
  have ht : s.reverse.takeWhile (· == '/') = .replicate _ '/' := List.eq_replicate_of_mem fun c hc =>
    beq_iff_eq.mp (List.all_eq_true.mp List.all_takeWhile c hc)
  calc s = (s.reverse.takeWhile (· == '/') ++ s.reverse.dropWhile (· == '/')).reverse := by
        rw [List.takeWhile_append_dropWhile, List.reverse_reverse]
    _ = dropSlashes s ++ (s.reverse.takeWhile (· == '/')).reverse := List.reverse_append
    _ = dropSlashes s ++ Url.slashes (s.reverse.takeWhile (· == '/')).length := by
        rw [Url.slashes, ← List.reverse_replicate, ← ht]

theorem ne_slash_of_dropSlashes {s : List Char} : ∀ c ∈ (dropSlashes s).getLast?, c ≠ '/' := by
  intro c hc
  have h := List.head?_dropWhile_not (· == '/') s.reverse
  rw [dropSlashes, dropEndWhile, List.getLast?_reverse] at hc
  rw [hc] at h
  simpa using h

end Text

/-! ## Paths of calls -/

namespace Url

-- an identifier takes off no more than the word before it, so that the segment `a` stays where it is
theorem foldl_pushSegment_append (before : List (List Char)) {a : List Char} (ha : a ≠ []) :
    ∀ (parts : List Call.Part) (wordBefore : Bool) (t : List (List Char)), Call.Guarded wordBefore parts →
      (wordBefore = true → ∃ init w, t = init ++ [w]) → (∀ s ∈ t, IsInner s) →
      (parts.map fun p => p.text.toList).foldl pushSegment (before ++ a :: t) =
        before ++ (parts.map fun p => p.text.toList).foldl pushSegment (a :: t)
  | [], _, t, _, _, _ => rfl
  | .word w :: parts, _, t, hg, _, ht => by
    obtain ⟨hw, hg⟩ := hg
    have hr : a :: t ≠ [[]] := by simp [ha]
    have hpush : pushSegment (a :: t) w.toList = a :: (t ++ [written w.toList]) := by
      rw [pushSegment_of_isPlain hw.1, stem_of_ne hr]
      rfl
    have hrest := foldl_pushSegment_append before ha parts true (t ++ [written w.toList]) hg (fun _ => ⟨t, _, rfl⟩)
      (by simpa [or_imp, forall_and] using ⟨ht, hw.1.isInner_written⟩)
    rw [List.map_cons, List.foldl_cons, List.foldl_cons, Call.Part.text,
      pushSegment_append (List.cons_ne_nil a t) hr, hpush]
    exact hrest
  | .given id :: parts, _, t, hg, hb, ht => by
    obtain ⟨hword, hg⟩ := hg
    obtain ⟨init, w, rfl⟩ := hb hword
    have hr : a :: (init ++ [w]) ≠ [[]] := by simp [ha]
    obtain ⟨u, -, hui, hpush⟩ := pushSegment_concat (List.cons_ne_nil a init) (ht w (by simp)) id.toList
    have hrest := foldl_pushSegment_append before ha parts false (init ++ u) hg (fun h => by cases h) (by
      intro s hs
      rcases List.mem_append.mp hs with h | h
      · exact ht s (List.mem_append_left _ h)
      · exact hui s h)
    rw [List.map_cons, List.foldl_cons, List.foldl_cons, Call.Part.text,
      pushSegment_append (List.cons_ne_nil a _) hr]
    rw [List.cons_append] at hpush
    rw [hpush]
    exact hrest

end Url

def Call.path (call : Call) : List (List Char) := (call.segments.map String.toList).foldl Url.pushSegment [[]]

theorem Call.isSettled_path (call : Call) : ∀ s ∈ call.path, Url.IsSettled s :=
  Url.isSettled_foldl_pushSegment _ (List.forall_mem_singleton.mpr Url.isSettled_nil)

theorem Url.pushSegment_area (call : Call) (path : List (List Char)) :
    pushSegment path call.area.toList = stem path ++ [call.area.toList] := by
  obtain ⟨hp, hw⟩ := call.isWord_area
  rw [pushSegment_of_isPlain hp, hw]

theorem Call.area_ne_nil (call : Call) : call.area.toList ≠ [] := by
  cases call <;> simp only [area] <;> decide

namespace Client

theorem url_path_eq (c : Client) (call : Call) : (c.url call.segments).path = c.root ++ call.path := by
  have hroute := Url.foldl_pushSegment_append c.root call.area_ne_nil call.route false [] call.guarded_route
    (fun h => by cases h) (fun s hs => by cases hs)
  have hs : call.segments.map String.toList = call.area.toList :: call.route.map fun p => p.text.toList := by
    rw [call.segments_eq]
    simp
  have hpath : call.path = (call.route.map fun p => p.text.toList).foldl Url.pushSegment [call.area.toList] := by
    rw [Call.path, hs, List.foldl_cons, Url.pushSegment_area]
    rfl
  rw [hpath, ← hroute]
  show (call.segments.map String.toList).foldl Url.pushSegment (Url.dropEmptyLast c.base.path) = _
  rw [hs, List.foldl_cons, Url.pushSegment_area]
  rfl

theorem path_ne_nil (c : Client) (call : Call) : call.path ≠ [] := by
  obtain ⟨rest, hrest, -⟩ := c.url_path_below call
  rw [url_path_eq, List.append_cancel_left_eq] at hrest
  rw [hrest]
  exact List.cons_ne_nil _ _

end Client

/-! ## Roots -/

namespace Url

theorem stem_dropEmptyLast (path : List (List Char)) : stem (dropEmptyLast path) = stem (trimmed path) := by
  unfold dropEmptyLast trimmed
  by_cases hlast : path.getLast? = some []
  · obtain ⟨init, rfl⟩ := List.getLast?_eq_some_iff.mp hlast
    cases init with
    | nil => rfl
    | cons s init => simp
  · simp [hlast]

/-- The slashes at the end of an endpoint that change nothing. -/
def spare (u : Url) : Nat := if trimmed u.path = [] then 2 else 1

/-- Of so many slashes at the end of an endpoint those that are passed on. -/
def surplus (u : Url) (n : Nat) : Nat := if n ≤ u.spare then 0 else n - 1

theorem length_slashed_stem (path : List (List Char)) (n : Nat) : (slashed (stem (path ++ .replicate n []))).length =
    if path ++ .replicate n [] = [[]] then 0 else (slashed path).length + n := by
  split
  · rename_i h
    rw [h]
    rfl
  · rename_i h
    rw [stem_of_ne h, slashed_append, ← slashes_eq, List.length_append, slashes, List.length_replicate]

theorem eq_nil_of_slashed {path : List (List Char)} (h : (slashed path).length = 0) : path = [] := by
  cases path with
  | nil => rfl
  | cons s path => simp [slashed] at h

theorem stem_replicate {n : Nat} (h : n ≤ 1) : stem (.replicate n []) = [] := by
  rcases Nat.le_one_iff_eq_zero_or_eq_one.mp h with rfl | rfl <;> rfl

theorem slashed_stem_inj {path : List (List Char)} {m n : Nat} :
    slashed (stem (path ++ .replicate m [])) = slashed (stem (path ++ .replicate n [])) ↔
      m = n ∨ path = [] ∧ m ≤ 1 ∧ n ≤ 1 := by
  have hbare : ∀ {k l : Nat}, path ++ .replicate k [] = [[]] → 0 = (slashed path).length + l →
      path = [] ∧ k ≤ 1 ∧ l ≤ 1 := by
    intro k l hk hl
    have hpath : path = [] := eq_nil_of_slashed (by omega)
    have hlength := congrArg List.length hk
    rw [List.length_append, List.length_replicate, List.length_singleton] at hlength
    exact ⟨hpath, by omega, by omega⟩
  constructor
  · intro h
    have hl := congrArg List.length h
    rw [length_slashed_stem, length_slashed_stem] at hl
    split at hl <;> rename_i hm <;> split at hl <;> rename_i hn
    · have hlength := congrArg List.length (hm.trans hn.symm)
      rw [List.length_append, List.length_append, List.length_replicate, List.length_replicate] at hlength
      exact .inl (by omega)
    · exact .inr (hbare hm hl)
    · obtain ⟨hpath, hn, hm⟩ := hbare hn hl.symm
      exact .inr ⟨hpath, hm, hn⟩
    · exact .inl (by omega)
  · rintro (rfl | ⟨rfl, hm, hn⟩)
    · rfl
    · rw [List.nil_append, List.nil_append, stem_replicate hm, stem_replicate hn]

theorem stem_surplus (u : Url) (h : trimmed u.path ≠ [[]]) (n : Nat) :
    stem (trimmed u.path ++ .replicate (n - 1) []) = trimmed u.path ++ .replicate (u.surplus n) [] := by
  unfold surplus spare
  by_cases hpath : trimmed u.path = []
  · rw [hpath, if_pos rfl, List.nil_append, List.nil_append]
    split
    · exact stem_replicate (by omega)
    · refine stem_of_ne fun e => ?_
      have hlength := congrArg List.length e
      rw [List.length_replicate, List.length_singleton] at hlength
      omega
  · rw [if_neg hpath]
    split
    · rename_i hn
      rw [Nat.sub_eq_zero_of_le hn]
      simpa using stem_of_ne h
    · refine stem_of_ne fun e => ?_
      rcases List.append_eq_singleton_iff.mp e with ⟨e, -⟩ | ⟨e, -⟩
      · exact hpath e
      · exact h e

/-- The URL `v` is `u`, but that it was written with so many slashes at its end. What is appended to it comes after
all but one of them. -/
structure Slashed (u v : Url) (n : Nat) : Prop where
  same : v = { u with path := v.path }
  root : stem (dropEmptyLast v.path) = stem (trimmed u.path ++ .replicate (n - 1) [])

theorem Continued.read_slashes {t : List Char} {u : Url} (h : Continued t u) (n : Nat) :
    ∃ v, read? (t ++ slashes n) = some v ∧ u.Slashed v n := by
  cases n with
  | zero =>
    refine ⟨u, ?_, rfl, ?_⟩
    · rw [slashes, List.replicate_zero, List.append_nil]
      exact h.read
    · rw [stem_dropEmptyLast]
      simp
  | succ n =>
    refine ⟨{ u with path := trimmed u.path ++ .replicate (n + 1) [] }, ?_, rfl, ?_⟩
    · rw [slashes_eq]
      exact h.more _ (by simp) (isSettled_replicate _)
    · dsimp only
      rw [stem_dropEmptyLast, List.replicate_succ', ← List.append_assoc, trimmed_concat_nil]
      rfl

theorem toString_inj_of_path {u : Url} {p p' : List (List Char)} {pairs : List (String × String)} :
    (({ u with path := p }.addQuery pairs).withoutUser.withoutFragment).toString =
      (({ u with path := p' }.addQuery pairs).withoutUser.withoutFragment).toString ↔ slashed p = slashed p' := by
  have hchars : ∀ p, ({ u with path := p }.addQuery pairs).withoutUser.withoutFragment.chars =
      u.origin ++ slashed p ++ (u.addQuery pairs).query.elim [] fun q => '?' :: q := by
    intro p
    cases pairs <;> (
      show u.scheme ++ "://".toList ++ [] ++ u.host ++ u.portText ++ slashed p ++ _ ++ [] = _
      rw [List.append_nil, List.append_nil]
      rfl)
  constructor
  · intro h
    have hc := String.ofList_injective h
    rw [hchars, hchars] at hc
    exact List.append_cancel_left (List.append_cancel_right hc)
  · intro h
    rw [toString, toString, hchars, hchars, h]

end Url

namespace Client

theorem request_url_of_slashed {c : Client} {u : Url} {n : Nat} (h : u.Slashed c.base n) (call : Call) :
    (c.request call).url =
      ({ u with path := c.root ++ call.path }.addQuery call.query).withoutUser.withoutFragment := by
  have hurl : c.url call.segments = { u with path := c.root ++ call.path } := by
    rw [← c.url_path_eq call]
    unfold url Url.append
    rw [h.same]
  show ((c.url call.segments).addQuery call.query).withoutUser.withoutFragment = _
  rw [hurl]

theorem hasHttpScheme_append {s : List Char} (h : hasHttpScheme s = true) (t : List Char) :
    hasHttpScheme (s ++ t) = true := by
  unfold hasHttpScheme at h
  split at h
  · rename_i secure ch r hs
    have ht : Url.afterScheme? (s ++ t) = some (secure, ch :: r ++ t) := by
      rw [Url.afterScheme?_eq_some, Url.afterScheme?_eq_some.mp hs, List.append_assoc]
    rw [hasHttpScheme, ht]
    rfl
  · cases h

end Client

namespace Settings

def withSlashes (s : Settings) (n : Nat) : Settings :=
  { s with endpoint := .ofList (s.endpoint.toList ++ Url.slashes n) }

theorem toList_withSlashes (s : Settings) (n : Nat) :
    (s.withSlashes n).endpoint.toList = s.endpoint.toList ++ Url.slashes n :=
  String.toList_ofList

theorem withSlashes_zero (s : Settings) : s.withSlashes 0 = s := by
  rw [withSlashes, Url.slashes, List.replicate_zero, List.append_nil, String.ofList_toList]

/-- Nothing in the endpoint is left out, and neither a query nor a fragment begins in it. -/
def Bare (s : Settings) : Prop := ∀ ch ∈ s.endpoint.toList, ch ≠ '?' ∧ ch ≠ '#' ∧ Text.isBlank ch = false

instance (s : Settings) : Decidable s.Bare := List.decidableBAll _ s.endpoint.toList

theorem Bare.withSlashes {s : Settings} (h : s.Bare) (n : Nat) : (s.withSlashes n).Bare := by
  intro ch hc
  rw [toList_withSlashes] at hc
  rcases List.mem_append.mp hc with hc | hc
  · exact h ch hc
  · rw [List.eq_of_mem_replicate hc]
    decide

theorem Bare.base? {s : Settings} (h : s.Bare) :
    Client.base? s.endpoint = if Client.hasHttpScheme s.endpoint.toList then Url.read? s.endpoint.toList else none := by
  rw [Client.base?, Text.trim_of_forall fun ch hc => (h ch hc).2.2]

theorem Bare.isSkipped {s : Settings} (h : s.Bare) : ∀ ch ∈ s.endpoint.toList, Url.isSkipped ch = false := by
  intro ch hc
  refine Bool.eq_false_iff.mpr fun hs => ?_
  have hb := (h ch hc).2.2
  simp only [Url.isSkipped, Bool.or_eq_true, beq_iff_eq] at hs
  rcases hs with (rfl | rfl) | rfl <;> cases hb

theorem Bare.shownEndpoint {s : Settings} (h : s.Bare) :
    (Client.shownEndpoint s.endpoint).toList = Text.dropSlashes s.endpoint.toList := by
  rw [Client.shownEndpoint, Text.trim_of_forall fun ch hc => (h ch hc).2.2, String.toList_ofList]
  rfl

end Settings

namespace Client

def Follows (c : Client) (n : Nat) (call : Call) : Prop :=
  ∃ v, Url.read? (c.endpoint.toList ++ Url.slashes n ++ Url.slashed call.path) = some v ∧
    (c.request call).url = (v.addQuery call.query).withoutUser.withoutFragment

section
variable {s : Settings} {c : Client}

theorem shownEndpoint_withSlashes (bare : s.Bare) (n : Nat) :
    shownEndpoint (s.withSlashes n).endpoint = shownEndpoint s.endpoint := by
  refine String.toList_injective ?_
  rw [(bare.withSlashes n).shownEndpoint, bare.shownEndpoint, s.toList_withSlashes, Text.dropSlashes_append_slashes]

theorem exists_base (hb : BuiltFrom s c) (bare : s.Bare)
    (last : ∀ ch ∈ c.endpoint.toList.getLast?, ch ≠ '\\' ∧ Url.isEdge ch = false) :
    ∃ u k, Url.Continued c.endpoint.toList u ∧ s.endpoint.toList = c.endpoint.toList ++ Url.slashes k ∧
      ∀ n, ∃ base, base? (s.withSlashes n).endpoint = some base ∧ u.Slashed base (k + n) := by
  have hc : c.endpoint.toList = Text.dropSlashes s.endpoint.toList := by rw [hb.endpoint, bare.shownEndpoint]
  obtain ⟨k, hk⟩ := Text.exists_dropSlashes_append s.endpoint.toList
  rw [← hc] at hk
  have hmem : ∀ ch ∈ c.endpoint.toList, ch ∈ s.endpoint.toList := by
    intro ch h
    rw [hk]
    exact List.mem_append_left _ h
  have hscheme : hasHttpScheme s.endpoint.toList = true ∧ Url.read? s.endpoint.toList = some c.base := by
    have hbase := hb.base
    rw [bare.base?] at hbase
    simpa using hbase
  have hlast : ∀ ch ∈ c.endpoint.toList.getLast?, Url.isSlash ch = false := by
    intro ch h
    have hne : ch ≠ '/' := Text.ne_slash_of_dropSlashes ch (hc ▸ h)
    simp [Url.isSlash, hne, (last ch h).1]
  have hread : (Url.read? (c.endpoint.toList ++ Url.slashes k)).isSome = true := by
    rw [← hk, hscheme.2]
    rfl
  obtain ⟨u, hu⟩ := Url.exists_continued (fun ch h => ⟨(bare ch (hmem ch h)).1, (bare ch (hmem ch h)).2.1⟩)
    ⟨fun ch h => bare.isSkipped ch (hmem ch h), fun ch h => (last ch h).2⟩ hlast hread
  refine ⟨u, k, hu, hk, fun n => ?_⟩
  obtain ⟨base, hbase, hslashed⟩ := hu.read_slashes (k + n)
  refine ⟨base, ?_, hslashed⟩
  have ht : (s.withSlashes n).endpoint.toList = c.endpoint.toList ++ Url.slashes (k + n) := by
    rw [s.toList_withSlashes, hk, List.append_assoc, Url.slashes, Url.slashes, List.replicate_append_replicate]
    rfl
  rw [(bare.withSlashes n).base?, if_pos, ht, hbase]
  rw [s.toList_withSlashes]
  exact hasHttpScheme_append hscheme.1 _

theorem exists_build_withSlashes (h : build s = .ok c) (bare : s.Bare) {n : Nat} {base : Url}
    (hbase : base? (s.withSlashes n).endpoint = some base) :
    ∃ c', build (s.withSlashes n) = .ok c' ∧ c'.endpoint = c.endpoint ∧ c'.base = base := by
  obtain ⟨-, token, tenant, userAgent⟩ := exists_build_iff.mp ⟨c, h⟩
  have hs : Acceptable (s.withSlashes n) := ⟨Option.isSome_of_eq_some hbase, token, tenant, userAgent⟩
  obtain ⟨c', h'⟩ := exists_build_iff.mpr hs
  have hb' := builtFrom_of_build h'
  refine ⟨c', h', ?_, Option.some.inj (hb'.base.symm.trans hbase)⟩
  rw [hb'.endpoint, shownEndpoint_withSlashes bare, (builtFrom_of_build h).endpoint]

variable {u : Url} {n : Nat}

theorem follows_of_slashed (hu : Url.Continued c.endpoint.toList u) (hb : u.Slashed c.base n)
    (hroot : Url.trimmed u.path ≠ [[]]) (call : Call) : c.Follows (u.surplus n) call := by
  have hsettled : ∀ s ∈ .replicate (u.surplus n) [] ++ call.path, Url.IsSettled s :=
    List.forall_mem_append.mpr ⟨Url.isSettled_replicate _, call.isSettled_path⟩
  have hread := hu.more _ (by simp [c.path_ne_nil call]) hsettled
  have htext : Url.slashed (.replicate (u.surplus n) [] ++ call.path) =
      Url.slashes (u.surplus n) ++ Url.slashed call.path := by
    rw [Url.slashes_eq, Url.slashed_append]
  have hr : c.root = Url.trimmed u.path ++ .replicate (u.surplus n) [] := hb.root.trans (u.stem_surplus hroot n)
  rw [htext, ← List.append_assoc] at hread
  refine ⟨_, hread, ?_⟩
  rw [request_url_of_slashed hb, hr, List.append_assoc]

theorem request_url_iff {c' : Client} {m : Nat} (hb : u.Slashed c.base m) (hb' : u.Slashed c'.base (m + n))
    (call : Call) :
    (c'.request call).url.toString = (c.request call).url.toString ↔ n = 0 ∨ m + n ≤ u.spare := by
  rw [request_url_of_slashed hb, request_url_of_slashed hb', Url.toString_inj_of_path, Url.slashed_append,
    Url.slashed_append, List.append_cancel_right_eq, root, root, hb.root, hb'.root, Url.slashed_stem_inj, Url.spare]
  by_cases hq : Url.trimmed u.path = []
  · simp only [hq, true_and, if_true]
    omega
  · simp only [hq, false_and, or_false, if_false]
    omega

end

/-- Slashes at its end do not show in the endpoint. One of them does not show in the requests either, nor do two
after an endpoint that has no path; of more, all but one do. -/
theorem slashes_passed_on {s : Settings} {c : Client} (h : build s = .ok c) (bare : s.Bare)
    (last : ∀ ch ∈ c.endpoint.toList.getLast?, ch ≠ '\\' ∧ Url.isEdge ch = false) :
    ∃ u k, Url.read? c.endpoint.toList = some u ∧ s.endpoint.toList = c.endpoint.toList ++ Url.slashes k ∧
      ∀ n, ∃ c', build (s.withSlashes n) = .ok c' ∧ c'.endpoint = c.endpoint ∧ ∀ call,
        ((c'.request call).url.toString = (c.request call).url.toString ↔ n = 0 ∨ k + n ≤ u.spare) ∧
          (Url.trimmed u.path ≠ [[]] → c'.Follows (u.surplus (k + n)) call) := by
  have hb := builtFrom_of_build h
  obtain ⟨u, k, hu, hk, hbase⟩ := exists_base hb bare last
  have hc : u.Slashed c.base k := by
    obtain ⟨base, hzero, hslashed⟩ := hbase 0
    rw [s.withSlashes_zero, hb.base] at hzero
    cases hzero
    exact hslashed
  refine ⟨u, k, hu.read, hk, fun n => ?_⟩
  obtain ⟨base, hn, hslashed⟩ := hbase n
  obtain ⟨c', hbuild, hendpoint, rfl⟩ := exists_build_withSlashes h bare hn
  refine ⟨c', hbuild, hendpoint, fun call => ⟨request_url_iff hc hslashed call, fun hroot => ?_⟩⟩
  rw [← hendpoint] at hu
  exact follows_of_slashed hu hslashed hroot call

def versionedSettings : Settings := ⟨"http://h/v2/", "t", none, none⟩

def versionedClient : Client where
  endpoint := "http://h/v2"
  base := ⟨false, [], none, ['h'], none, ["v2".toList, []], none, none⟩
  token := "t"
  tenant := none
  userAgent := defaultUserAgent

theorem slashes_passed_on_versioned :
    build versionedSettings = .ok versionedClient ∧ versionedSettings.Bare ∧
      ∃ c, build (versionedSettings.withSlashes 1) = .ok c ∧ c.endpoint = "http://h/v2" ∧
        ∀ call, (c.request call).url.toString ≠ (versionedClient.request call).url.toString := by
  have h : build versionedSettings = .ok versionedClient := rfl
  have bare : versionedSettings.Bare := by decide
  have last : ∀ ch ∈ versionedClient.endpoint.toList.getLast?, ch ≠ '\\' ∧ Url.isEdge ch = false := by
    intro ch hch
    obtain rfl : '2' = ch := Option.some.inj hch
    decide
  obtain ⟨u, k, hu, hk, hn⟩ := slashes_passed_on h bare last
  obtain ⟨c, hc, he, hcall⟩ := hn 1
  refine ⟨h, bare, c, hc, he, fun call hsame => ?_⟩
  have hk : k = 1 := by
    have hlength := congrArg List.length hk
    rw [List.length_append, Url.slashes, List.length_replicate] at hlength
    exact (Nat.add_left_cancel (hlength.symm.trans (show _ = "http://h/v2".toList.length + 1 by decide)))
  have hspare : u.spare = 1 := by
    cases hu.symm.trans (show Url.read? "http://h/v2".toList = some _ from rfl)
    decide
  have hone := (hcall call).1.mp hsame
  omega

theorem slashes_not_dropped :
    ∃ c c', build ⟨"http://h/v2", "t", none, none⟩ = .ok c ∧ build ⟨"http://h/v2//", "t", none, none⟩ = .ok c' ∧
      c'.endpoint = c.endpoint ∧
      (c.request (.listReports (Filter.reports.expand (.unknown _)))).url.toString = "http://h/v2/reports" ∧
      (c'.request (.listReports (Filter.reports.expand (.unknown _)))).url.toString = "http://h/v2//reports" :=
  ⟨_, _, rfl, rfl, rfl, by decide +kernel, by decide +kernel⟩

end Client

end ProtectionProvider
