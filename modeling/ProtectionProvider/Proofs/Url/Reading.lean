import ProtectionProvider.Proofs.Text.Form
import ProtectionProvider.Url.Reader

/-!
# The parts of a URL that is read

In a URL that is read no question mark and no hash stands in a part that comes before the one it begins.
That stays so whatever is appended, so that the query of a URL can be read off its text (`queryOf_toString`).
-/

namespace ProtectionProvider

/-- Neither a query nor a fragment begins in the text. -/
def Url.Unbroken (s : List Char) : Prop := ∀ c ∈ s, c ≠ '?' ∧ c ≠ '#'

namespace Url.Unbroken

instance (s : List Char) : Decidable (Unbroken s) := List.decidableBAll _ s

theorem nil : Unbroken [] := by simp [Unbroken]

theorem cons {c : Char} {s : List Char} (hc : c ≠ '?' ∧ c ≠ '#') (h : Unbroken s) : Unbroken (c :: s) := by
  simpa [Unbroken] using ⟨hc, h⟩

theorem append {s t : List Char} (hs : Unbroken s) (ht : Unbroken t) : Unbroken (s ++ t) := by
  intro c hc
  rcases List.mem_append.mp hc with h | h
  · exact hs c h
  · exact ht c h

theorem flatMap {α : Type} {f : α → List Char} {l : List α} (h : ∀ a ∈ l, Unbroken (f a)) : Unbroken (l.flatMap f) := by
  intro c hc
  obtain ⟨a, ha, hm⟩ := List.mem_flatMap.mp hc
  exact h a ha c hm

theorem intercalate {c : Char} (hc : c ≠ '?' ∧ c ≠ '#') {ls : List (List Char)} (h : ∀ l ∈ ls, Unbroken l) :
    Unbroken (List.intercalate [c] ls) := by
  intro d hd
  rcases Text.mem_intercalate hd with hd | ⟨l, hl, hd⟩
  · rw [List.mem_singleton.mp hd]
    exact hc
  · exact h l hl d hd

theorem percentEncode {keep : Char → Bool} (hq : keep '?' = false) (hh : keep '#' = false) (s : List Char) :
    Unbroken (Text.percentEncode keep s) := by
  intro c hc
  rcases Text.mem_percentEncode hc with h | h | h
  · constructor <;> (intro e; subst e; simp_all)
  · subst h
    decide
  · constructor <;> (intro e; subst e; exact absurd h (by decide))

theorem toDigits {b : Nat} (hb : 1 < b) (n : Nat) : Unbroken (Nat.toDigits b n) := by
  induction n using Nat.strongRecOn with
  | ind n ih =>
    have hd : ∀ k, Unbroken [Nat.digitChar k] := fun k =>
      cons ⟨Nat.digitChar_ne '?' (by decide), Nat.digitChar_ne '#' (by decide)⟩ nil
    rw [Nat.toDigits_eq_if hb]
    split
    · exact hd n
    · exact (ih (n / b) (Nat.div_lt_self (by omega) hb)).append (hd _)

end Url.Unbroken

/-! ## Hosts -/

namespace Host

theorem unbroken_dotted (n : Nat) : Url.Unbroken (dotted n) := by
  apply Url.Unbroken.intercalate (by decide)
  intro l hl
  obtain ⟨k, -, rfl⟩ := List.mem_map.mp hl
  exact Url.Unbroken.toDigits (by decide) k

theorem unbroken_colons (groups : List Nat) : Url.Unbroken (colons groups) := by
  have hj : ∀ l : List Nat, Url.Unbroken (List.intercalate [':'] (l.map hexText)) := by
    intro l
    apply Url.Unbroken.intercalate (by decide)
    intro t ht
    obtain ⟨k, -, rfl⟩ := List.mem_map.mp ht
    exact Url.Unbroken.toDigits (by decide) k
  have hc : Url.Unbroken [':', ':'] := by decide
  unfold colons
  dsimp only
  split
  · exact hj groups
  · exact ((hj _).append hc).append (hj _)

theorem unbroken_of_read {s host : List Char} (h : read? s = some host) : Url.Unbroken host := by
  unfold read? at h
  split at h
  · split at h
    · obtain ⟨l, -, rfl⟩ := Option.map_eq_some_iff.mp h
      exact .cons (by decide) ((unbroken_colons l).append (.cons (by decide) .nil))
    · cases h
  · unfold domain? at h
    obtain ⟨t, -, h⟩ := Option.bind_eq_some_iff.mp h
    dsimp only at h
    split at h
    · cases h
    · rename_i hn
      split at h
      · obtain ⟨n, -, rfl⟩ := Option.map_eq_some_iff.mp h
        exact unbroken_dotted n
      · cases h
        intro c hc
        have hf : isForbidden c = false := by
          simp only [not_or, List.any_eq_true, not_exists, not_and, Bool.not_eq_true] at hn
          exact hn.2 c hc
        constructor <;> (intro e; subst e; exact absurd hf (by decide))

end Host

namespace Url

/-! ## Paths -/

def UnbrokenPath (path : List (List Char)) : Prop := ∀ s ∈ path, Unbroken s

namespace UnbrokenPath

theorem nil : UnbrokenPath [] := fun _ h => by cases h

section
variable {path : List (List Char)} (h : UnbrokenPath path)
include h

theorem concat {s : List Char} (hs : Unbroken s) : UnbrokenPath (path ++ [s]) := by
  intro t ht
  rcases List.mem_append.mp ht with ht | ht
  · exact h t ht
  · rw [List.mem_singleton.mp ht]
    exact hs

theorem dropLast : UnbrokenPath path.dropLast := fun s hs => h s (List.dropLast_subset _ hs)

theorem parent : UnbrokenPath (parent path) := by
  unfold Url.parent
  split
  · split
    · exact h
    · exact h.dropLast
  · exact nil

theorem stem : UnbrokenPath (stem path) := by
  unfold Url.stem
  split
  · exact nil
  · exact h

theorem dropEmptyLast : UnbrokenPath (dropEmptyLast path) := by
  unfold Url.dropEmptyLast
  split
  · exact h.dropLast
  · exact h

theorem pushSegment (segment : List Char) : UnbrokenPath (pushSegment path segment) := by
  unfold Url.pushSegment
  split
  · exact h
  dsimp only
  split
  · exact h.stem.parent.concat .nil
  split
  · exact h.stem.concat .nil
  · exact h.stem.concat (.percentEncode (by decide) (by decide) _)

end

theorem foldl_pushSegment : ∀ (segments : List (List Char)) {path : List (List Char)}, UnbrokenPath path →
    UnbrokenPath (segments.foldl Url.pushSegment path)
  | [], _, h => h
  | s :: segments, _, h => foldl_pushSegment segments (h.pushSegment s)

theorem resolve : ∀ {l before : List (List Char)}, UnbrokenPath before → UnbrokenPath l → UnbrokenPath (resolve before l)
  | [], _, hb, _ => hb
  | [s], before, hb, hl => by
    simp only [Url.resolve]
    split
    · exact hb.parent.concat .nil
    split
    · exact hb.concat .nil
    · exact hb.concat (hl s (by simp))
  | s :: t :: l, before, hb, hl => by
    have hrest : UnbrokenPath (t :: l) := fun u hu => hl u (List.mem_cons_of_mem _ hu)
    simp only [Url.resolve]
    split
    · exact resolve hb.parent hrest
    split
    · exact resolve hb hrest
    · exact resolve (hb.concat (hl s (by simp))) hrest

end UnbrokenPath

theorem unbroken_readPath (s : List Char) : UnbrokenPath (readPath s) := by
  apply UnbrokenPath.resolve .nil
  · intro t ht
    obtain ⟨u, -, rfl⟩ := List.mem_map.mp ht
    exact .percentEncode (by decide) (by decide) u

/-! ## Whole URLs -/

/-- No part begins within a part that comes before it. -/
structure Tidy (u : Url) : Prop where
  host : Unbroken u.host
  path : UnbrokenPath u.path
  query : '#' ∉ u.query.getD []

theorem tidy_of_read {s : List Char} {u : Url} (h : read? s = some u) : Tidy u := by
  unfold read? at h
  obtain ⟨⟨secure, r⟩, -, h⟩ := Option.bind_eq_some_iff.mp h
  unfold readRest? at h
  simp only [Option.bind_eq_bind, Option.bind_eq_some_iff] at h
  obtain ⟨host, hh, port, -, hu⟩ := h
  cases hu
  refine ⟨Host.unbroken_of_read hh, unbroken_readPath _, ?_⟩
  dsimp only
  split
  · simp
  · rename_i q _
    intro hq
    rcases Text.mem_percentEncode hq with hq | hq | hq <;> exact absurd hq (by decide)

theorem Tidy.append {u : Url} (h : u.Tidy) (segments : List (List Char)) : (u.append segments).Tidy where
  host := h.host
  path := h.path.dropEmptyLast.foldl_pushSegment segments
  query := h.query

theorem Tidy.addQuery {u : Url} (h : u.Tidy) (pairs : List (String × String)) : (u.addQuery pairs).Tidy := by
  cases pairs with
  | nil => exact h
  | cons p pairs =>
    refine ⟨h.host, h.path, ?_⟩
    have he : '#' ∉ Text.Form.encode (p :: pairs) := fun hc => absurd (Text.Form.isFormChar_of_mem_encode hc) (by decide)
    have hq := h.query
    show '#' ∉ Text.Form.append u.query (p :: pairs)
    unfold Text.Form.append
    split
    · exact he
    · exact he
    · rename_i q hu
      rw [hu] at hq
      simpa [he] using hq

/-- What stands between the first question mark of a URL and the hash after it. -/
def queryOf (text : String) : List Char := ((text.toList.dropWhile (· != '?')).drop 1).takeWhile (· != '#')

theorem Tidy.queryOf_toString {u : Url} (h : u.Tidy) :
    queryOf u.withoutUser.withoutFragment.toString = u.query.getD [] := by
  let before := u.scheme ++ "://".toList ++ u.host ++ u.portText ++ u.pathText
  have hs : Unbroken u.scheme := by
    unfold scheme
    split <;> decide
  have hp : Unbroken u.portText := by
    unfold portText
    split
    · exact .nil
    · exact .cons (by decide) (.toDigits (by decide) _)
  have hpath : Unbroken u.pathText := .flatMap fun s hs => .cons (by decide) (h.path s hs)
  have hb : Unbroken before := (((hs.append (by decide)).append h.host).append hp).append hpath
  have hchars : u.withoutUser.withoutFragment.toString.toList = before ++ u.query.elim [] fun q => '?' :: q := by
    rw [toString, String.toList_ofList]
    show u.scheme ++ "://".toList ++ [] ++ u.host ++ u.portText ++ u.pathText ++ _ ++ [] = _
    rw [List.append_nil, List.append_nil]
    rfl
  rw [queryOf, hchars, List.dropWhile_append_of_pos fun c hc => by simp [(hb c hc).1]]
  have hq := h.query
  cases hu : u.query with
  | none => rfl
  | some q =>
    rw [hu] at hq
    have hne : ∀ c ∈ q, (c != '#') = true := by
      intro c hc
      have hne : c ≠ '#' := fun e => hq (e ▸ hc)
      simp [hne]
    have ht : (q ++ []).takeWhile (· != '#') = q ++ [].takeWhile (· != '#') := List.takeWhile_append_of_pos hne
    simpa using ht

end Url

end ProtectionProvider
