import ProtectionProvider.Proofs.Text.Utf8
import ProtectionProvider.Text.Octets

/-!
# Undoing percent encoding

What was encoded is decoded again, provided that the percent sign itself is escaped. So two texts
are never encoded alike, and what an escape is made of cannot be taken for a separator.
-/

namespace ProtectionProvider.Text

theorem octets_injective : Function.Injective octets := by
  intro s t h
  have hs := decodeLossy_octets (.ofList s)
  have ht := decodeLossy_octets (.ofList t)
  rw [String.toList_ofList] at hs ht
  rw [h, ht] at hs
  exact (String.ofList_injective hs).symm

/-! ## Decoding -/

theorem percentDecode_cons_of_ne {c : Char} (h : c ≠ '%') (r : List Char) :
    percentDecode (c :: r) = String.utf8EncodeChar c ++ percentDecode r := by
  rw [percentDecode]
  intro a b r' hc
  exact absurd hc h

theorem percentDecode_percentOctet (b : UInt8) (r : List Char) :
    percentDecode (percentOctet b ++ r) = b :: percentDecode r := by
  have hb : b.toNat < 256 := b.toNat_lt
  have hhigh : hexValue? (upperHex (b.toNat / 16)) = some (b.toNat / 16) := hexValue?_upperHex (by omega)
  have hlow : hexValue? (upperHex (b.toNat % 16)) = some (b.toNat % 16) := hexValue?_upperHex (by omega)
  have hsum : 16 * (b.toNat / 16) + b.toNat % 16 = b.toNat := Nat.div_add_mod b.toNat 16
  simp only [percentOctet, List.cons_append, List.nil_append, percentDecode, hhigh, hlow, hsum, UInt8.ofNat_toNat]

theorem percentDecode_percentOctets (bytes : Octets) (r : List Char) :
    percentDecode (bytes.flatMap percentOctet ++ r) = bytes ++ percentDecode r := by
  induction bytes with
  | nil => rfl
  | cons b bytes ih => rw [List.flatMap_cons, List.append_assoc, percentDecode_percentOctet, ih, List.cons_append]

section
variable {keep : Char → Bool} (hk : keep '%' = false)
include hk

theorem percentDecode_percentChar (c : Char) (r : List Char) :
    percentDecode (percentChar keep c ++ r) = String.utf8EncodeChar c ++ percentDecode r := by
  unfold percentChar
  split
  · rename_i h
    have hc : c ≠ '%' := by
      rintro rfl
      rw [hk] at h
      cases h
    exact percentDecode_cons_of_ne hc r
  · exact percentDecode_percentOctets _ r

theorem percentDecode_percentEncode (s : List Char) : percentDecode (percentEncode keep s) = octets s := by
  induction s with
  | nil => rfl
  | cons c s ih =>
    show percentDecode (percentChar keep c ++ percentEncode keep s) = _
    rw [percentDecode_percentChar hk, ih]
    rfl

theorem percentEncode_injective : Function.Injective (percentEncode keep) := by
  intro s t h
  have hd := congrArg percentDecode h
  rw [percentDecode_percentEncode hk, percentDecode_percentEncode hk] at hd
  exact octets_injective hd

end

/-! ## Characters of an encoded text -/

theorem percentEncode_of_keep {keep : Char → Bool} {s : List Char} (h : ∀ c ∈ s, keep c = true) :
    percentEncode keep s = s := by
  induction s with
  | nil => rfl
  | cons c s ih =>
    have hc : percentChar keep c = [c] := if_pos (h c List.mem_cons_self)
    rw [percentEncode, List.flatMap_cons, hc]
    exact congrArg (c :: ·) (ih fun d hd => h d (List.mem_cons_of_mem _ hd))

theorem percentEncode_ne_nil {keep : Char → Bool} {s : List Char} (h : s ≠ []) : percentEncode keep s ≠ [] := by
  intro e
  obtain ⟨c, r, rfl⟩ := List.exists_cons_of_ne_nil h
  have hc : percentChar keep c = [] := (List.append_eq_nil_iff.mp e).1
  unfold percentChar at hc
  split at hc
  · cases hc
  · have hl := String.length_utf8EncodeChar c
    cases hb : String.utf8EncodeChar c with
    | nil =>
      rw [hb] at hl
      exact absurd hl.symm (Nat.ne_of_gt c.utf8Size_pos)
    | cons b bytes =>
      rw [hb] at hc
      cases hc

theorem isAlphanum_upperHex {n : Nat} (h : n < 16) : (upperHex n).isAlphanum = true := by
  revert n
  decide

theorem mem_percentOctet {b : UInt8} {c : Char} (h : c ∈ percentOctet b) : c = '%' ∨ c.isAlphanum = true := by
  have hb : b.toNat < 256 := b.toNat_lt
  simp only [percentOctet, List.mem_cons, List.not_mem_nil, or_false] at h
  rcases h with h | h | h
  · exact .inl h
  · subst h; exact .inr (isAlphanum_upperHex (by omega))
  · subst h; exact .inr (isAlphanum_upperHex (by omega))

theorem mem_percentEncode {keep : Char → Bool} {s : List Char} {c : Char} (h : c ∈ percentEncode keep s) :
    keep c = true ∨ c = '%' ∨ c.isAlphanum = true := by
  obtain ⟨d, -, hd⟩ := List.mem_flatMap.mp h
  unfold percentChar at hd
  split at hd
  · rename_i hk
    rw [List.mem_singleton.mp hd]
    exact .inl hk
  · obtain ⟨b, -, hb⟩ := List.mem_flatMap.mp hd
    exact .inr (mem_percentOctet hb)

end ProtectionProvider.Text
