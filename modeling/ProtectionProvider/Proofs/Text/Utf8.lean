import ProtectionProvider.Text.Octets

/-!
# Reading UTF-8

The reader joins the octets of each character again, so that a text that was written as UTF-8 is
read as it was (`decodeLossy_octets`).
-/

namespace ProtectionProvider.Text

theorem toNat_octet {n : Nat} (h : n < 256) : (UInt8.ofNat n).toNat = n := by
  rw [UInt8.toNat_ofNat']
  omega

theorem start_ofNat {n : Nat} (h : n < 256) :
    start (UInt8.ofNat n) =
      if n < 0x80 then ([Char.ofNat n], none)
      else if 0xC2 ≤ n ∧ n ≤ 0xDF then ([], some ⟨n - 0xC0, 1, 0x80, 0xBF⟩)
      else if n = 0xE0 then ([], some ⟨0, 2, 0xA0, 0xBF⟩)
      else if n = 0xED then ([], some ⟨0xD, 2, 0x80, 0x9F⟩)
      else if 0xE1 ≤ n ∧ n ≤ 0xEF then ([], some ⟨n - 0xE0, 2, 0x80, 0xBF⟩)
      else if n = 0xF0 then ([], some ⟨0, 3, 0x90, 0xBF⟩)
      else if n = 0xF4 then ([], some ⟨4, 3, 0x80, 0x8F⟩)
      else if 0xF1 ≤ n ∧ n ≤ 0xF3 then ([], some ⟨n - 0xF0, 3, 0x80, 0xBF⟩)
      else ([replacement], none) := by
  simp only [start, UInt8.lt_iff_toNat_lt, UInt8.le_iff_toNat_le, beq_iff_eq, ← UInt8.toNat_inj,
    Bool.and_eq_true, decide_eq_true_eq, toNat_octet h]
  rfl

theorem next_ofNat {p : Partial} {n : Nat} (h : n < 256) (hl : p.low.toNat ≤ n) (hh : n ≤ p.high.toNat) :
    next p (UInt8.ofNat n) =
      if p.missing ≤ 1 then ([Char.ofNat (p.bits * 64 + (n - 0x80))], none)
      else ([], some ⟨p.bits * 64 + (n - 0x80), p.missing - 1, 0x80, 0xBF⟩) := by
  have hb : (decide (p.low ≤ UInt8.ofNat n) && decide (UInt8.ofNat n ≤ p.high)) = true := by
    simp [UInt8.le_iff_toNat_le, toNat_octet h, hl, hh]
  simp only [next, hb, if_true, toNat_octet h]

theorem decodeFrom_last {p : Partial} {n : Nat} (h : n < 256) (hl : p.low.toNat ≤ n) (hh : n ≤ p.high.toNat)
    (hm : p.missing = 1) (r : Octets) : decodeFrom (some p) (UInt8.ofNat n :: r) =
      Char.ofNat (p.bits * 64 + (n - 0x80)) :: decodeFrom none r := by
  rw [decodeFrom, next_ofNat h hl hh, if_pos (by omega)]
  rfl

theorem decodeFrom_more {p : Partial} {n : Nat} (h : n < 256) (hl : p.low.toNat ≤ n) (hh : n ≤ p.high.toNat)
    (hm : 2 ≤ p.missing) (r : Octets) : decodeFrom (some p) (UInt8.ofNat n :: r) =
      decodeFrom (some ⟨p.bits * 64 + (n - 0x80), p.missing - 1, 0x80, 0xBF⟩) r := by
  rw [decodeFrom, next_ofNat h hl hh, if_neg (by omega)]
  rfl

theorem decodeFrom_start {b : UInt8} {p : Partial} (h : start b = ([], some p)) (r : Octets) :
    decodeFrom none (b :: r) = decodeFrom (some p) r := by
  rw [decodeFrom, h]
  rfl

/-! ## Characters -/

theorem start_two {v : Nat} (h : 0x80 ≤ v) (h' : v ≤ 0x7FF) :
    start (UInt8.ofNat (v / 64 % 0x20 + 0xC0)) = ([], some ⟨v / 64, 1, 0x80, 0xBF⟩) := by
  rw [start_ofNat (by omega), if_neg (by omega), if_pos (by omega),
    show v / 64 % 0x20 + 0xC0 - 0xC0 = v / 64 by omega]

theorem start_three {v : Nat} (hv : v.isValidChar) (h : 0x800 ≤ v) (h' : v ≤ 0xFFFF) :
    ∃ low high : UInt8, start (UInt8.ofNat (v / 4096 % 0x10 + 0xE0)) = ([], some ⟨v / 4096, 2, low, high⟩) ∧
      low.toNat ≤ v / 64 % 0x40 + 0x80 ∧ v / 64 % 0x40 + 0x80 ≤ high.toNat := by
  simp only [Nat.isValidChar] at hv
  rw [start_ofNat (by omega), if_neg (by omega), if_neg (by omega)]
  split
  · refine ⟨0xA0, 0xBF, by rw [show v / 4096 = 0 by omega], ?_, ?_⟩
    · show 0xA0 ≤ _; omega
    · show _ ≤ 0xBF; omega
  split
  · refine ⟨0x80, 0x9F, by rw [show v / 4096 = 0xD by omega], ?_, ?_⟩
    · show 0x80 ≤ _; omega
    · show _ ≤ 0x9F; omega
  rw [if_pos (by omega), show v / 4096 % 0x10 + 0xE0 - 0xE0 = v / 4096 by omega]
  refine ⟨0x80, 0xBF, rfl, ?_, ?_⟩
  · show 0x80 ≤ _; omega
  · show _ ≤ 0xBF; omega

theorem start_four {v : Nat} (hv : v.isValidChar) (h : 0x10000 ≤ v) :
    ∃ low high : UInt8, start (UInt8.ofNat (v / 262144 % 0x08 + 0xF0)) = ([], some ⟨v / 262144, 3, low, high⟩) ∧
      low.toNat ≤ v / 4096 % 0x40 + 0x80 ∧ v / 4096 % 0x40 + 0x80 ≤ high.toNat := by
  simp only [Nat.isValidChar] at hv
  rw [start_ofNat (by omega), if_neg (by omega), if_neg (by omega), if_neg (by omega), if_neg (by omega),
    if_neg (by omega)]
  split
  · refine ⟨0x90, 0xBF, by rw [show v / 262144 = 0 by omega], ?_, ?_⟩
    · show 0x90 ≤ _; omega
    · show _ ≤ 0xBF; omega
  split
  · refine ⟨0x80, 0x8F, by rw [show v / 262144 = 4 by omega], ?_, ?_⟩
    · show 0x80 ≤ _; omega
    · show _ ≤ 0x8F; omega
  rw [if_pos (by omega), show v / 262144 % 0x08 + 0xF0 - 0xF0 = v / 262144 by omega]
  refine ⟨0x80, 0xBF, rfl, ?_, ?_⟩
  · show 0x80 ≤ _; omega
  · show _ ≤ 0xBF; omega

theorem decodeFrom_utf8EncodeChar (c : Char) (r : Octets) :
    decodeFrom none (String.utf8EncodeChar c ++ r) = c :: decodeFrom none r := by
  have hv : c.val.toNat.isValidChar := c.valid
  have hc : Char.ofNat c.val.toNat = c := Char.ofNat_toNat c
  have hr := hv
  simp only [Nat.isValidChar] at hr
  unfold String.utf8EncodeChar
  generalize c.val.toNat = v at hv hc hr
  have tail : ∀ n, (0x80 : UInt8).toNat ≤ n % 0x40 + 0x80 ∧ n % 0x40 + 0x80 ≤ (0xBF : UInt8).toNat := by
    intro n
    show 0x80 ≤ _ ∧ _ ≤ 0xBF
    omega
  dsimp only
  split
  · rw [List.cons_append, decodeFrom, start_ofNat (by omega), if_pos (by omega), hc]
    rfl
  split
  · simp only [List.cons_append, List.nil_append]
    rw [decodeFrom_start (start_two (by omega) (by omega)), decodeFrom_last (by omega) (tail v).1 (tail v).2 rfl]
    dsimp only
    rw [show v / 64 * 64 + (v % 0x40 + 0x80 - 0x80) = v by omega, hc]
  split
  · obtain ⟨low, high, hs, hl, hh⟩ := start_three hv (by omega) (by omega)
    simp only [List.cons_append, List.nil_append]
    rw [decodeFrom_start hs, decodeFrom_more (by omega) hl hh (Nat.le_refl 2),
      decodeFrom_last (by omega) (tail v).1 (tail v).2 rfl]
    dsimp only
    rw [show (v / 4096 * 64 + (v / 64 % 0x40 + 0x80 - 0x80)) * 64 + (v % 0x40 + 0x80 - 0x80) = v by omega, hc]
  · obtain ⟨low, high, hs, hl, hh⟩ := start_four hv (by omega)
    simp only [List.cons_append, List.nil_append]
    rw [decodeFrom_start hs, decodeFrom_more (by omega) hl hh (show 2 ≤ 3 by decide),
      decodeFrom_more (by omega) (tail (v / 64)).1 (tail (v / 64)).2 (Nat.le_refl 2),
      decodeFrom_last (by omega) (tail v).1 (tail v).2 rfl]
    dsimp only
    rw [show ((v / 262144 * 64 + (v / 4096 % 0x40 + 0x80 - 0x80)) * 64 + (v / 64 % 0x40 + 0x80 - 0x80)) * 64 +
      (v % 0x40 + 0x80 - 0x80) = v by omega, hc]

theorem decodeLossy_octets (s : String) : decodeLossy (octets s.toList) = s := by
  have h : ∀ l : List Char, decodeFrom none (octets l) = l := by
    intro l
    induction l with
    | nil => rfl
    | cons c l ih =>
      show decodeFrom none (String.utf8EncodeChar c ++ octets l) = c :: l
      rw [decodeFrom_utf8EncodeChar, ih]
  rw [decodeLossy, h, String.ofList_toList]

end ProtectionProvider.Text
