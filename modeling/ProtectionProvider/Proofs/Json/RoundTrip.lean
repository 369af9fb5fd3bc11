import ProtectionProvider.Json.Basic
import ProtectionProvider.Json.Reader

/-!
# Reading what was printed

The reader is a machine that takes one character at a time. After the printed text of a value it has
put the value in its place, but for a number, which only the next character ends (`Reading.Ends`).
`read?_toString` follows for every value whose strings are texts and whose numbers are integers.
-/

namespace ProtectionProvider.Json

/-! ## Printable values -/

def Text.Scalar (t : Text) : Prop := ∀ n ∈ t, n.isValidChar

theorem Text.scalar_ofString (s : String) : (Text.ofString s).Scalar := by
  intro n hn
  obtain ⟨c, -, rfl⟩ := List.mem_map.mp hn
  exact c.valid

mutual
def Printable : Json → Prop
  | .decimal _ => False
  | .string t => t.Scalar
  | .array l => PrintableItems l
  | .object ms => PrintableMembers ms
  | _ => True
  termination_by structural j => j
def PrintableItems : List Json → Prop
  | [] => True
  | j :: l => j.Printable ∧ PrintableItems l
  termination_by structural l => l
def PrintableMembers : List (Text × Json) → Prop
  | [] => True
  | (t, j) :: ms => t.Scalar ∧ j.Printable ∧ PrintableMembers ms
  termination_by structural ms => ms
end

theorem printable_array {l : List Json} (h : ∀ j ∈ l, j.Printable) : (Json.array l).Printable := by
  show PrintableItems l
  induction l with
  | nil => trivial
  | cons j l ih => exact ⟨h j (by simp), ih fun i hi => h i (by simp [hi])⟩

/-! ## Numbers -/

theorem natOf_toDigits (n : Nat) : Numeral.natOf (Nat.toDigits 10 n) = n := by
  have := Nat.ofDigitChars_ten_toDigits (n := n)
  rw [Nat.ofDigitChars_eq_foldl] at this
  rw [Numeral.natOf, Text.natOfDigits, List.foldl_map]
  exact this

theorem toDigits_pos {n : Nat} (hn : 0 < n) :
    ∃ c cs, Nat.toDigits 10 n = c :: cs ∧ c ≠ '0' ∧ c.isDigit = true ∧ ∀ d ∈ cs, d.isDigit = true := by
  have hd : ∀ c ∈ Nat.toDigits 10 n, c.isDigit = true := fun c hc =>
    Nat.isDigit_of_mem_toDigits (by decide) (by decide) hc
  suffices h : ∃ c cs, Nat.toDigits 10 n = c :: cs ∧ c ≠ '0' by
    obtain ⟨c, cs, e, hc⟩ := h
    rw [e] at hd
    exact ⟨c, cs, e, hc, hd c (by simp), fun d hm => hd d (by simp [hm])⟩
  clear hd
  induction n using Nat.strongRecOn with
  | ind n ih =>
    rw [Nat.toDigits_eq_if (by decide)]
    by_cases h : n < 10
    · refine ⟨n.digitChar, [], by rw [if_pos h], ?_⟩
      intro h0
      rw [Nat.digitChar_eq_zero] at h0
      omega
    · obtain ⟨c, cs, e, hc⟩ := ih (n / 10) (by omega) (by omega)
      exact ⟨c, cs ++ [(n % 10).digitChar], by rw [if_neg h, e, List.cons_append], hc⟩

theorem read_digits (f : List Frame) (cs : List Char) (h : ∀ d ∈ cs, d.isDigit = true) (read : List Char) :
    cs.foldlM Reading.next? ⟨f, .number ⟨.digits, read⟩⟩ = some ⟨f, .number ⟨.digits, cs.reverse ++ read⟩⟩ := by
  induction cs generalizing read with
  | nil => rfl
  | cons c cs ih =>
    have hc : Reading.next? ⟨f, .number ⟨.digits, read⟩⟩ c = some ⟨f, .number ⟨.digits, c :: read⟩⟩ := by
      simp [Reading.next?, Numeral.next?, Numeral.nextPart?, h c (by simp)]
    rw [List.foldlM_cons, hc]
    simpa using ih (fun d hd => h d (by simp [hd])) (c :: read)

/-! ## Strings -/

def Quoted.feed (q : Quoted) (c : Char) : Option Quoted := if q.ends c then none else q.next? c

theorem hex_digits {n : Nat} (h : n < 65536) :
    16 * (16 * (16 * (n / 4096 % 16) + n / 256 % 16) + n / 16 % 16) + n % 16 = n := by
  omega

theorem feed_unicodeEscape {n : Nat} (h : n < 65536) (ps : List Nat) :
    (unicodeEscape n).foldlM Quoted.feed ⟨ps, .none⟩ = some ⟨n :: ps, .none⟩ := by
  have hv : ∀ m, Text.hexValue? (Text.lowerHex (m % 16)) = some (m % 16) := fun m =>
    Text.hexValue?_lowerHex (Nat.mod_lt m (by decide))
  simp [unicodeEscape, Quoted.feed, Quoted.ends, Quoted.next?, hv, hex_digits h]

theorem feed_printPoint {n : Nat} (h : n.isValidChar) (ps : List Nat) :
    (printPoint n).foldlM Quoted.feed ⟨ps, .none⟩ = some ⟨n :: ps, .none⟩ := by
  unfold printPoint
  -- the seven short escapes
  iterate 7
    split
    · subst_vars; rfl
  split
  · exact feed_unicodeEscape (by omega) ps
  · rename_i h22 h5C _ _ _ _ _ h20
    obtain ⟨c, hc, ht⟩ : ∃ c, char? n = some c ∧ c.toNat = n := ⟨Char.ofNatAux n h, dif_pos h, rfl⟩
    have hq : c ≠ '"' := fun e => h22 (ht ▸ congrArg Char.toNat e)
    have hb : c ≠ '\\' := fun e => h5C (ht ▸ congrArg Char.toNat e)
    simp [hc, Quoted.feed, Quoted.ends, Quoted.next?, hq, hb, ht, h20]

theorem feed_text : ∀ (t : Text), t.Scalar → ∀ ps : List Nat,
    (t.flatMap printPoint).foldlM Quoted.feed ⟨ps, .none⟩ = some ⟨t.reverse ++ ps, .none⟩
  | [], _, ps => rfl
  | n :: t, h, ps => by
    rw [List.flatMap_cons, List.foldlM_append, feed_printPoint (h n (by simp))]
    simpa using feed_text t (fun m hm => h m (by simp [hm])) (n :: ps)

theorem joinPairs_scalar : ∀ {t : Text}, t.Scalar → Quoted.joinPairs t = t
  | [], _ => rfl
  | [_], _ => rfl
  | m :: n :: t, h => by
    have hm : ¬ (Quoted.isHigh m = true) := by
      have := h m (by simp)
      simp only [Nat.isValidChar] at this
      simp only [Quoted.isHigh, Bool.and_eq_true, decide_eq_true_eq]
      omega
    have ht : Text.Scalar (n :: t) := fun k hk => h k (List.mem_cons_of_mem m hk)
    simp [Quoted.joinPairs, hm, joinPairs_scalar ht]

theorem read_of_feed (stage : Quoted → Reading)
    (hs : ∀ q c, q.ends c = false → (stage q).next? c = (q.next? c).map stage) :
    ∀ (cs : List Char) {q q' : Quoted}, cs.foldlM Quoted.feed q = some q' →
      cs.foldlM Reading.next? (stage q) = some (stage q')
  | [], q, q', h => by
    simp only [List.foldlM_nil, Option.pure_def, Option.some.injEq] at h ⊢
    rw [h]
  | c :: cs, q, q', h => by
    rw [List.foldlM_cons] at h ⊢
    obtain ⟨q₁, h₁, h₂⟩ := Option.bind_eq_some_iff.mp h
    unfold Quoted.feed at h₁
    split at h₁
    · cases h₁
    · rename_i he
      rw [hs q c (by simpa using he), h₁]
      exact read_of_feed stage hs cs h₂

theorem read_printed_text (stage : Quoted → Reading)
    (hs : ∀ q c, q.ends c = false → (stage q).next? c = (q.next? c).map stage) {t : Text} (h : t.Scalar) :
    (t.flatMap printPoint ++ ['"']).foldlM Reading.next? (stage ⟨[], .none⟩) =
      (stage ⟨t.reverse, .none⟩).next? '"' := by
  rw [List.foldlM_append, read_of_feed stage hs _ (feed_text t h [])]
  simp

theorem text_reverse {t : Text} (h : t.Scalar) : Quoted.text ⟨t.reverse, .none⟩ = t := by
  rw [Quoted.text, List.reverse_reverse, joinPairs_scalar h]

theorem read_text (f : List Frame) {t : Text} (h : t.Scalar) :
    (t.flatMap printPoint ++ ['"']).foldlM Reading.next? ⟨f, .text ⟨[], .none⟩⟩ =
      some (Reading.put f (.string t)) := by
  rw [read_printed_text (fun q => ⟨f, .text q⟩) (fun q c he => by simp [Reading.next?, he]) h]
  simp [Reading.next?, Quoted.ends, text_reverse h]

theorem read_name (f : List Frame) (ms : List (Text × Json)) {t : Text} (h : t.Scalar) :
    (t.flatMap printPoint ++ ['"']).foldlM Reading.next? ⟨f, .nameText ms ⟨[], .none⟩⟩ =
      some ⟨f, .colon ms t⟩ := by
  rw [read_printed_text (fun q => ⟨f, .nameText ms q⟩) (fun q c he => by simp [Reading.next?, he]) h]
  simp [Reading.next?, Quoted.ends, text_reverse h]

/-! ## Values -/

/-- Where the reading is after the text of `j`: `j` is in its place, or it is a number that the next
character may end. -/
inductive Reading.Ends (f : List Frame) (j : Json) : Reading → Prop where
  | put : Ends f j (.put f j)
  | number {n : Numeral} : n.value? = some j → n.part = .zero ∨ n.part = .digits → Ends f j ⟨f, .number n⟩

def isCloser (c : Char) : Bool := c == ',' || c == ']' || c == '}'

theorem next?_put (f : List Frame) (j : Json) (c : Char) :
    (Reading.put f j).next? c = (Reading.put f j).after? c := by
  cases f with
  | nil => rfl
  | cons fr f => cases fr <;> rfl

theorem Reading.Ends.next? {f : List Frame} {j : Json} {r : Reading} (h : r.Ends f j) {c : Char}
    (hc : isCloser c = true) : r.next? c = (Reading.put f j).after? c := by
  cases h with
  | put => exact next?_put f j c
  | @number n hv hp =>
    have hn : n.next? c = none := by
      simp only [isCloser, Bool.or_eq_true, beq_iff_eq] at hc
      rcases hc with (rfl | rfl) | rfl <;> rcases hp with hp | hp <;>
        simp [Numeral.next?, hp, Numeral.nextPart?]
    simp [Reading.next?, hn, hv]

theorem Reading.Ends.value? {j : Json} {r : Reading} (h : r.Ends [] j) : r.value? = some j := by
  cases h with
  | put => rfl
  | number hv hp => exact hv

/-- The first character of a printed value opens it, and the others lead to its end. -/
def Readable (s : List Char) (j : Json) : Prop :=
  ∃ c cs, s = c :: cs ∧ isBlank c = false ∧ c ≠ ']' ∧
    ∀ f, ∃ r₀ r, Reading.open? f c = some r₀ ∧ cs.foldlM Reading.next? r₀ = some r ∧ r.Ends f j

theorem Readable.value {s : List Char} {j : Json} (h : Readable s j) (f : List Frame) :
    ∃ r : Reading, s.foldlM Reading.next? ⟨f, .value⟩ = some r ∧ r.Ends f j := by
  obtain ⟨c, cs, rfl, hb, -, ho⟩ := h
  obtain ⟨r₀, r, h₀, h₁, he⟩ := ho f
  refine ⟨r, ?_, he⟩
  rw [List.foldlM_cons, show Reading.next? ⟨f, .value⟩ c = some r₀ by simp [Reading.next?, hb, h₀]]
  exact h₁

theorem Readable.firstItem {s : List Char} {j : Json} (h : Readable s j) (f : List Frame) :
    ∃ r : Reading, s.foldlM Reading.next? ⟨f, .firstItem⟩ = some r ∧ r.Ends (.array [] :: f) j := by
  obtain ⟨c, cs, rfl, hb, hc, ho⟩ := h
  obtain ⟨r₀, r, h₀, h₁, he⟩ := ho (.array [] :: f)
  refine ⟨r, ?_, he⟩
  rw [List.foldlM_cons, show Reading.next? ⟨f, .firstItem⟩ c = some r₀ by simp [Reading.next?, hb, hc, h₀]]
  exact h₁

theorem ne_of_isDigit {c d : Char} (hc : c.isDigit = true) (hd : d.isDigit = false) : c ≠ d := by
  rintro rfl
  rw [hc] at hd
  cases hd

theorem isBlank_digit {c : Char} (h : c.isDigit = true) : isBlank c = false := by
  simp [isBlank, ne_of_isDigit h (d := ' ') rfl, ne_of_isDigit h (d := '\t') rfl,
    ne_of_isDigit h (d := '\n') rfl, ne_of_isDigit h (d := '\r') rfl]

theorem open?_digit (f : List Frame) {c : Char} (hc : c ≠ '0') (hd : c.isDigit = true) :
    Reading.open? f c = some ⟨f, .number ⟨.digits, [c]⟩⟩ := by
  have hn : ∀ {d : Char}, d.isDigit = false → c ≠ d := ne_of_isDigit hd
  simp [Reading.open?, Numeral.start?, hn (d := '{') rfl, hn (d := '[') rfl, hn (d := '"') rfl,
    hn (d := 'n') rfl, hn (d := 't') rfl, hn (d := 'f') rfl, hn (d := '-') rfl, hc, hd]

theorem intOf_digits {c : Char} (h : c ≠ '-') (cs : List Char) :
    Numeral.intOf (c :: cs) = Numeral.natOf (c :: cs) := by
  rw [Numeral.intOf]
  rintro ds ⟨rfl, -⟩
  exact h rfl

theorem readable_nat {n : Nat} (hn : 0 < n) : Readable (Nat.toDigits 10 n) (.int n) := by
  obtain ⟨c, cs, e, hc, hd, hds⟩ := toDigits_pos hn
  refine ⟨c, cs, e, isBlank_digit hd, ne_of_isDigit hd rfl, fun f =>
    ⟨_, _, open?_digit f hc hd, read_digits f cs hds [c], .number ?_ (.inr rfl)⟩⟩
  have hv := natOf_toDigits n
  rw [e] at hv
  simp [Numeral.value?, intOf_digits (ne_of_isDigit hd (d := '-') rfl), hv]

theorem readable_negSucc (n : Nat) : Readable (Text.decimal (.negSucc n)) (.int (.negSucc n)) := by
  obtain ⟨c, cs, e, hc, hd, hds⟩ := toDigits_pos n.succ_pos
  have hs : ∀ f, Reading.next? ⟨f, .number ⟨.sign, ['-']⟩⟩ c = some ⟨f, .number ⟨.digits, [c, '-']⟩⟩ := by
    intro f
    simp [Reading.next?, Numeral.next?, Numeral.nextPart?, hc, hd]
  refine ⟨'-', c :: cs, by rw [Text.decimal, e], rfl, by decide, fun f => ?_⟩
  refine ⟨⟨f, .number ⟨.sign, ['-']⟩⟩, ⟨f, .number ⟨.digits, cs.reverse ++ [c, '-']⟩⟩, rfl, ?_, .number ?_ (.inr rfl)⟩
  · rw [List.foldlM_cons, hs]
    exact read_digits f cs hds [c, '-']
  · have hv := natOf_toDigits (n + 1)
    rw [e] at hv
    simp [Numeral.value?, Numeral.intOf, hv, Int.negSucc_eq]

theorem readable_int : ∀ n : Int, Readable (Text.decimal n) (.int n)
  | .ofNat 0 => ⟨'0', [], rfl, rfl, by decide, fun f => ⟨_, _, rfl, rfl, .number rfl (.inl rfl)⟩⟩
  | .ofNat (n + 1) => readable_nat n.succ_pos
  | .negSucc n => readable_negSucc n

theorem read_member {f : List Frame} (ms : List (Text × Json)) {t : Text} (h : t.Scalar) {r₀ : Reading}
    (hq : r₀.next? '"' = some ⟨f, .nameText ms ⟨[], .none⟩⟩) {s : List Char} {r : Reading}
    (hr : s.foldlM Reading.next? ⟨.member ms t :: f, .value⟩ = some r) :
    (printText t ++ ':' :: s).foldlM Reading.next? r₀ = some r := by
  have hn := read_name f ms h
  rw [printText, List.cons_append, List.cons_append, List.foldlM_cons, hq]
  simp only [Option.bind_eq_bind, Option.bind_some]
  rw [List.foldlM_append, hn]
  exact hr

mutual
theorem readable_print : ∀ j : Json, j.Printable → Readable j.print j
  | .null, _ => ⟨'n', ['u', 'l', 'l'], rfl, rfl, by decide, fun f => ⟨_, _, rfl, rfl, .put⟩⟩
  | .bool true, _ => ⟨'t', ['r', 'u', 'e'], rfl, rfl, by decide, fun f => ⟨_, _, rfl, rfl, .put⟩⟩
  | .bool false, _ => ⟨'f', ['a', 'l', 's', 'e'], rfl, rfl, by decide, fun f => ⟨_, _, rfl, rfl, .put⟩⟩
  | .int n, _ => readable_int n
  | .string t, h => ⟨'"', _, rfl, rfl, by decide, fun f => ⟨_, _, rfl, read_text f h, .put⟩⟩
  | .array [], _ => ⟨'[', [']'], rfl, rfl, by decide, fun f => ⟨_, _, rfl, rfl, .put⟩⟩
  | .array (j :: l), h => by
    refine ⟨'[', j.print ++ printItems l, rfl, rfl, by decide, fun f => ?_⟩
    obtain ⟨r, hr, he⟩ := (readable_print j h.1).firstItem f
    refine ⟨_, _, rfl, ?_, .put⟩
    rw [List.foldlM_append, hr]
    exact read_printItems l h.2 f [] j r he
  | .object [], _ => ⟨'{', ['}'], rfl, rfl, by decide, fun f => ⟨_, _, rfl, rfl, .put⟩⟩
  | .object ((t, j) :: ms), h => by
    refine ⟨'{', printText t ++ ':' :: j.print ++ printMembers ms, rfl, rfl, by decide, fun f => ?_⟩
    obtain ⟨r, hr, he⟩ := (readable_print j h.2.1).value (.member [] t :: f)
    refine ⟨_, _, rfl, ?_, .put⟩
    rw [List.foldlM_append, read_member [] h.1 rfl hr]
    exact read_printMembers ms h.2.2 f [] t j r he
theorem read_printItems : ∀ (l : List Json), PrintableItems l → ∀ (f : List Frame) (items : List Json)
    (j : Json) (r : Reading), r.Ends (.array items :: f) j →
      (printItems l).foldlM Reading.next? r = some (.put f (.array (items.reverse ++ j :: l)))
  | [], _, f, items, j, r, he => by
    rw [printItems, List.foldlM_cons, he.next? rfl]
    simp [Reading.after?, Reading.put, isBlank]
  | i :: l, h, f, items, j, r, he => by
    obtain ⟨r₁, hr, he₁⟩ := (readable_print i h.1).value (.array (j :: items) :: f)
    rw [printItems, List.cons_append, List.foldlM_cons, he.next? rfl,
      show (Reading.put (.array items :: f) j).after? ',' = some ⟨.array (j :: items) :: f, .value⟩ from rfl]
    simp only [Option.bind_eq_bind, Option.bind_some]
    rw [List.foldlM_append, hr]
    simpa using read_printItems l h.2 f (j :: items) i r₁ he₁
theorem read_printMembers : ∀ (l : List (Text × Json)), PrintableMembers l → ∀ (f : List Frame)
    (ms : List (Text × Json)) (t : Text) (j : Json) (r : Reading), r.Ends (.member ms t :: f) j →
      (printMembers l).foldlM Reading.next? r = some (.put f (.object (ms.reverse ++ (t, j) :: l)))
  | [], _, f, ms, t, j, r, he => by
    rw [printMembers, List.foldlM_cons, he.next? rfl]
    simp [Reading.after?, Reading.put, isBlank]
  | (u, i) :: l, h, f, ms, t, j, r, he => by
    obtain ⟨r₁, hr, he₁⟩ := (readable_print i h.2.1).value (.member ((t, j) :: ms) u :: f)
    rw [printMembers, List.cons_append, List.cons_append, List.foldlM_cons, he.next? rfl,
      show (Reading.put (.member ms t :: f) j).after? ',' = some ⟨f, .name ((t, j) :: ms)⟩ from rfl]
    simp only [Option.bind_eq_bind, Option.bind_some]
    rw [List.foldlM_append, read_member ((t, j) :: ms) h.1 rfl hr]
    simpa using read_printMembers l h.2.2 f ((t, j) :: ms) u i r₁ he₁
end

theorem read?_toString {j : Json} (h : j.Printable) : read? j.toString = some j := by
  obtain ⟨r, hr, he⟩ := (readable_print j h).value []
  rw [read?, toString, String.toList_ofList, readChars?, hr]
  exact he.value?

end ProtectionProvider.Json
