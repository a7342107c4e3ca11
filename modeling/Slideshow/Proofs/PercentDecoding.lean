import Slideshow.Url.Basic
import Slideshow.Proofs.CharacterClasses
import Slideshow.Proofs.EncodedText

/-!
# Percent decoding

What is written with some reserved characters is decoded to the bytes of the text if the percent sign
is among them, and else to what the text itself is decoded to. A segment of a path is a dot or two of
them, in one of the ways of writing these, if it is decoded to dots.
-/
namespace Slideshow.Url
open Text

/-! ## Bytes -/

theorem hexValue?_hexDigit {n : Nat} (h : n < 16) : hexValue? (hexDigit n) = some n := by
  have hall : ∀ n < 16, hexValue? (hexDigit n) = some n := by decide
  exact hall n h

theorem decodeBytes_percentByte (b : UInt8) (s : Text) :
    decodeBytes (percentByte b ++ s) = b :: decodeBytes s := by
  have hb : b.toNat < 256 := b.toNat_lt
  have hvalue : 16 * (b.toNat / 16) + b.toNat % 16 = b.toNat := Nat.div_add_mod b.toNat 16
  simp only [percentByte, List.cons_append, List.nil_append, decodeBytes,
    hexValue?_hexDigit (show b.toNat / 16 < 16 by omega),
    hexValue?_hexDigit (Nat.mod_lt b.toNat (by decide : 16 > 0)), hvalue, UInt8.ofNat_toNat]

theorem decodeBytes_flatMap (bytes : Bytes) (s : Text) :
    decodeBytes (bytes.flatMap percentByte ++ s) = bytes ++ decodeBytes s := by
  induction bytes with
  | nil => rfl
  | cons b bytes ih =>
    rw [List.flatMap_cons, List.append_assoc, decodeBytes_percentByte, ih, List.cons_append]

theorem decodeBytes_cons {c : Char} (h : c ≠ '%') (s : Text) :
    decodeBytes (c :: s) = String.utf8EncodeChar c ++ decodeBytes s := by
  rw [decodeBytes]
  rintro a b rest rfl
  exact absurd rfl h

/-- A percent sign without two digits behind it stands for itself. -/
theorem decodeBytes_percent {s : Text}
    (h : ∀ a b rest, s = a :: b :: rest → hexValue? a = none ∨ hexValue? b = none) :
    decodeBytes ('%' :: s) = 37 :: decodeBytes s := by
  have hcode : String.utf8EncodeChar '%' = [37] := by decide
  rcases s with _ | ⟨a, _ | ⟨b, rest⟩⟩
  · rw [decodeBytes, hcode]
    · rfl
    · simp
  · rw [decodeBytes, hcode]
    · rfl
    · simp
  · rw [decodeBytes]
    rcases h a b rest rfl with ha | hb
    · rw [ha]
    · rw [hb]
      cases hexValue? a <;> rfl

/-! ## Encoded text -/

theorem encode_cons (reserved : List Char) (c : Char) (t : Text) :
    encode reserved (c :: t) = (if c.toNat < 32 || 127 ≤ c.toNat || c ∈ reserved then
      (String.utf8EncodeChar c).flatMap percentByte else [c]) ++ encode reserved t := by
  rw [encode, List.flatMap_cons, encode]

/-- With the percent sign reserved, decoding gives the bytes of the text. -/
theorem decodeBytes_encode_of_mem {reserved : List Char} (h : '%' ∈ reserved) (t : Text) :
    decodeBytes (encode reserved t) = Utf8.encode t := by
  induction t with
  | nil => rfl
  | cons c t ih =>
    rw [encode_cons, Utf8.encode, List.flatMap_cons, ← Utf8.encode]
    split
    · rw [decodeBytes_flatMap, ih]
    · next hplain =>
      have hc : c ≠ '%' := by
        rintro rfl
        simp [h] at hplain
      rw [List.singleton_append, decodeBytes_cons hc, ih]

/-- Characters that stand for themselves where the digits and the percent sign do. -/
structure KeepsDigits (reserved : List Char) : Prop where
  percent : '%' ∉ reserved
  digits : ∀ c ∈ reserved, hexValue? c = none

theorem keepsDigits_pathReserved : KeepsDigits pathReserved := by
  refine ⟨by decide, fun c hc => ?_⟩
  have hall : pathReserved.all fun c => (hexValue? c).isNone := by cbv
  simpa using List.all_eq_true.1 hall c hc

section Keeps
variable {reserved : List Char}

/-- A character at the front of encoded text is one of the text, if it is no percent sign. -/
theorem eq_of_encode_cons {t rest : Text} {a : Char} (ha : a ≠ '%')
    (ht : encode reserved t = a :: rest) : ∃ u, t = a :: u ∧ rest = encode reserved u := by
  cases t with
  | nil => simp [encode] at ht
  | cons c t =>
    rw [encode_cons] at ht
    split at ht
    · obtain ⟨b, bytes, hbytes⟩ := List.exists_cons_of_ne_nil (String.utf8EncodeChar_ne_nil (c := c))
      rw [hbytes, List.flatMap_cons, percentByte] at ht
      exact absurd (List.cons.inj ht).1.symm ha
    · obtain ⟨rfl, rfl⟩ := List.cons.inj ht
      exact ⟨t, rfl, rfl⟩

variable (h : KeepsDigits reserved)
include h

theorem encode_cons_of_digit {c : Char} (hc : hexValue? c ≠ none) (t : Text) :
    encode reserved (c :: t) = c :: encode reserved t := by
  have hascii : 48 ≤ c.toNat ∧ c.toNat ≤ 102 := by
    have hcode : ∀ d e : Char, d ≤ e ↔ d.toNat ≤ e.toNat := fun d e => by
      rw [Char.le_def]
      exact UInt32.le_iff_toNat_le
    by_contra hout
    refine hc ?_
    simp only [hexValue?, isDigit_iff, hcode]
    rw [if_neg (by omega), if_neg (by simp; omega), if_neg (by simp; omega)]
  rw [encode_cons, if_neg]
  · rfl
  · simp only [Bool.or_eq_true, decide_eq_true_eq, not_or]
    exact ⟨⟨by omega, by omega⟩, fun hmem => hc (h.digits c hmem)⟩

/-- Else decoding gives what the text is decoded to. -/
theorem decodeBytes_encode (t : Text) : decodeBytes (encode reserved t) = decodeBytes t := by
  induction hn : t.length using Nat.strong_induction_on generalizing t with
  | _ n ih =>
    subst hn
    cases t with
    | nil => rfl
    | cons c t =>
      have ht := ih t.length (by simp) t rfl
      by_cases hc : c = '%'
      · subst hc
        have hencoded : encode reserved ('%' :: t) = '%' :: encode reserved t := by
          rw [encode_cons, if_neg (by simp [h.percent])]
          rfl
        rw [hencoded]
        by_cases hdigits : ∃ a b u, t = a :: b :: u ∧ hexValue? a ≠ none ∧ hexValue? b ≠ none
        · obtain ⟨a, b, u, rfl, ha, hb⟩ := hdigits
          obtain ⟨m, hm⟩ := Option.ne_none_iff_exists'.1 ha
          obtain ⟨k, hk⟩ := Option.ne_none_iff_exists'.1 hb
          rw [encode_cons_of_digit h ha, encode_cons_of_digit h hb]
          simp only [decodeBytes, hm, hk, ih u.length (by simp; omega) u rfl]
        · have hnone : ∀ {s : Text}, (∀ a b v, s = a :: b :: v → hexValue? a ≠ none →
              hexValue? b ≠ none → False) → decodeBytes ('%' :: s) = 37 :: decodeBytes s :=
            fun hs => decodeBytes_percent fun a b v hv => by
              by_contra hboth
              rw [not_or] at hboth
              exact hs a b v hv hboth.1 hboth.2
          rw [hnone fun a b v hv ha hb => hdigits ⟨a, b, v, hv, ha, hb⟩, hnone, ht]
          intro a b v hv ha hb
          have hsign : hexValue? '%' = none := by decide
          obtain ⟨u, rfl, hu⟩ := eq_of_encode_cons (by rintro rfl; exact ha hsign) hv
          obtain ⟨w, rfl, -⟩ := eq_of_encode_cons (by rintro rfl; exact hb hsign) hu.symm
          exact hdigits ⟨a, b, w, rfl, ha, hb⟩
      · rw [encode_cons, decodeBytes_cons hc]
        split
        · rw [decodeBytes_flatMap, ht]
        · rw [List.singleton_append, decodeBytes_cons hc, ht]

end Keeps

/-! ## Dots -/

/-- A dot, or a dot in its percent encoding. -/
def dots : List Text := [".", "%2e", "%2E"]

theorem eq_of_hexValue? {c : Char} {n : Nat} (h : hexValue? c = some n) :
    n < 16 ∧ (n < 10 → c.toNat = n + 48) ∧ (10 ≤ n → c.toNat = n + 87 ∨ c.toNat = n + 55) := by
  have hcode : ∀ d e : Char, d ≤ e ↔ d.toNat ≤ e.toNat := fun d e => by
    rw [Char.le_def]
    exact UInt32.le_iff_toNat_le
  simp only [hexValue?, isDigit_iff, hcode, show 'a'.toNat = 97 from rfl,
    show 'f'.toNat = 102 from rfl, show 'A'.toNat = 65 from rfl, show 'F'.toNat = 70 from rfl] at h
  split at h
  · have := Option.some.inj h
    omega
  split at h
  · have := Option.some.inj h
    omega
  split at h
  · have := Option.some.inj h
    omega
  · simp at h

theorem eq_of_utf8EncodeChar_dot {c : Char} {bytes rest : Bytes}
    (h : String.utf8EncodeChar c ++ bytes = 46 :: rest) : c = '.' ∧ bytes = rest := by
  obtain ⟨b, more, hcode, hunit⟩ := Utf8.unit_utf8EncodeChar c bytes
  rw [hcode] at h
  obtain ⟨rfl, rfl⟩ := List.cons.inj h
  obtain ⟨hc, hrest⟩ := Prod.mk.inj hunit
  exact ⟨(Option.some.inj hc).symm, hrest.symm⟩

/-- Behind a percent sign there are two digits, or it stands for itself. -/
theorem decodeBytes_percent_cases (s : Text) :
    (∃ a b u m n, s = a :: b :: u ∧ hexValue? a = some m ∧ hexValue? b = some n ∧
      decodeBytes ('%' :: s) = UInt8.ofNat (16 * m + n) :: decodeBytes u) ∨
    decodeBytes ('%' :: s) = 37 :: decodeBytes s := by
  by_cases hdigits : ∃ a b u m n, s = a :: b :: u ∧ hexValue? a = some m ∧ hexValue? b = some n
  · obtain ⟨a, b, u, m, n, rfl, hm, hn⟩ := hdigits
    exact .inl ⟨a, b, u, m, n, rfl, hm, hn, by simp only [decodeBytes, hm, hn]⟩
  · refine .inr (decodeBytes_percent fun a b u hu => ?_)
    cases hm : hexValue? a with
    | none => exact .inl rfl
    | some m =>
      cases hn : hexValue? b with
      | none => exact .inr rfl
      | some n => exact absurd ⟨a, b, u, m, n, hu, hm, hn⟩ hdigits

theorem decodeBytes_eq_nil_iff {s : Text} : decodeBytes s = [] ↔ s = [] := by
  refine ⟨fun h => ?_, by rintro rfl; rfl⟩
  cases s with
  | nil => rfl
  | cons c s =>
    by_cases hc : c = '%'
    · subst hc
      rcases decodeBytes_percent_cases s with ⟨a, b, u, m, n, -, -, -, hs⟩ | hs
      · simp [hs] at h
      · simp [hs] at h
    · rw [decodeBytes_cons hc] at h
      simp [String.utf8EncodeChar_ne_nil] at h

theorem eq_of_decodeBytes_dot {s : Text} {rest : Bytes} (h : decodeBytes s = 46 :: rest) :
    ∃ dot ∈ dots, ∃ u, s = dot ++ u ∧ decodeBytes u = rest := by
  cases s with
  | nil => simp [decodeBytes] at h
  | cons c s =>
    by_cases hc : c = '%'
    · subst hc
      rcases decodeBytes_percent_cases s with ⟨a, b, u, m, n, rfl, hm, hn, hs⟩ | hs
      · rw [hs] at h
        obtain ⟨hbyte, hrest⟩ := List.cons.inj h
        have hm := eq_of_hexValue? hm
        have hn := eq_of_hexValue? hn
        have hvalue : 16 * m + n = 46 := by
          have := congrArg UInt8.toNat hbyte
          rw [UInt8.toNat_ofNat', Nat.mod_eq_of_lt (by omega)] at this
          exact this
        have ha : a = '2' := Char.toNat_inj.1 (by rw [show '2'.toNat = 50 from rfl]; omega)
        have hb : b = 'e' ∨ b = 'E' := by
          rcases hn.2.2 (by omega) with hb | hb
          · exact .inl (Char.toNat_inj.1 (by rw [show 'e'.toNat = 101 from rfl]; omega))
          · exact .inr (Char.toNat_inj.1 (by rw [show 'E'.toNat = 69 from rfl]; omega))
        subst ha
        rcases hb with rfl | rfl
        · exact ⟨"%2e", by simp [dots], u, by simp, hrest⟩
        · exact ⟨"%2E", by simp [dots], u, by simp, hrest⟩
      · simp [hs] at h
    · rw [decodeBytes_cons hc] at h
      obtain ⟨rfl, rfl⟩ := eq_of_utf8EncodeChar_dot h
      exact ⟨".", by simp [dots], s, by simp, rfl⟩

theorem decodeBytes_dot {dot : Text} (h : dot ∈ dots) (s : Text) :
    decodeBytes (dot ++ s) = 46 :: decodeBytes s := by
  have hhex : hexValue? '2' = some 2 ∧ hexValue? 'e' = some 14 ∧ hexValue? 'E' = some 14 := by decide
  simp only [dots, List.mem_cons, List.not_mem_nil, or_false] at h
  rcases h with rfl | rfl | rfl
  · simp [decodeBytes_cons, show String.utf8EncodeChar '.' = [46] by decide]
  · simp [decodeBytes, hhex]
  · simp [decodeBytes, hhex]

theorem eq_of_toLower_e {c : Char} (h : c.toLower = 'e') : c = 'e' ∨ c = 'E' := by
  cases hu : c.isUpper with
  | false => exact .inl (by rw [← h, toLower_of_not_isUpper hu])
  | true =>
    have := toNat_toLower_of_isUpper hu
    rw [h, show 'e'.toNat = 101 from rfl] at this
    exact .inr (Char.toNat_inj.1 (by rw [show 'E'.toNat = 69 from rfl]; omega))

/-- The ways of writing a dot differ in the case of a digit only. -/
theorem mem_dots_iff {s : Text} :
    s ∈ dots ↔ s.map Char.toLower = "." ∨ s.map Char.toLower = "%2e" := by
  constructor
  · intro h
    simp only [dots, List.mem_cons, List.not_mem_nil, or_false] at h
    rcases h with rfl | rfl | rfl
    · exact .inl (by cbv)
    · exact .inr (by cbv)
    · exact .inr (by cbv)
  · rintro (h | h)
    · obtain ⟨c, rfl, hc⟩ : ∃ c, s = [c] ∧ c.toLower = '.' := by simpa [List.map_eq_cons_iff] using h
      obtain rfl := eq_of_toLower_eq hc (by decide)
      simp [dots]
    · obtain ⟨c, d, e, rfl, hc, hd, he⟩ : ∃ c d e, s = [c, d, e] ∧ c.toLower = '%' ∧
          d.toLower = '2' ∧ e.toLower = 'e' := by
        simp only [ofString_eq] at h
        rcases s with _ | ⟨c, _ | ⟨d, _ | ⟨e, _ | ⟨f, s⟩⟩⟩⟩ <;> simp at h
        exact ⟨c, d, e, rfl, h⟩
      obtain rfl := eq_of_toLower_eq hc (by decide)
      obtain rfl := eq_of_toLower_eq hd (by decide)
      rcases eq_of_toLower_e he with rfl | rfl <;> simp [dots]

theorem isSingleDot_iff {s : Text} : isSingleDot s ↔ decodeBytes s = [46] := by
  have hmem : isSingleDot s ↔ s ∈ dots := by
    rw [mem_dots_iff]
    simp [isSingleDot]
  rw [hmem]
  constructor
  · intro h
    have := decodeBytes_dot h []
    rwa [List.append_nil] at this
  · intro h
    obtain ⟨dot, hdot, u, rfl, hu⟩ := eq_of_decodeBytes_dot h
    rwa [decodeBytes_eq_nil_iff.1 hu, List.append_nil]

theorem isDoubleDot_iff {s : Text} : isDoubleDot s ↔ decodeBytes s = [46, 46] := by
  have hmem : isDoubleDot s ↔ ∃ a ∈ dots, ∃ b ∈ dots, s = a ++ b := by
    have hsmall : isDoubleDot s ↔ ∃ x y : Text, (x = "." ∨ x = "%2e") ∧ (y = "." ∨ y = "%2e") ∧
        s.map Char.toLower = x ++ y := by
      simp only [isDoubleDot, decide_eq_true_eq, List.mem_cons, List.not_mem_nil, or_false]
      constructor
      · rintro (h | h | h | h)
        · exact ⟨".", ".", .inl rfl, .inl rfl, h.trans (by simp)⟩
        · exact ⟨".", "%2e", .inl rfl, .inr rfl, h.trans (by simp)⟩
        · exact ⟨"%2e", ".", .inr rfl, .inl rfl, h.trans (by simp)⟩
        · exact ⟨"%2e", "%2e", .inr rfl, .inr rfl, h.trans (by simp)⟩
      · rintro ⟨x, y, rfl | rfl, rfl | rfl, h⟩ <;> simp [h]
    rw [hsmall]
    constructor
    · rintro ⟨x, y, hx, hy, hs⟩
      obtain ⟨a, b, rfl, rfl, rfl⟩ := List.map_eq_append_iff.1 hs
      exact ⟨a, mem_dots_iff.2 hx, b, mem_dots_iff.2 hy, rfl⟩
    · rintro ⟨a, ha, b, hb, rfl⟩
      exact ⟨_, _, mem_dots_iff.1 ha, mem_dots_iff.1 hb, List.map_append⟩
  rw [hmem]
  constructor
  · rintro ⟨a, ha, b, hb, rfl⟩
    have := decodeBytes_dot hb []
    rw [List.append_nil] at this
    rw [decodeBytes_dot ha, this]
    rfl
  · intro h
    obtain ⟨a, ha, u, rfl, hu⟩ := eq_of_decodeBytes_dot h
    obtain ⟨b, hb, v, rfl, hv⟩ := eq_of_decodeBytes_dot hu
    exact ⟨a, ha, b, hb, by rw [decodeBytes_eq_nil_iff.1 hv, List.append_nil]⟩

/-! ## What encoded text holds -/

theorem mem_of_mem_encode {reserved : List Char} {c : Char} {t : Text} (hc : c ≠ '%')
    (hdigit : hexValue? c = none) (h : c ∈ encode reserved t) : c ∈ t ∧ c ∉ reserved := by
  obtain ⟨d, hd, h⟩ := List.mem_flatMap.1 h
  split at h
  · obtain ⟨b, -, hb⟩ := List.mem_flatMap.1 h
    have hbyte : b.toNat < 256 := b.toNat_lt
    simp only [percentByte, List.mem_cons, List.not_mem_nil, or_false, hc, false_or] at hb
    rcases hb with rfl | rfl
    · rw [hexValue?_hexDigit (by omega)] at hdigit
      simp at hdigit
    · rw [hexValue?_hexDigit (by omega)] at hdigit
      simp at hdigit
  · next hplain =>
    obtain rfl := List.mem_singleton.1 h
    exact ⟨hd, fun hmem => hplain (by simp [hmem])⟩

theorem eq_nil_of_encode {reserved : List Char} {t : Text} (h : encode reserved t = []) : t = [] := by
  cases t with
  | nil => rfl
  | cons c t =>
    obtain ⟨hc, -⟩ := List.append_eq_nil_iff.1 ((encode_cons reserved c t).symm.trans h)
    split at hc
    · obtain ⟨b, bytes, hbytes⟩ := List.exists_cons_of_ne_nil (String.utf8EncodeChar_ne_nil (c := c))
      simp [hbytes, percentByte] at hc
    · simp at hc

/-- A drive is written as it is. -/
theorem isDrive_of_encode {reserved : List Char} {t : Text} (h : isDrive (encode reserved t)) :
    isDrive t := by
  unfold isDrive at h
  split at h
  · next a b hdrive =>
    simp only [Bool.and_eq_true, Bool.or_eq_true, decide_eq_true_eq] at h
    obtain ⟨u, rfl, hu⟩ := eq_of_encode_cons (by rintro rfl; simp at h) hdrive
    obtain ⟨v, rfl, hv⟩ := eq_of_encode_cons (by rintro rfl; simp at h) hu.symm
    obtain rfl := eq_nil_of_encode hv.symm
    simpa [isDrive] using h
  · simp at h

end Slideshow.Url
