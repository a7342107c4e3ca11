import Slideshow.Proofs.EncodedText
import Mathlib.Data.List.Nodup

/-!
# Decoding loses nothing

Bytes that are read without a label are read in one of two ways. If they are well-formed UTF-8, they
are what their text is encoded as. If not, each of them is a character of windows-1252, and these
characters are encoded as the bytes again. So the encoding and the text of a source without a byte
order mark determine its bytes.
-/
namespace Slideshow
open Text

/-! ## UTF-8 -/

namespace Utf8

/-- Bytes that some text is encoded as. -/
def IsWellFormed (bytes : Bytes) : Prop := ∃ t, encode t = bytes

/-- A byte that a sequence lacks is the next one, and it lies within bounds. -/
theorem of_finish_succ {n code value : Nat} {low high : UInt8} {bytes rest : Bytes}
    (h : finish (n + 1) low high code bytes = (some value, rest)) :
    ∃ m bytes', bytes = UInt8.ofNat m :: bytes' ∧ low.toNat ≤ m ∧ m ≤ high.toNat ∧
      finish n 0x80 0xBF (64 * code + (m - 0x80)) bytes' = (some value, rest) := by
  cases bytes with
  | nil => simp [finish] at h
  | cons b bytes =>
    rw [finish] at h
    split at h
    · next hbounds =>
      rw [UInt8.le_iff_toNat_le, UInt8.le_iff_toNat_le] at hbounds
      exact ⟨b.toNat, bytes, by rw [UInt8.ofNat_toNat], hbounds.1, hbounds.2, h⟩
    · simp at h

/-- A byte that a sequence lacks behind its second byte. -/
theorem of_finish_tail {n code value : Nat} {bytes rest : Bytes}
    (h : finish (n + 1) 0x80 0xBF code bytes = (some value, rest)) :
    ∃ m bytes', bytes = UInt8.ofNat m :: bytes' ∧ 0x80 ≤ m ∧ m ≤ 0xBF ∧
      finish n 0x80 0xBF (64 * code + (m - 0x80)) bytes' = (some value, rest) :=
  of_finish_succ h

/-- What the first byte of a sequence promises, by the number of further bytes. The bounds keep out
longer forms than are needed, surrogates and what lies behind the last code point. -/
theorem of_lead? {m n code : Nat} {low high : UInt8} (hm : m < 256)
    (h : lead? (UInt8.ofNat m) = some (n, low, high, code)) :
    (n = 1 ∧ 0xC2 ≤ m ∧ m < 0xE0 ∧ code = m - 0xC0 ∧ 0x80 ≤ low.toNat ∧ high.toNat ≤ 0xBF) ∨
    (n = 2 ∧ 0xE0 ≤ m ∧ m < 0xF0 ∧ code = m - 0xE0 ∧
      (0x80 ≤ low.toNat ∧ (m = 0xE0 → 0xA0 ≤ low.toNat)) ∧
      high.toNat ≤ 0xBF ∧ (m = 0xED → high.toNat ≤ 0x9F)) ∨
    (n = 3 ∧ 0xF0 ≤ m ∧ m < 0xF5 ∧ code = m - 0xF0 ∧
      (0x80 ≤ low.toNat ∧ (m = 0xF0 → 0x90 ≤ low.toNat)) ∧
      high.toNat ≤ 0xBF ∧ (m = 0xF4 → high.toNat ≤ 0x8F)) := by
  rw [lead?_ofNat hm] at h
  split at h
  · simp at h
  split at h
  · simp only [Option.some.injEq, Prod.mk.injEq] at h
    obtain ⟨rfl, rfl, rfl, rfl⟩ := h
    exact .inl ⟨rfl, by omega, by omega, rfl, by simp, by simp⟩
  split at h
  · simp only [Option.some.injEq, Prod.mk.injEq] at h
    obtain ⟨rfl, rfl, rfl, rfl⟩ := h
    refine .inr (.inl ⟨rfl, by omega, by omega, rfl, ?_, ?_⟩) <;> split <;> simp_all
  split at h
  · simp only [Option.some.injEq, Prod.mk.injEq] at h
    obtain ⟨rfl, rfl, rfl, rfl⟩ := h
    refine .inr (.inr ⟨rfl, by omega, by omega, rfl, ?_, ?_⟩) <;> split <;> simp_all
  · simp at h

theorem toNat_val_ofNat {v : Nat} (h : v < 0xD800 ∨ 0xDFFF < v ∧ v < 0x110000) :
    (Char.ofNat v).val.toNat = v := by
  have hvalid : v.isValidChar := h
  rw [Char.ofNat, dif_pos hvalid]
  rfl

/-- A sequence that is read as a character is the one that the character is encoded as. -/
theorem eq_of_unit {b : UInt8} {bytes rest : Bytes} {c : Char}
    (h : unit b bytes = (some c, rest)) : b :: bytes = String.utf8EncodeChar c ++ rest := by
  obtain ⟨m, hm, rfl⟩ : ∃ m, m < 256 ∧ b = UInt8.ofNat m :=
    ⟨b.toNat, b.toNat_lt, by rw [UInt8.ofNat_toNat]⟩
  rw [unit] at h
  split at h
  · next hascii =>
    have hsmall : m < 0x80 := by
      rwa [UInt8.lt_iff_toNat_lt, toNat_ofNat_byte hm] at hascii
    rw [toNat_ofNat_byte hm] at h
    obtain ⟨hc, rfl⟩ := Prod.mk.inj h
    obtain rfl := Option.some.inj hc
    rw [String.utf8EncodeChar, toNat_val_ofNat (by omega), if_pos (by omega)]
    rfl
  split at h
  · simp at h
  next n low high code hlead =>
  cases hfinish : finish n low high code bytes with
  | mk value? rest' =>
  simp only [hfinish, Prod.mk.injEq, Option.map_eq_some_iff] at h
  obtain ⟨⟨value, rfl, rfl⟩, rfl⟩ := h
  rcases of_lead? hm hlead with ⟨rfl, hlow, hhigh, hcode, hbounds⟩ |
    ⟨rfl, hlow, hhigh, hcode, hbounds⟩ | ⟨rfl, hlow, hhigh, hcode, hbounds⟩
  · obtain ⟨m₁, bytes, rfl, h₁, h₁', hend⟩ := of_finish_succ hfinish
    obtain ⟨hvalue, rfl⟩ := Prod.mk.inj hend
    have hvalue := Option.some.inj hvalue
    have hbyte : value / 64 % 32 + 192 = m := by omega
    have hbyte₁ : value % 64 + 128 = m₁ := by omega
    rw [String.utf8EncodeChar, toNat_val_ofNat (by omega), if_neg (by omega), if_pos (by omega),
      hbyte, hbyte₁]
    rfl
  · obtain ⟨m₁, bytes, rfl, h₁, h₁', hmore⟩ := of_finish_succ hfinish
    obtain ⟨m₂, bytes, rfl, h₂, h₂', hend⟩ := of_finish_tail hmore
    obtain ⟨hvalue, rfl⟩ := Prod.mk.inj hend
    have hvalue := Option.some.inj hvalue
    have hbyte : value / 4096 % 16 + 224 = m := by omega
    have hbyte₁ : value / 64 % 64 + 128 = m₁ := by omega
    have hbyte₂ : value % 64 + 128 = m₂ := by omega
    rw [String.utf8EncodeChar, toNat_val_ofNat (by omega), if_neg (by omega), if_neg (by omega),
      if_pos (by omega), hbyte, hbyte₁, hbyte₂]
    rfl
  · obtain ⟨m₁, bytes, rfl, h₁, h₁', hmore⟩ := of_finish_succ hfinish
    obtain ⟨m₂, bytes, rfl, h₂, h₂', hmore⟩ := of_finish_tail hmore
    obtain ⟨m₃, bytes, rfl, h₃, h₃', hend⟩ := of_finish_tail hmore
    obtain ⟨hvalue, rfl⟩ := Prod.mk.inj hend
    have hvalue := Option.some.inj hvalue
    have hbyte : value / 262144 % 8 + 240 = m := by omega
    have hbyte₁ : value / 4096 % 64 + 128 = m₁ := by omega
    have hbyte₂ : value / 64 % 64 + 128 = m₂ := by omega
    have hbyte₃ : value % 64 + 128 = m₃ := by omega
    rw [String.utf8EncodeChar, toNat_val_ofNat (by omega), if_neg (by omega), if_neg (by omega),
      if_neg (by omega), hbyte, hbyte₁, hbyte₂, hbyte₃]
    rfl

/-- Bytes without damage are what their text is encoded as. -/
theorem encode_of_units {bytes : Bytes} {t : Text} (h : units bytes = t.map some) :
    encode t = bytes := by
  fun_induction units bytes generalizing t with
  | case1 =>
    obtain rfl : t = [] := by simpa using h.symm
    rfl
  | case2 b bytes ih =>
    cases t with
    | nil => simp at h
    | cons c t =>
      obtain ⟨hunit, hrest⟩ := List.cons.inj h
      have heq : b :: bytes = String.utf8EncodeChar c ++ (unit b bytes).2 := eq_of_unit (by rw [← hunit])
      rw [heq, encode, List.flatMap_cons]
      exact congrArg _ (ih hrest)

/-- Well-formed bytes are read without damage, and no others are. -/
theorem units_eq_map_iff {bytes : Bytes} {t : Text} :
    units bytes = t.map some ↔ encode t = bytes :=
  ⟨encode_of_units, fun h => h ▸ units_encode t⟩

end Utf8

namespace Encoding

/-! ## Windows-1252 -/

/-- A table with a character of its own for each byte from 128. -/
structure IsOneToOne (upper : Text) : Prop where
  length_eq : upper.length = 128
  nodup : upper.Nodup
  isUpper : ∀ c ∈ upper, 128 ≤ c.toNat ∧ c ≠ '\uFFFD'

theorem isOneToOne_windows1252 : IsOneToOne Table.windows1252 := by
  have htable : Table.windows1252.length = 128 ∧ Table.windows1252.Nodup ∧
      Table.windows1252.all fun c => 128 ≤ c.toNat && c ≠ '\uFFFD' := by
    rw [Table.windows1252]
    repeat rw [Text.ofString, String.toList_ofList]
    decide +kernel
  exact ⟨htable.1, htable.2.1, by simpa using List.all_eq_true.1 htable.2.2⟩

section Table
variable {upper : Text} (h : IsOneToOne upper)
include h

/-- Each byte is read as one character, whose byte it is. -/
theorem exists_units_cons (b : UInt8) (bytes : Bytes) :
    ∃ c, (Form.table upper).units (b :: bytes) = some c :: (Form.table upper).units bytes ∧
      c ≠ '\uFFFD' ∧ (Form.table upper).byte? c = some b := by
  by_cases hsmall : b < 128
  · have hb : b.toNat < 128 := UInt8.lt_iff_toNat_lt.1 hsmall
    have hc : (Char.ofNat b.toNat).toNat = b.toNat := Utf8.toNat_val_ofNat (by omega)
    refine ⟨Char.ofNat b.toNat, ?_, fun hdamage => ?_, ?_⟩
    · rw [Form.units, unitsBy, List.map_cons, if_pos hsmall]
      rfl
    · have hlarge : 128 ≤ '\uFFFD'.toNat := by decide
      rw [hdamage] at hc
      omega
    · rw [Form.byte?, hc, if_pos hb, UInt8.ofNat_toNat]
  · obtain ⟨i, hi, rfl⟩ : ∃ i < 128, b = UInt8.ofNat (128 + i) := by
      have hlow : 128 ≤ b.toNat := Nat.not_lt.1 fun hlt => hsmall (UInt8.lt_iff_toNat_lt.2 hlt)
      have hhigh := b.toNat_lt
      exact ⟨b.toNat - 128, by omega, by rw [Nat.add_sub_cancel' hlow, UInt8.ofNat_toNat]⟩
    have hlength : i < upper.length := by rwa [h.length_eq]
    obtain ⟨hlarge, hdamage⟩ := h.isUpper _ (List.getElem_mem hlength)
    have hindex : upper.idxOf? upper[i] = some i :=
      List.idxOf?_eq_some_iff.2 ⟨hlength, rfl, fun j hj heq =>
        Nat.ne_of_lt hj (h.nodup.getElem_inj_iff.1 heq)⟩
    refine ⟨upper[i], ?_, hdamage, ?_⟩
    · rw [Form.units, Form.units, unitsBy_upper _ bytes (by omega) (by omega),
        Utf8.toNat_ofNat_byte (by omega), Nat.add_sub_cancel_left, List.getElem?_eq_getElem hlength]
      simp [hdamage]
    · rw [Form.byte?, if_neg (by omega), if_neg hdamage, hindex, Option.map_some]

/-- Bytes are read as a text of as many characters that is written as these bytes. -/
theorem exists_units_eq (bytes : Bytes) : ∃ t : Text, (Form.table upper).units bytes = t.map some ∧
    t.length = bytes.length ∧ '\uFFFD' ∉ t ∧ t.mapM (Form.table upper).byte? = some bytes := by
  induction bytes with
  | nil => exact ⟨[], rfl, rfl, by simp, rfl⟩
  | cons b bytes ih =>
    obtain ⟨t, hunits, hlength, hdamage, hbytes⟩ := ih
    obtain ⟨c, hunit, hc, hb⟩ := exists_units_cons h b bytes
    refine ⟨c :: t, ?_, ?_, ?_, ?_⟩
    · rw [hunit, hunits, List.map_cons]
    · rw [List.length_cons, hlength, List.length_cons]
    · simp [hdamage, Ne.symm hc]
    · simp [hb, hbytes]

end Table

/-! ## Sources without a label -/

/-- Units without damage are the characters of a text. -/
theorem exists_eq_map_some {units : List (Option Char)} (h : units.any Option.isNone = false) :
    ∃ t : Text, units = t.map some := by
  induction units with
  | nil => exact ⟨[], rfl⟩
  | cons unit units ih =>
    rw [List.any_cons, Bool.or_eq_false_iff] at h
    obtain ⟨t, rfl⟩ := ih h.2
    cases unit with
    | none => simp at h
    | some c => exact ⟨c :: t, rfl⟩

/-- The byte order marks of UTF-8 and of UTF-16 in its two orders. -/
def marks : List Bytes := [[0xEF, 0xBB, 0xBF], [0xFE, 0xFF], [0xFF, 0xFE]]

def IsUnmarked (bytes : Bytes) : Prop := ∀ mark ∈ marks, ¬mark <+: bytes

theorem marked?_eq_none_iff {bytes : Bytes} : marked? bytes = none ↔ IsUnmarked bytes := by
  rw [IsUnmarked, marked?.eq_def]
  split
  · simp [marks]
  · simp [marks]
  · simp [marks]
  · next hutf8 hlittle hbig =>
    simp only [marks, List.forall_mem_cons, List.not_mem_nil, false_imp_iff, implies_true, and_true,
      true_iff]
    refine ⟨?_, ?_, ?_⟩
    · rintro ⟨rest, rfl⟩
      exact hutf8 rest rfl
    · rintro ⟨rest, rfl⟩
      exact hbig rest rfl
    · rintro ⟨rest, rfl⟩
      exact hlittle rest rfl

/-- Bytes that are read without loss: as the text that they encode in UTF-8, or as the text of as
many characters that they encode in windows-1252. -/
inductive IsReadAs (bytes : Bytes) : Decoded → Prop
  | utf8 {t : Text} (hbytes : Utf8.encode t = bytes) : IsReadAs bytes ⟨t, Encoding.utf8, false⟩
  | windows1252 {t : Text} (hdamaged : ¬Utf8.IsWellFormed bytes) (hlength : t.length = bytes.length)
    (hnone : '\uFFFD' ∉ t) (hbytes : Encoding.windows1252.encode? t = some bytes) :
    IsReadAs bytes ⟨t, Encoding.windows1252, true⟩

theorem isReadAs_decodeSource {bytes : Bytes} (hunmarked : IsUnmarked bytes) :
    IsReadAs bytes (decodeSource bytes none) := by
  have hmark := marked?_eq_none_iff.2 hunmarked
  by_cases hwell : Utf8.IsWellFormed bytes
  · obtain ⟨t, rfl⟩ := hwell
    have hdecode : utf8.decode (Utf8.encode t) = ⟨t, utf8, false⟩ :=
      decode_of_units hmark (Utf8.units_encode t)
    rw [decodeSource, hdecode]
    exact .utf8 rfl
  · have hmalformed : (utf8.decode bytes).malformed := by
      rw [decode, hmark]
      by_contra hsound
      obtain ⟨t, hunits⟩ := exists_eq_map_some (Bool.not_eq_true _ ▸ hsound)
      exact hwell ⟨t, Utf8.units_eq_map_iff.1 hunits⟩
    obtain ⟨t, hunits, hlength, hnone, hbytes⟩ := exists_units_eq isOneToOne_windows1252 bytes
    have hdecode : windows1252.decode bytes = ⟨t, windows1252, false⟩ :=
      decode_of_units hmark hunits
    rw [decodeSource, if_pos hmalformed, hdecode]
    exact .windows1252 hwell hlength hnone hbytes

namespace IsReadAs
variable {bytes bytes' : Bytes} {d d' : Decoded}

/-- The encoding and the text determine the bytes. -/
theorem bytes_eq (h : IsReadAs bytes d) (h' : IsReadAs bytes' d') (hencoding : d.encoding = d'.encoding)
    (htext : d.text = d'.text) : bytes = bytes' := by
  have hne : Encoding.utf8 ≠ Encoding.windows1252 := fun h => nomatch congrArg Encoding.form h
  cases h with
  | utf8 hbytes =>
    cases h' with
    | utf8 hbytes' =>
      cases htext
      exact hbytes.symm.trans hbytes'
    | windows1252 => exact absurd hencoding hne
  | windows1252 _ _ _ hbytes =>
    cases h' with
    | utf8 => exact absurd hencoding.symm hne
    | windows1252 _ _ _ hbytes' =>
      cases htext
      exact Option.some.inj (hbytes.symm.trans hbytes')

/-- A replacement character is one of the source. -/
theorem infix_of_replacement (h : IsReadAs bytes d) (hd : '\uFFFD' ∈ d.text) :
    Utf8.encode ['\uFFFD'] <:+: bytes := by
  cases h with
  | @utf8 t hbytes =>
    obtain ⟨before, after, ht⟩ := List.append_of_mem (show '\uFFFD' ∈ t from hd)
    refine ⟨Utf8.encode before, Utf8.encode after, ?_⟩
    rw [← hbytes, ht]
    simp [Utf8.encode]
  | windows1252 _ _ hnone => exact absurd hd hnone

end IsReadAs

/-- Bytes without a byte order mark are read without loss if no encoding is given. Different ones are
never read as the same text in the same encoding, and no replacement character stands for damage. -/
theorem decodeSource_without_label :
    (∀ bytes, IsUnmarked bytes → IsReadAs bytes (decodeSource bytes none)) ∧
    (∀ bytes bytes', IsUnmarked bytes → IsUnmarked bytes' → bytes ≠ bytes' →
      ((decodeSource bytes none).encoding, (decodeSource bytes none).text) ≠
        ((decodeSource bytes' none).encoding, (decodeSource bytes' none).text)) ∧
    ∀ bytes, IsUnmarked bytes → '\uFFFD' ∈ (decodeSource bytes none).text →
      Utf8.encode ['\uFFFD'] <:+: bytes := by
  refine ⟨fun bytes => isReadAs_decodeSource, fun bytes bytes' h h' hne heq => ?_,
    fun bytes h => (isReadAs_decodeSource h).infix_of_replacement⟩
  obtain ⟨hencoding, htext⟩ := Prod.mk.inj heq
  exact hne ((isReadAs_decodeSource h).bytes_eq (isReadAs_decodeSource h') hencoding htext)

/-- The same letters in two encodings, one text in each, and a replacement character that is written
in the source. -/
theorem decodeSource_accented :
    IsReadAs [0x63, 0xE9] (decodeSource [0x63, 0xE9] none) ∧
    ((decodeSource [0x63, 0xE9] none).encoding, (decodeSource [0x63, 0xE9] none).text) ≠
      ((decodeSource [0x63, 0xC3, 0xA9] none).encoding,
        (decodeSource [0x63, 0xC3, 0xA9] none).text) ∧
    '\uFFFD' ∈ (decodeSource [0x61, 0xEF, 0xBF, 0xBD] none).text ∧
    Utf8.encode ['\uFFFD'] <:+: [0x61, 0xEF, 0xBF, 0xBD] := by
  have hunmarked : ∀ bytes : Bytes, bytes ∈ [[0x63, 0xE9], [0x63, 0xC3, 0xA9],
      [0x61, 0xEF, 0xBF, 0xBD]] → IsUnmarked bytes := by
    unfold IsUnmarked
    decide
  have hmem : '\uFFFD' ∈ (decodeSource [0x61, 0xEF, 0xBF, 0xBD] none).text := by
    have hdecode := decodeSource_encode (t := ['a', '\uFFFD']) (by simp)
    have hbytes : Utf8.encode ['a', '\uFFFD'] = [0x61, 0xEF, 0xBF, 0xBD] := by decide
    rw [hbytes] at hdecode
    simp [hdecode]
  exact ⟨decodeSource_without_label.1 _ (hunmarked _ (by simp)),
    decodeSource_without_label.2.1 _ _ (hunmarked _ (by simp)) (hunmarked _ (by simp)) (by decide),
    hmem, decodeSource_without_label.2.2 _ (hunmarked _ (by simp)) hmem⟩

end Encoding

end Slideshow
