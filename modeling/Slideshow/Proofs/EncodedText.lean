import Slideshow.Encoding.Basic

/-!
# Encoded texts

What a text is encoded as is read back as this text and without damage, both from UTF-8 and from
every encoding that has one byte for each of its characters. The one exception is a text that looks
as if it started with a byte order mark.
-/
namespace Slideshow
open Text

/-! ## UTF-8 -/

namespace Utf8

section Unit
variable {m : Nat} (hm : m < 256)
include hm

theorem toNat_ofNat_byte : (UInt8.ofNat m).toNat = m := by simp [Nat.mod_eq_of_lt hm]

theorem finish_succ {low high : UInt8} (hlow : low.toNat ≤ m) (hhigh : m ≤ high.toNat)
    (n code : Nat) (bytes : Bytes) : finish (n + 1) low high code (UInt8.ofNat m :: bytes) =
      finish n 0x80 0xBF (64 * code + (m - 0x80)) bytes := by
  have hbounds : low ≤ UInt8.ofNat m ∧ UInt8.ofNat m ≤ high := by
    rw [UInt8.le_iff_toNat_le, UInt8.le_iff_toNat_le, toNat_ofNat_byte hm]
    exact ⟨hlow, hhigh⟩
  rw [finish, if_pos hbounds, toNat_ofNat_byte hm]

theorem lead?_ofNat : lead? (UInt8.ofNat m) =
    if m < 0xC2 then none
    else if m < 0xE0 then some (1, 0x80, 0xBF, m - 0xC0)
    else if m < 0xF0 then
      some (2, if m = 0xE0 then 0xA0 else 0x80, if m = 0xED then 0x9F else 0xBF, m - 0xE0)
    else if m < 0xF5 then
      some (3, if m = 0xF0 then 0x90 else 0x80, if m = 0xF4 then 0x8F else 0xBF, m - 0xF0)
    else none := by
  have hlt : ∀ k : UInt8, UInt8.ofNat m < k ↔ m < k.toNat := fun k => by
    rw [UInt8.lt_iff_toNat_lt, toNat_ofNat_byte hm]
  have heq : ∀ k : UInt8, UInt8.ofNat m = k ↔ m = k.toNat := fun k => by
    rw [← UInt8.toNat_inj, toNat_ofNat_byte hm]
  simp [lead?, hlt, heq, toNat_ofNat_byte hm]

theorem unit_of_finish {n code value : Nat} {low high : UInt8} {bytes rest : Bytes}
    (hascii : 0x80 ≤ m) (hlead : lead? (UInt8.ofNat m) = some (n, low, high, code))
    (hfinish : finish n low high code bytes = (some value, rest)) :
    unit (UInt8.ofNat m) bytes = (some (Char.ofNat value), rest) := by
  have hlarge : ¬UInt8.ofNat m < 0x80 := by
    rw [UInt8.lt_iff_toNat_lt, toNat_ofNat_byte hm]
    exact Nat.not_lt.2 hascii
  rw [unit, if_neg hlarge, hlead]
  dsimp only
  rw [hfinish]
  rfl

end Unit

/-- The bytes of a character are read as this character, whatever follows them. -/
theorem unit_utf8EncodeChar (c : Char) (rest : Bytes) : ∃ b bytes,
    String.utf8EncodeChar c = b :: bytes ∧ unit b (bytes ++ rest) = (some c, rest) := by
  have hvalid : c.toNat < 0xD800 ∨ 0xDFFF < c.toNat ∧ c.toNat < 0x110000 := c.valid
  obtain ⟨v, hv⟩ : ∃ v, c.val.toNat = v := ⟨_, rfl⟩
  have hc : c = Char.ofNat v := by rw [← hv]; exact (Char.ofNat_toNat c).symm
  rw [show c.toNat = v from hv] at hvalid
  rw [String.utf8EncodeChar, hv, hc]
  split
  · refine ⟨_, _, rfl, ?_⟩
    have hascii : UInt8.ofNat v < 0x80 := by
      rw [UInt8.lt_iff_toNat_lt, toNat_ofNat_byte (by omega)]
      exact Nat.lt_succ_of_le ‹_›
    rw [unit, if_pos hascii, toNat_ofNat_byte (by omega)]
    rfl
  split
  · refine ⟨_, _, rfl, unit_of_finish (by omega) (by omega)
      (by rw [lead?_ofNat (by omega), if_neg (by omega), if_pos (by omega)]) ?_⟩
    simp only [List.cons_append, List.nil_append]
    rw [finish_succ (by omega) (by simp) (by simp; omega), finish]
    simp only [Prod.mk.injEq, Option.some.injEq, and_true]
    omega
  split
  · refine ⟨_, _, rfl, unit_of_finish (by omega) (by omega)
      (by rw [lead?_ofNat (by omega), if_neg (by omega), if_neg (by omega), if_pos (by omega)]) ?_⟩
    simp only [List.cons_append, List.nil_append]
    rw [finish_succ (by omega) (by split <;> simp <;> omega) (by split <;> simp <;> omega),
      finish_succ (by omega) (by simp) (by simp; omega), finish]
    simp only [Prod.mk.injEq, Option.some.injEq, and_true]
    omega
  · refine ⟨_, _, rfl, unit_of_finish (by omega) (by omega)
      (by rw [lead?_ofNat (by omega), if_neg (by omega), if_neg (by omega), if_neg (by omega),
        if_pos (by omega)]) ?_⟩
    simp only [List.cons_append, List.nil_append]
    rw [finish_succ (by omega) (by split <;> simp <;> omega) (by split <;> simp <;> omega),
      finish_succ (by omega) (by simp) (by simp; omega),
      finish_succ (by omega) (by simp) (by simp; omega), finish]
    simp only [Prod.mk.injEq, Option.some.injEq, and_true]
    omega

/-- Encoded texts are read back. -/
theorem units_encode (t : Text) : units (encode t) = t.map some := by
  induction t with
  | nil => rw [encode, List.flatMap_nil, units]; rfl
  | cons c t ih =>
    obtain ⟨b, bytes, hbytes, hunit⟩ := unit_utf8EncodeChar c (encode t)
    have hencode : encode (c :: t) = b :: (bytes ++ encode t) := by
      simp [encode, List.flatMap_cons, hbytes]
    rw [hencode, units, hunit, ih, List.map_cons]

end Utf8

namespace Encoding

/-! ## Byte order marks -/

/-- Only a text that starts with a byte order mark is encoded as if it carried one. -/
theorem marked?_encode {t : Text} (ht : t.head? ≠ some '\uFEFF') :
    marked? (Utf8.encode t) = none := by
  have hunits := Utf8.units_encode t
  rw [marked?.eq_def]
  split
  · next rest heq =>
    have hmark : Utf8.unit 0xEF (0xBB :: 0xBF :: rest) = (some '\uFEFF', rest) := rfl
    rw [heq, Utf8.units, hmark] at hunits
    cases t with
    | nil => simp at hunits
    | cons c t =>
      obtain rfl : '\uFEFF' = c := by simpa using (List.cons.inj hunits).1
      simp at ht
  · next rest heq =>
    rw [heq, Utf8.units] at hunits
    cases t with
    | nil => simp at hunits
    | cons c t => exact absurd (List.cons.inj hunits).1 (by simp [Utf8.unit, Utf8.lead?])
  · next rest heq =>
    rw [heq, Utf8.units] at hunits
    cases t with
    | nil => simp at hunits
    | cons c t => exact absurd (List.cons.inj hunits).1 (by simp [Utf8.unit, Utf8.lead?])
  · rfl

theorem decode_of_units {e : Encoding} {bytes : Bytes} {t : Text} (hmark : marked? bytes = none)
    (hunits : e.form.units bytes = t.map some) : e.decode bytes = ⟨t, e, false⟩ := by
  simp [decode, hmark, hunits, Function.comp_def]

theorem decodeSource_encode {t : Text} (ht : t.head? ≠ some '\uFEFF') :
    decodeSource (Utf8.encode t) none = ⟨t, utf8, false⟩ := by
  have hdecode : utf8.decode (Utf8.encode t) = ⟨t, utf8, false⟩ :=
    decode_of_units (marked?_encode ht) (Utf8.units_encode t)
  rw [decodeSource, hdecode]
  rfl

/-! ## Encodings of single bytes -/

/-- The byte of a character in an encoding that has one byte for each of its characters. -/
def Form.byte? : Form → Char → Option UInt8
  | .table upper, c =>
    if c.toNat < 128 then some (UInt8.ofNat c.toNat)
    else if c = '\uFFFD' then none
    else (upper.idxOf? c).map fun i => UInt8.ofNat (128 + i)
  | .userDefined, c =>
    if c.toNat < 128 then some (UInt8.ofNat c.toNat)
    else if 0xF780 ≤ c.toNat ∧ c.toNat ≤ 0xF7FF then some (UInt8.ofNat (c.toNat - 0xF700))
    else none
  | _, _ => none

/-- The bytes of a text in an encoding of single bytes that has all its characters. -/
def encode? (e : Encoding) (t : Text) : Option Bytes := t.mapM e.form.byte?

/-- A table has a character for each byte from 128, none of them a byte order mark. -/
def Form.isFull : Form → Bool
  | .table upper => upper.length == 128 && upper.all (· ≠ '\uFEFF')
  | _ => true

theorem isFull_form {e : Encoding} (he : e ∈ all) : e.form.isFull := by
  revert e
  simp only [all, utf8, utf16, windows1252, List.forall_mem_cons, List.not_mem_nil, false_imp_iff,
    implies_true, Form.isFull, and_true, true_and, Bool.false_eq_true, if_true, if_false]
  and_intros
  all_goals
    simp only [Table.ibm866, Table.iso88592, Table.iso88593, Table.iso88594, Table.iso88595,
      Table.iso88596, Table.iso88597, Table.iso88598, Table.iso885910, Table.iso885913,
      Table.iso885914, Table.iso885915, Table.iso885916, Table.koi8R, Table.koi8U, Table.macintosh,
      Table.windows874, Table.windows1250, Table.windows1251, Table.windows1252, Table.windows1253,
      Table.windows1254, Table.windows1255, Table.windows1256, Table.windows1257,
      Table.windows1258, Table.xMacCyrillic]
    -- The characters of a literal are found by unification; evaluating it takes far longer.
    repeat rw [Text.ofString, String.toList_ofList]
    decide +kernel

section Units
variable (upper : UInt8 → Option Char) (bytes : Bytes)

theorem unitsBy_ascii {c : Char} (hc : c.toNat < 128) :
    unitsBy upper (UInt8.ofNat c.toNat :: bytes) = some c :: unitsBy upper bytes := by
  have hsmall : UInt8.ofNat c.toNat < 128 := by
    rw [UInt8.lt_iff_toNat_lt, Utf8.toNat_ofNat_byte (by omega)]
    exact hc
  rw [unitsBy, List.map_cons, if_pos hsmall, Utf8.toNat_ofNat_byte (by omega), Char.ofNat_toNat]
  rfl

theorem unitsBy_upper {n : Nat} (hlow : 128 ≤ n) (hhigh : n < 256) :
    unitsBy upper (UInt8.ofNat n :: bytes) = upper (UInt8.ofNat n) :: unitsBy upper bytes := by
  have hlarge : ¬UInt8.ofNat n < 128 := by
    rw [UInt8.lt_iff_toNat_lt, Utf8.toNat_ofNat_byte hhigh]
    exact Nat.not_lt.2 hlow
  rw [unitsBy, List.map_cons, if_neg hlarge]
  rfl

end Units

theorem units_cons_of_byte? {form : Form} (hfull : form.isFull) {c : Char} {b : UInt8}
    (h : form.byte? c = some b) (bytes : Bytes) :
    form.units (b :: bytes) = some c :: form.units bytes := by
  cases form with
  | table upper =>
    simp only [Form.byte?] at h
    split at h
    · next hc =>
      obtain rfl := Option.some.inj h
      exact unitsBy_ascii _ bytes hc
    split at h
    · simp at h
    next hdamage =>
    obtain ⟨i, hi, rfl⟩ := Option.map_eq_some_iff.1 h
    obtain ⟨hlength, hfound, -⟩ := List.idxOf?_eq_some_iff.1 hi
    have hbound : i < 128 := by
      simp only [Form.isFull, Bool.and_eq_true, beq_iff_eq] at hfull
      omega
    rw [Form.units, Form.units, unitsBy_upper _ bytes (by omega) (by omega),
      Utf8.toNat_ofNat_byte (by omega), Nat.add_sub_cancel_left, List.getElem?_eq_getElem hlength,
      hfound]
    simp [hdamage]
  | userDefined =>
    simp only [Form.byte?] at h
    split at h
    · next hc =>
      obtain rfl := Option.some.inj h
      exact unitsBy_ascii _ bytes hc
    split at h
    · next hprivate =>
      obtain rfl := Option.some.inj h
      have hcode : 0xF780 + (c.toNat - 0xF700 - 128) = c.toNat := by omega
      rw [Form.units, Form.units, unitsBy_upper _ bytes (by omega) (by omega),
        Utf8.toNat_ofNat_byte (by omega), hcode, Char.ofNat_toNat]
    · simp at h
  | utf8 => simp [Form.byte?] at h
  | utf16 => simp [Form.byte?] at h
  | refused => simp [Form.byte?] at h
  | eastAsian => simp [Form.byte?] at h

theorem units_of_encode? {e : Encoding} (he : e ∈ all) {t : Text} {bytes : Bytes}
    (h : e.encode? t = some bytes) : e.form.units bytes = t.map some := by
  rw [encode?] at h
  induction t generalizing bytes with
  | nil =>
    obtain rfl : [] = bytes := by simpa using h
    cases e.form with
    | utf8 => rw [Form.units, Utf8.units, List.map_nil]
    | utf16 bigEndian => cases bigEndian <;> rfl
    | table | userDefined | refused | eastAsian => rfl
  | cons c t ih =>
    simp only [List.mapM_cons, Option.bind_eq_bind, Option.bind_eq_some_iff, Option.pure_def,
      Option.some.injEq] at h
    obtain ⟨b, hb, rest, hrest, rfl⟩ := h
    rw [units_cons_of_byte? (isFull_form he) hb, ih hrest, List.map_cons]

/-- No encoding of single bytes has a byte order mark among its characters. -/
theorem head?_of_encode? {e : Encoding} (he : e ∈ all) {t : Text} {bytes : Bytes}
    (h : e.encode? t = some bytes) : t.head? ≠ some '\uFEFF' := by
  have hbyte : e.form.byte? '\uFEFF' = none := by
    have hfull := isFull_form he
    cases hform : e.form with
    | table upper =>
      simp only [hform, Form.isFull, Bool.and_eq_true, List.all_eq_true, decide_eq_true_eq] at hfull
      have hmem : '\uFEFF' ∉ upper := fun hmem => hfull.2 _ hmem rfl
      simp [Form.byte?, List.idxOf?_eq_none_iff.2 hmem]
    | userDefined => rfl
    | utf8 | utf16 | refused | eastAsian => rfl
  cases t with
  | nil => simp
  | cons c t =>
    rintro hc
    obtain rfl : c = '\uFEFF' := by simpa using hc
    simp [encode?, hbyte] at h

theorem mem_all_of_ofLabel? {label : Text} {e : Encoding} (h : ofLabel? label = some e) :
    e ∈ all := by
  rw [ofLabel?] at h
  exact List.mem_of_find?_eq_some h

private theorem orElse_eq_some {α : Type} {x y : Option α} {a : α} (h : (x <|> y) = some a) :
    x = some a ∨ y = some a := by
  cases x with
  | none => exact .inr h
  | some b => exact .inl h

theorem mem_all_of_resolve {label : Text} {e : Encoding} (h : resolve label = .ok e) : e ∈ all := by
  rw [resolve] at h
  split at h
  · next found hfound =>
    obtain rfl := Except.ok.inj h
    rw [resolve?] at hfound
    rcases orElse_eq_some hfound with hfound | hfound
    · exact mem_all_of_ofLabel? hfound
    · rcases orElse_eq_some hfound with hfound | hfound <;> exact mem_all_of_ofLabel? hfound
  · simp at h

/-- A text in an encoding of single bytes, read by a label of the encoding, and the same text in
UTF-8 are read alike, if the bytes do not look like a byte order mark. -/
theorem decodeSource_of_encode? {label : Text} {e : Encoding} {t : Text} {bytes : Bytes}
    (hlabel : resolve label = .ok e) (hbytes : e.encode? t = some bytes)
    (hmark : marked? bytes = none) : decodeSource bytes (some e) = ⟨t, e, false⟩ ∧
      decodeSource (Utf8.encode t) none = ⟨t, utf8, false⟩ :=
  have he := mem_all_of_resolve hlabel
  ⟨decode_of_units hmark (units_of_encode? he hbytes),
    decodeSource_encode (head?_of_encode? he hbytes)⟩

end Encoding

end Slideshow
