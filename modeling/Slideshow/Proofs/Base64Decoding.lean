import Slideshow.Proofs.SelfContainedPasses

/-!
# Reading Base64

Four digits are read at a time. Equals signs may only stand at the end, and the bits that they leave
over are zero, so no two texts stand for the same bytes.
-/
namespace Slideshow.Base64

/-- The six bits that a digit stands for. -/
def sextet? (c : Char) : Option Nat :=
  if alphabet.idxOf c < 64 then some (alphabet.idxOf c) else none

/-- The bytes that a text stands for. -/
def decode? : Text → Option Bytes
  | [] => some []
  | a :: b :: c :: d :: rest =>
    if rest = [] ∧ d = '=' then
      if c = '=' then do
        let x ← sextet? a
        let y ← sextet? b
        if y % 16 = 0 then some [UInt8.ofNat (4 * x + y / 16)] else none
      else do
        let x ← sextet? a
        let y ← sextet? b
        let z ← sextet? c
        if z % 4 = 0 then
          some [UInt8.ofNat (4 * x + y / 16), UInt8.ofNat (16 * (y % 16) + z / 4)]
        else none
    else do
      let x ← sextet? a
      let y ← sextet? b
      let z ← sextet? c
      let w ← sextet? d
      let bytes ← decode? rest
      some (UInt8.ofNat (4 * x + y / 16) :: UInt8.ofNat (16 * (y % 16) + z / 4)
        :: UInt8.ofNat (64 * (z % 4) + w) :: bytes)
  | _ => none

theorem length_alphabet : alphabet.length = 64 := by cbv

theorem nodup_alphabet : alphabet.Nodup := by
  rw [alphabet, Text.ofString_eq]
  decide +kernel

theorem sextet?_digit (n : Nat) : sextet? (digit n) = some (n % 64) := by
  have hlt : n % 64 < alphabet.length := by
    rw [length_alphabet]
    exact Nat.mod_lt n (by decide)
  have hdigit : digit n = alphabet[n % 64] := by
    rw [digit, List.getD_eq_getElem _ _ hlt]
  rw [sextet?, hdigit, nodup_alphabet.idxOf_getElem, if_pos (Nat.mod_lt n (by decide))]

theorem digit_ne_equals (n : Nat) : digit n ≠ '=' := by
  intro h
  have hnone : sextet? '=' = none := by cbv
  rw [← h, sextet?_digit] at hnone
  cases hnone

theorem of_sextet? {c : Char} {n : Nat} (h : sextet? c = some n) : c = digit n ∧ n < 64 := by
  rw [sextet?, Option.ite_none_right_eq_some, Option.some.injEq] at h
  obtain ⟨hlt, rfl⟩ := h
  refine ⟨?_, hlt⟩
  rw [digit, Nat.mod_eq_of_lt hlt, List.getD_eq_getElem _ _ (by rwa [length_alphabet]),
    List.getElem_idxOf]

theorem ofNat_of_eq {n : Nat} {b : UInt8} (h : n = b.toNat) : UInt8.ofNat n = b := by
  rw [h, UInt8.ofNat_toNat]

theorem decode?_encode (bytes : Bytes) : decode? (encode bytes) = some bytes := by
  fun_induction encode bytes with
  | case1 => rfl
  | case2 a =>
    have ha := a.toNat_lt
    simp only [decode?, sextet?_digit, true_and, if_true, Option.bind_eq_bind, Option.bind_some]
    rw [if_pos (by omega), ofNat_of_eq (b := a) (by omega)]
  | case3 a b =>
    have ha := a.toNat_lt
    have hb := b.toNat_lt
    simp only [decode?, sextet?_digit, digit_ne_equals, true_and, if_true, if_false,
      Option.bind_eq_bind, Option.bind_some]
    rw [if_pos (by omega), ofNat_of_eq (b := a) (by omega), ofNat_of_eq (b := b) (by omega)]
  | case4 a b c rest ih =>
    have ha := a.toNat_lt
    have hb := b.toNat_lt
    have hc := c.toNat_lt
    simp only [decode?, sextet?_digit, digit_ne_equals, and_false, if_false, ih,
      Option.bind_eq_bind, Option.bind_some]
    rw [ofNat_of_eq (b := a) (by omega), ofNat_of_eq (b := b) (by omega),
      ofNat_of_eq (b := c) (by omega)]

theorem digit_congr {m n : Nat} (h : m % 64 = n % 64) : digit m = digit n := by
  rw [digit, digit, h]

theorem toNat_ofNat_of_lt {n : Nat} (h : n < 256) : (UInt8.ofNat n).toNat = n :=
  Nat.mod_eq_of_lt h

theorem eq_encode_of_decode? {s : Text} {bytes : Bytes} (h : decode? s = some bytes) :
    s = encode bytes := by
  fun_induction decode? s generalizing bytes with
  | case1 =>
    obtain rfl := Option.some.inj h
    rfl
  | case2 a b d rest hend =>
    obtain ⟨rfl, rfl⟩ := hend
    simp only [Option.bind_eq_bind, Option.bind_eq_some_iff, Option.ite_none_right_eq_some,
      Option.some.injEq] at h
    obtain ⟨x, hx, y, hy, hzero, rfl⟩ := h
    obtain ⟨rfl, hx⟩ := of_sextet? hx
    obtain ⟨rfl, hy⟩ := of_sextet? hy
    rw [encode, toNat_ofNat_of_lt (by omega), List.cons.injEq, List.cons.injEq]
    exact ⟨digit_congr (by omega), digit_congr (by omega), rfl⟩
  | case3 a b c d rest hend _ =>
    obtain ⟨rfl, rfl⟩ := hend
    simp only [Option.bind_eq_bind, Option.bind_eq_some_iff, Option.ite_none_right_eq_some,
      Option.some.injEq] at h
    obtain ⟨x, hx, y, hy, z, hz, hzero, rfl⟩ := h
    obtain ⟨rfl, hx⟩ := of_sextet? hx
    obtain ⟨rfl, hy⟩ := of_sextet? hy
    obtain ⟨rfl, hz⟩ := of_sextet? hz
    rw [encode, toNat_ofNat_of_lt (by omega), toNat_ofNat_of_lt (by omega), List.cons.injEq,
      List.cons.injEq, List.cons.injEq]
    exact ⟨digit_congr (by omega), digit_congr (by omega), digit_congr (by omega), rfl⟩
  | case4 a b c d rest hend ih =>
    simp only [Option.bind_eq_bind, Option.bind_eq_some_iff, Option.some.injEq] at h
    obtain ⟨x, hx, y, hy, z, hz, w, hw, bytes, hrest, rfl⟩ := h
    obtain ⟨rfl, hx⟩ := of_sextet? hx
    obtain ⟨rfl, hy⟩ := of_sextet? hy
    obtain ⟨rfl, hz⟩ := of_sextet? hz
    obtain ⟨rfl, hw⟩ := of_sextet? hw
    rw [encode, toNat_ofNat_of_lt (by omega), toNat_ofNat_of_lt (by omega),
      toNat_ofNat_of_lt (by omega), List.cons.injEq, List.cons.injEq, List.cons.injEq,
      List.cons.injEq]
    exact ⟨digit_congr (by omega), digit_congr (by omega), digit_congr (by omega),
      digit_congr (by omega), ih hrest⟩
  | case5 => simp at h

end Slideshow.Base64
