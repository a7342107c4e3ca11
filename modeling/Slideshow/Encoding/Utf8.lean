import Slideshow.Text.Basic

/-! # UTF-8

Bytes are read as units: a character, or a mark of damage for a sequence that is cut short. Damage
covers the longest start of a well-formed sequence, or one byte if there is none.
-/
namespace Slideshow

abbrev Bytes := List UInt8

namespace Utf8

/-- What the first byte of a sequence of several promises: the number of further bytes, the bounds
of the first of them, and the bits that the first byte gives to the code point. -/
def lead? (b : UInt8) : Option (Nat × UInt8 × UInt8 × Nat) :=
  if b < 0xC2 then none
  else if b < 0xE0 then some (1, 0x80, 0xBF, b.toNat - 0xC0)
  else if b < 0xF0 then
    some (2, if b = 0xE0 then 0xA0 else 0x80, if b = 0xED then 0x9F else 0xBF, b.toNat - 0xE0)
  else if b < 0xF5 then
    some (3, if b = 0xF0 then 0x90 else 0x80, if b = 0xF4 then 0x8F else 0xBF, b.toNat - 0xF0)
  else none

/-- The rest of a sequence that lacks some bytes, the first of them within bounds; nothing in place
of the code point if it is cut short. -/
def finish (lacking : Nat) (low high : UInt8) (code : Nat) (bytes : Bytes) : Option Nat × Bytes :=
  match lacking, bytes with
  | 0, bytes => (some code, bytes)
  | _ + 1, [] => (none, [])
  | n + 1, b :: bytes =>
    if low ≤ b ∧ b ≤ high then finish n 0x80 0xBF (64 * code + (b.toNat - 0x80)) bytes
    else (none, b :: bytes)

theorem length_finish_le (lacking : Nat) (low high : UInt8) (code : Nat) (bytes : Bytes) :
    (finish lacking low high code bytes).2.length ≤ bytes.length := by
  induction lacking generalizing low high code bytes with
  | zero => simp [finish]
  | succ n ih =>
    cases bytes with
    | nil => simp [finish]
    | cons b bytes =>
      simp only [finish]
      split
      · exact Nat.le_trans (ih _ _ _ _) (by simp)
      · simp

/-- The first unit of a sequence that starts with a byte, and the bytes after it. -/
def unit (b : UInt8) (bytes : Bytes) : Option Char × Bytes :=
  if b < 0x80 then (some (Char.ofNat b.toNat), bytes)
  else match lead? b with
    | none => (none, bytes)
    | some (n, low, high, code) =>
      let (code, rest) := finish n low high code bytes
      (code.map Char.ofNat, rest)

theorem length_unit_le (b : UInt8) (bytes : Bytes) : (unit b bytes).2.length ≤ bytes.length := by
  unfold unit
  split
  · simp
  · split
    · simp
    · exact length_finish_le ..

/-- The units of some bytes. -/
def units (bytes : Bytes) : List (Option Char) :=
  match bytes with
  | [] => []
  | b :: bytes => (unit b bytes).1 :: units (unit b bytes).2
termination_by bytes.length
decreasing_by
  have := length_unit_le b bytes
  simp only [List.length_cons]
  omega

def encode (t : Text) : Bytes := t.flatMap String.utf8EncodeChar

theorem encode_append (s t : Text) : encode (s ++ t) = encode s ++ encode t :=
  List.flatMap_append ..

theorem length_encode_cons (c : Char) (t : Text) :
    (encode (c :: t)).length = c.utf8Size + (encode t).length := by
  rw [encode, List.flatMap_cons, List.length_append, String.length_utf8EncodeChar]
  rfl

theorem length_encode_of_ascii {t : Text} (h : ∀ c ∈ t, c.toNat < 128) :
    (encode t).length = t.length := by
  induction t with
  | nil => rfl
  | cons c t ih =>
    have hc : c.utf8Size = 1 := by
      rw [Char.utf8Size_eq_one_iff]
      exact Nat.le_of_lt_succ (h c List.mem_cons_self)
    rw [length_encode_cons, hc, ih fun d hd => h d (List.mem_cons_of_mem c hd), List.length_cons,
      Nat.add_comm]

/-- The text of well-formed bytes. -/
def decode? (bytes : Bytes) : Option Text := (units bytes).mapM id

end Utf8

end Slideshow
