import Slideshow.Text.Basic

/-! # Punycode

A label with characters beyond ASCII is spelt in ASCII: first its ASCII characters, then numbers
that tell where the others stand. The numbers are written with 36 digits, and how many digits a
number takes depends on a bias that follows the numbers before it.
-/
namespace Slideshow.Url.Punycode

/-- The digits are the letters and then the decimal digits. -/
def digit (n : Nat) : Char := if n < 26 then Char.ofNat (97 + n) else Char.ofNat (22 + n)

/-- The value from which on a digit is not the last of its number. -/
def threshold (bias place : Nat) : Nat := min 26 (max 1 (place - bias))

/-- The digits of a number from a place on. -/
def number (bias place n : Nat) : Text :=
  let t := threshold bias place
  if n < t then [digit n]
  else digit (t + (n - t) % (36 - t)) :: number bias (place + 36) ((n - t) / (36 - t))
termination_by n
decreasing_by
  have : 1 ≤ threshold bias place := by simp only [threshold]; omega
  exact Nat.lt_of_le_of_lt (Nat.div_le_self ..) (by omega)

/-- The bias that a number leaves behind once it has been scaled down. -/
def settledBias (n : Nat) : Nat :=
  if 455 < n then 36 + settledBias (n / 35) else 36 * n / (n + 38)
termination_by n
decreasing_by exact Nat.div_lt_self (by omega) (by omega)

/-- The bias after a number, which made a spelling of so many characters. -/
def nextBias (first : Bool) (n count : Nat) : Nat :=
  let n := if first then n / 700 else n / 2
  settledBias (n + n / count)

/-- A label that is spelt up to some code point. -/
structure Progress where
  spelling : Text := []
  /-- The steps since the last number. -/
  steps : Nat := 0
  bias : Nat := 72
  /-- The number of characters that are spelt. -/
  count : Nat
  /-- The least code point that is not yet spelt. -/
  next : Nat := 128

/-- Pass a character on the way through a label in search of a code point. -/
def Progress.pass (plain code : Nat) (p : Progress) (c : Char) : Progress :=
  if c.toNat < code then { p with steps := p.steps + 1 }
  else if c.toNat = code then
    { p with
      spelling := p.spelling ++ number p.bias 36 p.steps
      steps := 0
      bias := nextBias (p.count = plain) p.steps (p.count + 1)
      count := p.count + 1 }
  else p

/-- Spell every occurrence of a code point in a label. -/
def Progress.spell (label : Text) (plain : Nat) (p : Progress) (code : Nat) : Progress :=
  let p := { p with steps := p.steps + (code - p.next) * (p.count + 1) }
  let p := label.foldl (Progress.pass plain code) p
  { p with steps := p.steps + 1, next := code + 1 }

def isAscii (c : Char) : Bool := c.toNat < 128

/-- The ASCII spelling of a label. -/
def encode (label : Text) : Text :=
  let plain := label.filter isAscii
  let codes := (((label.filter (!isAscii ·)).map Char.toNat).mergeSort (· ≤ ·)).eraseDups
  let spelt := codes.foldl (Progress.spell label plain.length) { count := plain.length }
  (if plain = [] then [] else plain ++ ['-']) ++ spelt.spelling

end Slideshow.Url.Punycode
