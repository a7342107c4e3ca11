import Slideshow.Encoding.Utf8

/-! # UTF-16

Two bytes make a word; a word beyond the basic plane is written as a high and a low surrogate. A
surrogate that stands alone is damage, and so is a byte or a high surrogate at the end.
-/
namespace Slideshow.Utf16

/-- The words of some bytes, and whether a byte is left over. -/
def wordsOf (bigEndian : Bool) : Bytes → List Nat × Bool
  | [] => ([], false)
  | [_] => ([], true)
  | a :: b :: bytes =>
    let (words, odd) := wordsOf bigEndian bytes
    ((if bigEndian then 256 * a.toNat + b.toNat else 256 * b.toNat + a.toNat) :: words, odd)

def isHigh (w : Nat) : Bool := 0xD800 ≤ w && w < 0xDC00

def isLow (w : Nat) : Bool := 0xDC00 ≤ w && w < 0xE000

/-- The units of some words; a byte left over spoils the high surrogate before it. -/
def unitsOfWords (odd : Bool) : List Nat → List (Option Char)
  | [] => if odd then [none] else []
  | [w] =>
    if isHigh w then [none]
    else (if isLow w then none else some (Char.ofNat w)) :: if odd then [none] else []
  | w :: v :: words =>
    if isHigh w then
      if isLow v then
        some (Char.ofNat (0x10000 + 1024 * (w - 0xD800) + (v - 0xDC00))) :: unitsOfWords odd words
      else none :: unitsOfWords odd (v :: words)
    else (if isLow w then none else some (Char.ofNat w)) :: unitsOfWords odd (v :: words)

def units (bigEndian : Bool) (bytes : Bytes) : List (Option Char) :=
  let (words, odd) := wordsOf bigEndian bytes
  unitsOfWords odd words

end Slideshow.Utf16
