import Slideshow.Encoding.Utf8
import Slideshow.Text.Numeral

/-! # Percent encoding

A byte that may not stand in a place is written as a percent sign and two hexadecimal digits.
Which bytes those are depends on the place.
-/
namespace Slideshow.Url

/-- The capital hexadecimal digit of a value below sixteen. -/
def hexDigit (n : Nat) : Char := (Nat.digitChar n).toUpper

def percentByte (b : UInt8) : Text := ['%', hexDigit (b.toNat / 16), hexDigit (b.toNat % 16)]

/-- Controls and everything beyond ASCII are always written by their bytes; `reserved` adds the
characters of a place. -/
def encode (reserved : List Char) (t : Text) : Text :=
  t.flatMap fun c =>
    if c.toNat < 32 || 127 ≤ c.toNat || c ∈ reserved then
      (String.utf8EncodeChar c).flatMap percentByte
    else [c]

def fragmentReserved : List Char := [' ', '"', '<', '>', '\x60']

def pathReserved : List Char := fragmentReserved ++ ['#', '?', '\x7b', '\x7d']

/-- A name of a file may hold what separates the parts of a path. -/
def nameReserved : List Char := pathReserved ++ ['/', '%', '\\']

def queryReserved : List Char := [' ', '"', '#', '<', '>', '\'']

def hexValue? (c : Char) : Option Nat :=
  if c.isDigit then some (c.toNat - 48)
  else if 'a' ≤ c ∧ c ≤ 'f' then some (c.toNat - 87)
  else if 'A' ≤ c ∧ c ≤ 'F' then some (c.toNat - 55)
  else none

/-- Bytes with every encoded byte decoded. -/
def decodeBytes : Text → Bytes
  | '%' :: a :: b :: rest =>
    match hexValue? a, hexValue? b with
    | some m, some n => UInt8.ofNat (16 * m + n) :: decodeBytes rest
    | _, _ => 37 :: decodeBytes (a :: b :: rest)
  | c :: rest => String.utf8EncodeChar c ++ decodeBytes rest
  | [] => []

/-- Form encoding: letters, digits and four marks stand for themselves and a plus sign for a
space. -/
def formEncode (t : Text) : Text :=
  (Utf8.encode t).flatMap fun b =>
    let c := Char.ofNat b.toNat
    if c = ' ' then ['+']
    else if c.isAlphanum || c = '*' || c = '-' || c = '.' || c = '_' then [c]
    else percentByte b

end Slideshow.Url
