import Slideshow.Encoding.Utf8

/-! # Base64

Three bytes make four digits of six bits each; equals signs fill up the last four.
-/
namespace Slideshow.Base64

def alphabet : Text := "ABCDEFGHIJKLMNOPQRSTUVWXYZabcdefghijklmnopqrstuvwxyz0123456789+/"

/-- The digit that stands for six bits. -/
def digit (n : Nat) : Char := alphabet.getD (n % 64) '='

def encode : Bytes → Text
  | [] => []
  | [a] => [digit (a.toNat / 4), digit (a.toNat * 16), '=', '=']
  | [a, b] =>
    [digit (a.toNat / 4), digit (a.toNat * 16 + b.toNat / 16), digit (b.toNat * 4), '=']
  | a :: b :: c :: rest =>
    digit (a.toNat / 4) :: digit (a.toNat * 16 + b.toNat / 16)
      :: digit (b.toNat * 4 + c.toNat / 64) :: digit c.toNat :: encode rest

end Slideshow.Base64
