import Slideshow.Text.Visible
import Slideshow.Text.Numeral

/-! # Quoted text

A quoted text stands between double quotes and shows every character, visible or not.
-/
namespace Slideshow.Text

def quotedChar (c : Char) : Text :=
  match c with
  | '"' => ['\\', '"']
  | '\\' => ['\\', '\\']
  | '\n' => ['\\', 'n']
  | '\r' => ['\\', 'r']
  | '\t' => ['\\', 't']
  | c =>
    if c.toNat = 0 then ['\\', '0']
    else if isVisible c then [c]
    else ['\\', 'u', '\x7b'] ++ Nat.toDigits 16 c.toNat ++ ['\x7d']

def quoted (s : Text) : Text := ['"'] ++ s.flatMap quotedChar ++ ['"']

end Slideshow.Text
