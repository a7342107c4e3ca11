import Slideshow.Text.Basic

/-! # Lines of Markdown

A line is what is left of it behind the marks of the blocks around. White space at its front is
measured in columns, and a tab reaches to the next column that is a multiple of four. A tab that
is taken away in part leaves spaces for the rest.
-/
namespace Slideshow.Markdown

structure Line where
  /-- The column at which the text starts. -/
  column : Nat
  text : Text
  deriving DecidableEq, Repr

/-- White space that indents and separates. -/
def isSpace (c : Char) : Bool := c = ' ' || c = '\t'

/-- White space of ASCII, line breaks among it. -/
def isWhite (c : Char) : Bool := c = ' ' || (9 ≤ c.toNat && c.toNat ≤ 13)

def trimEnd (s : Text) : Text := (s.reverse.dropWhile isWhite).reverse

/-- The text without white space around it. -/
def trim (s : Text) : Text := trimEnd (s.dropWhile isWhite)

/-- The columns from a place to the next stop of a tab. -/
def tabWidth (column : Nat) : Nat := 4 - column % 4

namespace Line

/-- The columns that white space at the front of a text takes. -/
def indentFrom (column : Nat) : Text → Nat
  | [] => 0
  | c :: s =>
    if c = ' ' then indentFrom (column + 1) s + 1
    else if c = '\t' then indentFrom (column + tabWidth column) s + tabWidth column
    else 0

def indent (l : Line) : Nat := indentFrom l.column l.text

/-- The text without white space at its front. -/
def content (l : Line) : Text := l.text.dropWhile isSpace

def isBlank (l : Line) : Bool := l.content.isEmpty

/-- Indented as far as code is. -/
def isIndented (l : Line) : Bool := 4 ≤ l.indent

/-- Columns of white space taken away from the front of a text. -/
def withoutColumns (column : Nat) : Nat → Text → Text
  | 0, s => s
  | _ + 1, [] => []
  | n + 1, c :: s =>
    if c = ' ' then withoutColumns (column + 1) n s
    else if c = '\t' then
      let width := tabWidth column
      if width ≤ n + 1 then withoutColumns (column + width) (n + 1 - width) s
      else List.replicate (width - (n + 1)) ' ' ++ s
    else c :: s

/-- The line with at most `n` columns of white space taken away. -/
def dropColumns (n : Nat) (l : Line) : Line :=
  ⟨l.column + min n l.indent, withoutColumns l.column n l.text⟩

def dropIndent (l : Line) : Line := ⟨l.column + l.indent, l.content⟩

/-- The line behind a mark of `n` characters, which may stand indented. -/
def dropMark (n : Nat) (l : Line) : Line := ⟨l.column + l.indent + n, l.content.drop n⟩

end Line

end Slideshow.Markdown
