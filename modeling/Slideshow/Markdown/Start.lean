import Slideshow.Markdown.Extension
import Slideshow.Markdown.Line
import Slideshow.Markdown.RawHtml
import Slideshow.Markdown.Reference

/-! # How blocks start

The first kind of block that fits the front of a line wins. A container leaves a rest of the line,
in which further blocks can start.
-/
namespace Slideshow.Markdown
open Text

/-- What the items of one list have in common. -/
inductive Marker
  | bullet (mark : Char)
  | number (delimiter : Char)
  deriving DecidableEq

/-- The opening of fenced code. -/
structure Fence where
  mark : Char
  length : Nat
  /-- How far the fence is indented. -/
  indent : Nat
  info : Text
  deriving DecidableEq

namespace Fence

/-- A fence has at least three marks. What follows backticks on the line holds none. -/
def ofLine? (l : Line) : Option Fence :=
  let s := l.content
  s.head?.bind fun c =>
    let length := (s.takeWhile (· = c)).length
    let info := s.drop length
    if (c = '\x60' ∧ '\x60' ∉ info ∨ c = '~') ∧ 3 ≤ length then
      some ⟨c, length, l.indent, plain (trim info)⟩
    else none

/-- Whether a line closes the code. -/
def closedBy (f : Fence) (l : Line) : Bool :=
  let marks := l.content.takeWhile (· = f.mark)
  !l.isIndented && 3 ≤ marks.length && f.length ≤ marks.length
    && (l.content.drop marks.length).all isSpace

end Fence

/-- A list item: its marker, the number it bears and the columns that its lines are indented. -/
structure Bullet where
  marker : Marker
  start : Nat := 1
  offset : Nat
  deriving DecidableEq

inductive Start
  | quote (rest : Line)
  | heading (level : Nat) (content : Text)
  | fence (f : Fence)
  | html (kind : RawKind)
  /-- The line under a heading. -/
  | underline (level : Nat)
  | rule
  | note (name : Text) (rest : Line)
  | details (offset : Nat) (rest : Line)
  | item (bullet : Bullet) (rest : Line)
  | code (rest : Line)

namespace Start

/-- Behind the mark of a quote goes one column of white space. -/
def quote? (l : Line) : Option Line :=
  if !l.isIndented && l.content.head? = some '>' then some ((l.dropMark 1).dropColumns 1) else none

/-- Number signs at the end of a heading are no part of it. -/
def headingContent (s : Text) : Text :=
  let s := trimEnd s
  let rest := (s.reverse.dropWhile (· = '#')).reverse
  if rest.length < s.length && (rest.isEmpty || rest.getLast?.any isSpace) then trimEnd rest else s

def heading? (s : Text) : Option (Nat × Text) :=
  let level := (s.takeWhile (· = '#')).length
  let rest := s.drop level
  if 1 ≤ level ∧ level ≤ 6 ∧ (rest.isEmpty || rest.head?.any isSpace) then
    some (level, headingContent (rest.dropWhile isSpace))
  else none

def underline? (s : Text) : Option Nat :=
  let of (c : Char) : Bool := s.head? = some c && (s.dropWhile (· = c)).all isSpace
  if of '=' then some 1 else if of '-' then some 2 else none

/-- Three or more equal marks with nothing but white space between them. -/
def isRule (s : Text) : Bool :=
  match s.filter (!isSpace ·) with
  | c :: marks => (c = '*' || c = '-' || c = '_') && marks.all (· = c) && 2 ≤ marks.length
  | [] => false

/-- The name of a note that is defined here, and the length of the mark before its text. -/
def note? (s : Text) : Option (Text × Nat) :=
  (dropAffix? "[^" s).bind fun s =>
    let name := s.takeWhile fun c => !(c = ']' || c = ' ' || c = '\t')
    let rest := s.drop name.length
    if name ≠ [] ∧ (dropAffix? "]:" rest).isSome then
      some (name, name.length + 4 + ((rest.drop 2).takeWhile isSpace).length)
    else none

/-- The length of the mark before the details of a term. -/
def details? (s : Text) : Option Nat :=
  match s with
  | c :: s =>
    if (c = ':' || c = '~') && s.head?.any isSpace then some (1 + (s.takeWhile isSpace).length)
    else none
  | [] => none

/-- The marker of an item, its number and its length. Inside a paragraph a list starts only with
an item that is not blank, and with the number one. -/
def marker? (inParagraph : Bool) (s : Text) : Option (Marker × Nat × Nat) :=
  let fits (n : Nat) : Bool :=
    let rest := s.drop n
    (rest.isEmpty || rest.head?.any isWhite) && !(inParagraph && rest.all isSpace)
  s.head?.bind fun c =>
    if c = '*' ∨ c = '-' ∨ c = '+' then if fits 1 then some (.bullet c, 1, 1) else none
    else
      let digits := (s.takeWhile Char.isDigit).take 9
      (value? digits).bind fun n =>
        match s.drop digits.length with
        | d :: _ =>
          if digits ≠ [] ∧ (d = '.' ∨ d = ')') ∧ (!inParagraph || n = 1) ∧ fits (digits.length + 1)
          then some (.number d, n, digits.length + 1)
          else none
        | [] => none

/-- The text of an item starts one to four columns behind its marker. Behind more white space it
is code, and a blank item starts one column behind its marker. -/
def item? (inParagraph : Bool) (l : Line) : Option (Bullet × Line) :=
  (marker? inParagraph l.content).map fun (marker, start, length) =>
    let rest := l.dropMark length
    let gap := rest.indent
    if rest.isBlank || gap = 0 || 5 ≤ gap then
      (⟨marker, start, l.indent + length + 1⟩, rest.dropColumns 1)
    else (⟨marker, start, l.indent + length + gap⟩, rest.dropColumns gap)

/-- What stands before a line: whether it could go on with a paragraph, whether that paragraph is
still open, whether it can be made a heading, and whether there is a term to give details of. -/
structure Context where
  mayContinue : Bool
  inParagraph : Bool
  canUnderline : Bool
  hasTerm : Bool

def of? (e : Extensions) (before : Context) (l : Line) : Option Start :=
  let s := l.content
  if l.isIndented then
    if before.mayContinue || l.isBlank then none else some (code (l.dropColumns 4))
  else if let some rest := quote? l then some (quote rest)
  else if let some (level, content) := heading? s then some (heading level content)
  else if let some f := Fence.ofLine? l then some (fence f)
  else if let some kind := RawKind.ofLine? before.inParagraph s then some (html kind)
  else if let some level := if before.canUnderline then underline? s else none then
    some (underline level)
  else if isRule s then some rule
  else if let some (name, length) := if e.notes then note? s else none then
    some (note name (l.dropMark length))
  else if let some length := if e.definitions && before.hasTerm then details? s else none then
    some (details (l.indent + length) (l.dropMark length))
  else if let some (bullet, rest) := item? before.inParagraph l then some (item bullet rest)
  else none

end Start

end Slideshow.Markdown
