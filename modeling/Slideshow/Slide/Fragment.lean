import Slideshow.Markup.Tag
import Slideshow.Markup.Heading

/-! # Cutting HTML into fragments

A fragment is the HTML of one slide. A rule ends a fragment and is dropped; a heading of a level
up to the split level starts one, unless it announces presenter notes or only blanks and comments
stand before it. Both count only outside all other elements.
-/
namespace Slideshow.Fragment
open Text Markup

/-- Elements that have no close tag. -/
def voidElements : List Text :=
  ["area", "base", "br", "col", "embed", "hr", "img", "input", "link", "meta", "source", "track",
    "wbr"]

/-- White space and comments only. -/
def isVacant (s : Text) : Bool := isAllBlank (uncommented s)

/-- The name of a tag in small letters. -/
def elementName (t : Tag) : Text := t.name.map Char.toLower

/-- Whether an open tag and the tokens after it start with a heading that starts a slide. -/
def opensSlide (splitLevel : Nat) (t : Tag) (rest : List Token) : Bool :=
  (levelOfName? (elementName t)).any (· ≤ splitLevel) &&
    (notesHeading? (spell (.tag t :: rest))).isNone

/-- The depth behind an open tag. -/
def depthInside (depth : Nat) (t : Tag) : Nat :=
  if t.selfClosing || elementName t ∈ voidElements then depth else depth + 1

/-- The pieces of a sequence of tokens at a depth; `pending` is the piece under way. -/
def cut (splitLevel : Nat) (depth : Nat) (pending : Text) : List Token → List Text
  | [] => [pending]
  | .tag t :: rest =>
    if t.closing then cut splitLevel (depth - 1) (pending ++ t.source) rest
    else if depth = 0 ∧ elementName t = ("hr" : Text) then
      pending :: cut splitLevel (depthInside depth t) [] rest
    else if depth = 0 ∧ opensSlide splitLevel t rest ∧ !isVacant pending then
      pending :: cut splitLevel (depthInside depth t) t.source rest
    else cut splitLevel (depthInside depth t) (pending ++ t.source) rest
  | token :: rest => cut splitLevel depth (pending ++ token.source) rest

/-- The fragments of an HTML document. -/
def split (html : Text) (splitLevel : Nat) : List Text :=
  ((cut splitLevel 0 [] (tokens html)).filter fun f => !isVacant f).map trim

end Slideshow.Fragment
