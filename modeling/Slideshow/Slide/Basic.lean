import Slideshow.Text.Blank

/-! # Slides -/
namespace Slideshow

/-- One unit of a presentation. -/
structure Slide where
  /-- The place in the deck, from one; zero as long as it is not placed. -/
  number : Nat := 0
  /-- The inner markup of the heading. -/
  title : Option Text := none
  level : Option Nat := none
  /-- The whole heading element. -/
  header : Option Text := none
  content : Text := []
  /-- The notes that are shown to the presenter. -/
  presenterNotes : Option Text := none
  classes : List Text := []
  /-- Named facts about the document that the slide comes from. -/
  source : List (Text × Text) := []
  /-- The notes that were cut out of the slide, shown or not. -/
  rawNotes : Option Text := none
  deriving DecidableEq, Repr

namespace Slide

/-- The title, unless it is blank. -/
def displayTitle (s : Slide) : Option Text := s.title.filter fun t => !Text.isAllBlank t

/-- A class joins a list once, and never if it is empty. -/
def insertClass (classes : List Text) (name : Text) : List Text :=
  if name = [] ∨ name ∈ classes then classes else classes ++ [name]

def addClasses (s : Slide) (names : List Text) : Slide :=
  { s with classes := names.foldl insertClass s.classes }

/-- The title of a deck: that of its first slide with a title. -/
def deckTitle? (slides : List Slide) : Option Text := slides.findSome? displayTitle

end Slide

end Slideshow
