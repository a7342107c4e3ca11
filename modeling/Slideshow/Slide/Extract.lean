import Slideshow.Slide.Basic
import Slideshow.Markup.Heading

/-! # The parts of a slide

The first heading of a fragment titles the slide. A presenter notes heading and everything after
it is no content; with notes switched off it is kept only as raw notes.
-/
namespace Slideshow.Slide
open Text Markup

/-- The content around a heading: what stands before it and what stands after it. -/
def joinContent (before after : Text) : Text :=
  let before := trim before
  let after := trim after
  if before = [] then after else if after = [] then before else before ++ ['\n'] ++ after

/-- The slide that a fragment describes, not yet placed. -/
def ofFragment (fragment : Text) (showNotes : Bool) : Slide :=
  let (body, notes) := match cutAtNotes? fragment with
    | some (before, after) => (before, some (trim after))
    | none => (fragment, none)
  let slide : Slide := {
    presenterNotes := if showNotes then notes else none
    rawNotes := notes }
  match Heading.find? body with
  | some (before, heading, after) =>
    { slide with
      title := some heading.title
      level := some heading.level
      header := some heading.source
      content := joinContent before after }
  | none => { slide with content := trim body }

end Slideshow.Slide
