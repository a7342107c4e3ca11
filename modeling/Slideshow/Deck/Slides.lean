import Slideshow.Deck.Basic
import Slideshow.Slide.Extract
import Slideshow.Slide.Fragment

/-! # The slides of a deck

A document is split into fragments, and each of them makes a slide unless nothing is left of it.
-/
namespace Slideshow.Deck

/-- Content after all passes of the deck. -/
def process (d : Deck) (store : Store) (source : Option Text) (content : Text) : Outcome Passed :=
  d.pipeline.process ⟨store, source⟩ content

/-- Where a slide of a document comes from. -/
def facts (store : Store) (source : Text) : List (Text × Text) :=
  [("abs_path", store.absolute source), ("rel_path", source)]

/-- The header after the passes, if there is one. What they set aside is dropped. -/
def passHeader (d : Deck) (store : Store) (source : Option Text) (s : Slide) : Outcome Slide :=
  match s.header with
  | none => pure s
  | some header => do
    let passed ← d.process store source header
    pure { s with header := some passed.content }

/-- The content after the passes, if there is any. What they set aside are classes. -/
def passContent (d : Deck) (store : Store) (source : Option Text) (s : Slide) : Outcome Slide :=
  if s.content = [] then pure s
  else do
    let passed ← d.process store source s.content
    pure ({ s with content := passed.content }.addClasses passed.sideData)

/-- The slide that a fragment makes, not yet placed. -/
def slideOf (d : Deck) (store : Store) (source : Option Text) (fragment : Text) :
    Outcome Slide := do
  let s ← d.passHeader store source (Slide.ofFragment fragment d.settings.presenterNotes)
  let s ← d.passContent store source (s.addClasses d.settings.defaultClasses)
  pure { s with source := (source.map (facts store)).getD s.source }

/-- The slides of a deck so far with one more, which gets the next number. A slide without
heading, content and notes is left out. -/
def place (slides : List Slide) (s : Slide) : List Slide :=
  if s.header.isNone && s.content.isEmpty && s.rawNotes.isNone then slides
  else slides ++ [{ s with number := slides.length + 1 }]

def slides (d : Deck) (store : Store) : Outcome (List Slide) := do
  let slides ← (Fragment.split d.html d.settings.splitLevel).foldlM
    (fun slides fragment => place slides <$> d.slideOf store (some d.source) fragment) []
  if slides.isEmpty then
    Outcome.report .warning ("No slides found in " ++ Text.quoted d.source)
  pure slides

end Slideshow.Deck
