import Slideshow.Deck.Slides
import Slideshow.Page.Standard

/-! # The page of a deck -/
namespace Slideshow.Deck

def outline (d : Deck) (slides : List Slide) : List Outline.Node :=
  Outline.ofSlides d.settings.maxTocLevel slides

/-- What the page of a deck with some slides shows. -/
def page (d : Deck) (slides : List Slide) : Page :=
  let tags (assets : List Asset) : List Text :=
    assets.map (·.tag d.settings.embed d.settings.relative)
  { headTitle := Slide.deckTitle? slides
    slideCount := slides.length
    slides
    outline := d.outline slides
    embed := d.settings.embed
    mathOutput := d.settings.mathOutput
    css := tags [Asset.themeStyle]
    userCss := tags d.userStyles
    js := tags [Asset.themeScript]
    userJs := tags d.userScripts }

def render (d : Deck) (store : Store) : Outcome Text := do
  let slides ← d.slides store
  Outcome.ofExcept ((d.page slides).render d.settings.template)

/-- Write the page of a deck to its destination, if there is a page. -/
def publish (d : Deck) (store : Store) : Store × Outcome Text :=
  let rendered := d.render store
  let path := d.settings.destination
  match rendered.result with
  | .error failure => (store, ⟨rendered.messages, .error failure⟩)
  | .ok html =>
    let (store, saved) := store.save path (Utf8.encode html)
    let announced : Outcome Text := do
      Outcome.ofExcept saved
      Outcome.report .notice ("Generated file: " ++ Text.quoted path)
      pure path
    (store, ⟨rendered.messages ++ announced.messages, announced.result⟩)

end Slideshow.Deck
