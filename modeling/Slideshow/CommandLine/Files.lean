import Slideshow.CommandLine.Run

/-! # The files of a run

What a run finds depends on the entries along a few paths. They are known before the run: the
command line and the environment name most of them, and the document names its images.
-/
namespace Slideshow

namespace Store

/-- The places on the way from a place along some names. -/
def placesAlong (place : List Text) : List Text → List (List Text)
  | [] => [place]
  | name :: names =>
    place ::
      if name = [] ∨ name = ("." : Text) then placesAlong place names
      else if name = (".." : Text) then placesAlong place.dropLast names
      else placesAlong (place ++ [name]) names

/-- The places on the way to the working directory and from there to a path. -/
def placesTo (s : Store) (path : Text) : List (List Text) :=
  placesAlong [] s.home ++ placesAlong (s.startOf path) (Text.pieces '/' path)

end Store

/-- The paths of the images in a deck that are no URLs. -/
def Deck.imagePaths (d : Deck) (store : Store) : List Text :=
  (Pass.Image.pattern.split d.html).filterMap fun
    | .inl _ => none
    | .inr i =>
      if Url.isAbsolute i.address then none
      else some (Path.join ((Origin.directory? ⟨store, some d.source⟩).getD []) i.address)

namespace CommandLine.Arguments

/-- The paths that a run follows, its images left aside. -/
def paths (a : Arguments) (settings : Settings) : List Text :=
  a.source :: settings.destination :: a.css ++ a.js ++ a.template.toList

/-- The paths of the images that a run embeds. -/
def imagePaths (a : Arguments) (store : Store) (settings : Settings) : List Text :=
  match settings.embed, (Deck.load store settings a.source).result with
  | true, .ok deck => deck.imagePaths store
  | _, _ => []

end CommandLine.Arguments

end Slideshow
