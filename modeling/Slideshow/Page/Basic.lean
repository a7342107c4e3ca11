import Slideshow.Failure
import Slideshow.Outline
import Slideshow.Template.Reader

/-! # Pages

Everything that the page of a deck can show, under the names that templates use.
-/
namespace Slideshow
open Template (Value)

structure Page where
  headTitle : Option Text := none
  slideCount : Nat := 0
  slides : List Slide := []
  outline : List Outline.Node := []
  embed : Bool := false
  mathOutput : Bool := false
  /-- Tags that bring in the style sheets of the theme and of the user, and likewise scripts. -/
  css : List Text := []
  userCss : List Text := []
  js : List Text := []
  userJs : List Text := []

/-- A template sees a slide without the notes that were cut out of it. -/
def Slide.value (s : Slide) : Value := .record [
  ("number", .number s.number),
  ("title", .option s.title),
  ("level", match s.level with
    | some l => .number l
    | none => .nothing),
  ("header", .option s.header),
  ("content", .text s.content),
  ("presenter_notes", .option s.presenterNotes),
  ("classes", .texts s.classes),
  ("source", .record (s.source.map fun p => (p.1, .text p.2)))]

mutual

def Outline.Node.value : Outline.Node → Value
  | .mk e children => .record [
    ("title", .text e.title),
    ("level", .number e.level),
    ("number", .number e.number),
    ("children", .list (Outline.Node.valuesOf children))]

def Outline.Node.valuesOf : List Outline.Node → List Value
  | [] => []
  | n :: ns => n.value :: valuesOf ns

end

namespace Page

def values (p : Page) : List (Text × Value) := [
  ("head_title", .option p.headTitle),
  ("num_slides", .number p.slideCount),
  ("slides", .list (p.slides.map Slide.value)),
  ("toc", .list (Outline.Node.valuesOf p.outline)),
  ("embed", .flag p.embed),
  ("math_output", .flag p.mathOutput),
  ("css", .texts p.css),
  ("user_css", .texts p.userCss),
  ("js", .texts p.js),
  ("user_js", .texts p.userJs)]

/-- The text of a page in a template. -/
def fill (p : Page) (t : Template) : Except Failure Text :=
  match t.fill? p.values with
  | some text => .ok text
  | none => .error (.template .render)

end Page

end Slideshow
