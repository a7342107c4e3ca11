import Slideshow.Text.Quoted
import Slideshow.Text.Case
import Slideshow.Encoding.Utf8

/-! # Settings of a compilation -/
namespace Slideshow

structure Settings where
  /-- The label of the source's encoding. -/
  encoding : Option Text := none
  presenterNotes : Bool := true
  /-- Classes that every slide gets first. -/
  defaultClasses : List Text := []
  destination : Text := "presentation.html"
  /-- Put images, style sheets and scripts into the page. -/
  embed : Bool := false
  /-- Keep the paths of images, style sheets and scripts as they are. -/
  relative : Bool := false
  /-- The deepest heading level that the outline lists. -/
  maxTocLevel : Nat := 2
  /-- The deepest heading level that starts a slide. -/
  splitLevel : Nat := 1
  markdownExtensions : List Text := []
  mathOutput : Bool := false
  template : Option Text := none
  /-- The names of the content passes, or nothing for all of them. -/
  passes : Option (List Text) := none
  deriving DecidableEq, Repr

namespace Settings

/-- The environment variables that settings are made from. -/
def variableNames : List Text := ["SLIDEDECK_ENCODING", "SLIDEDECK_PRESENTER_NOTES", "SLIDEDECK_EMBED",
  "SLIDEDECK_RELATIVE", "SLIDEDECK_MAX_TOC_LEVEL", "SLIDEDECK_DESTINATION"]

/-- The settings that environment variables make. -/
def ofEnvironment (get : Text → Option Text) : Settings :=
  let isOn : Text → Bool := fun v => Text.lower v = ("true" : Text)
  let isOff : Text → Bool := fun v => Text.lower v = ("false" : Text)
  { encoding := (get "SLIDEDECK_ENCODING").filter (· ≠ [])
    presenterNotes := !((get "SLIDEDECK_PRESENTER_NOTES").map isOff).getD false
    embed := ((get "SLIDEDECK_EMBED").map isOn).getD false
    relative := ((get "SLIDEDECK_RELATIVE").map isOn).getD false
    maxTocLevel := ((get "SLIDEDECK_MAX_TOC_LEVEL").bind Text.level?).getD 2
    destination := (get "SLIDEDECK_DESTINATION").getD "presentation.html" }

/-! ### Written form -/

def writtenBool (b : Bool) : Text := if b then "true" else "false"

def writtenOption {α : Type} (write : α → Text) : Option α → Text
  | none => "None"
  | some a => "Some(" ++ write a ++ ")"

def writtenList (items : List Text) : Text :=
  "[" ++ List.intercalate (", " : Text) (items.map Text.quoted) ++ "]"

/-- The settings on one line. A listener for messages shows as a placeholder and a template by its
length in bytes. -/
def written (s : Settings) (heard : Bool) : Text :=
  let fields : List (Text × Text) := [
    ("encoding", writtenOption Text.quoted s.encoding),
    ("presenter_notes", writtenBool s.presenterNotes),
    ("logger", if heard then "Some(\"<callback>\")" else "None"),
    ("default_classes", writtenList s.defaultClasses),
    ("destination_file", Text.quoted s.destination),
    ("embed", writtenBool s.embed),
    ("relative", writtenBool s.relative),
    ("max_toc_level", Text.decimal s.maxTocLevel),
    ("split_level", Text.decimal s.splitLevel),
    ("markdown_extensions", writtenList s.markdownExtensions),
    ("math_output", writtenBool s.mathOutput),
    ("template", writtenOption (fun t => Text.decimal (Utf8.encode t).length) s.template),
    ("macros", writtenOption writtenList s.passes)]
  "Config \x7b " ++ List.intercalate (", " : Text) (fields.map fun f => f.1 ++ ": " ++ f.2) ++ " \x7d"

end Settings

end Slideshow
