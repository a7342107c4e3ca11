import Slideshow.Text.Blank
import Slideshow.Text.Case

/-! # Extensions of Markdown

What a document may use beyond the common language. An extension is enabled by its name.
-/
namespace Slideshow.Markdown

structure Extensions where
  tables : Bool := false
  strikethrough : Bool := false
  autolinks : Bool := false
  tasks : Bool := false
  notes : Bool := false
  superscript : Bool := false
  definitions : Bool := false
  anchors : Bool := false
  deriving DecidableEq, Repr

namespace Extensions

/-- One more extension. White space around a name and its case do not matter, and an empty name
enables nothing. -/
def enable? (e : Extensions) (name : Text) : Option Extensions :=
  let name := Text.lower (Text.trim name)
  if name = [] then some e
  else if name = ("tables" : Text) ∨ name = ("table" : Text) then some { e with tables := true }
  else if name = "strikethrough" then some { e with strikethrough := true }
  else if name = "autolink" then some { e with autolinks := true }
  else if name = "tasklist" then some { e with tasks := true }
  else if name = "footnotes" then some { e with notes := true }
  else if name = "superscript" then some { e with superscript := true }
  else if name = "description_lists" then some { e with definitions := true }
  else if name = "header_ids" then some { e with anchors := true }
  else none

def ofNames (names : List Text) : Extensions := names.foldl (fun e n => (e.enable? n).getD e) {}

/-- The names that enable nothing because no extension has them. -/
def unknown (names : List Text) : List Text :=
  names.filter fun n => (enable? {} n).isNone

end Extensions

end Slideshow.Markdown
