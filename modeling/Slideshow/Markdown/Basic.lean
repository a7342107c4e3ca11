import Slideshow.Markdown.Autolink
import Slideshow.Markdown.Builder
import Slideshow.Markdown.Html
import Slideshow.Markdown.Span

/-! # Markdown

A source is read as blocks, the text in them as inline content, and the whole is written as HTML.
Raw HTML in the source is passed on.
-/
namespace Slideshow.Markdown

/-- The document that a source describes, with its notes. -/
def document (e : Extensions) (s : Text) : List (Block (List Inline)) × List Note :=
  let (bs, references) := blocks e s
  let (bs, notes) := Note.resolve (Block.mapAll (spans ⟨e, references⟩) bs)
  let finish (c : List Inline) : List Inline :=
    if e.autolinks then Autolink.ofInlines (Inline.joined c) else Inline.joined c
  (Block.mapAll finish bs, notes.map fun n => { n with body := Block.mapAll finish n.body })

def toHtml (e : Extensions) (s : Text) : Text :=
  let (body, notes) := document e s
  documentHtml e body notes

end Slideshow.Markdown
