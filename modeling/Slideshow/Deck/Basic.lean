import Slideshow.Asset
import Slideshow.Dialect
import Slideshow.Encoding.Basic
import Slideshow.Markdown.Basic
import Slideshow.Pass.Standard
import Slideshow.Restructured.Reader

/-! # Decks

A deck is one document, read and decoded, with all that it takes to make a page of it. What can be
wrong with the settings is found when a deck is loaded, and the first fault decides.
-/
namespace Slideshow

/-- The HTML of a document. -/
def Dialect.toHtml (d : Dialect) (extensions : List Text) (text : Text) : Text :=
  match d with
  | .markdown => Markdown.toHtml (Markdown.Extensions.ofNames extensions) text
  | .restructuredText => Restructured.toHtml text

structure Deck where
  /-- The path of the document, as it was given. -/
  source : Text
  settings : Settings
  dialect : Dialect
  /-- The decoded document. -/
  text : Text
  pipeline : Pipeline
  userStyles : List Asset := []
  userScripts : List Asset := []

namespace Deck

/-- Read and decode a document. -/
def load (store : Store) (settings : Settings) (source : Text) : Outcome Deck := do
  Outcome.ofExcept (store.requireFile source)
  let dialect ← Outcome.ofExcept (Dialect.ofPath source)
  let encoding ← Outcome.ofExcept (settings.encoding.mapM Encoding.resolve)
  let pipeline ← Outcome.ofExcept (Pipeline.ofSettings settings)
  (Markdown.Extensions.unknown settings.markdownExtensions).forM fun name =>
    Outcome.report .warning ("Ignoring unknown markdown extension '" ++ name ++ "'")
  let bytes ← Outcome.ofExcept ((store.read source).mapError .read)
  let decoded := Encoding.decodeSource bytes encoding
  if decoded.malformed then
    Outcome.report .warning (Text.quoted source ++ " is not valid in its source encoding, decoded as "
      ++ decoded.encoding.name)
  Outcome.report .notice ("Adding   " ++ Text.quoted source ++ " (" ++ dialect.name ++ ")")
  pure { source, settings, dialect, text := decoded.text, pipeline }

/-- The document as HTML. -/
def html (d : Deck) : Text := d.dialect.toHtml d.settings.markdownExtensions d.text

/-- One more pass after those of the deck. -/
def register (d : Deck) (pass : Pass) : Except Failure Deck :=
  (d.pipeline.register pass).map fun p => { d with pipeline := p }

def registerNamed (d : Deck) (name : Text) : Except Failure Deck :=
  (d.pipeline.registerNamed d.settings name).map fun p => { d with pipeline := p }

/-- One more style sheet or script of the user. -/
def addAsset (store : Store) (kind : Asset.Kind) (path : Text) (d : Deck) : Except Failure Deck :=
  (Asset.load store kind path).map fun asset =>
    match kind with
    | .css => { d with userStyles := d.userStyles ++ [asset] }
    | .js => { d with userScripts := d.userScripts ++ [asset] }

end Deck

end Slideshow
