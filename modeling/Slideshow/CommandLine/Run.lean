import Slideshow.CommandLine.Arguments
import Slideshow.Deck.Render

/-! # Running the program

A run loads the deck that the command line names and writes its page to a file or to the output.
Messages go to the error output, as many as the command line asks for.
-/
namespace Slideshow.CommandLine

/-- What a run leaves: the exit code, the output, and the lines of the error output. -/
structure Report where
  exit : Nat
  output : Text := []
  errors : List Text := []
  deriving DecidableEq, Repr

/-- The line that a message makes. -/
def Verbosity.line? (v : Verbosity) (m : Message) : Option Text :=
  match m.severity with
  | .notice => if v = .verbose then some m.text else none
  | .warning => if v = .quiet then none else some ("Warning: " ++ m.text)
  | .error => some ("Error: " ++ m.text)

namespace Arguments

/-- The settings of a run: those of the environment, changed by the arguments. -/
def settings (a : Arguments) (base : Settings) (template : Option Text) : Settings :=
  { base with
    encoding := a.encoding.or base.encoding
    presenterNotes := base.presenterNotes && !a.noPresenterNotes
    destination := a.destination.getD base.destination
    embed := base.embed || a.embed
    relative := base.relative || a.relative
    maxTocLevel := a.maxTocLevel.getD base.maxTocLevel
    markdownExtensions := a.extensions
    mathOutput := a.mathOutput
    template }

/-- The text of the template file. -/
def readTemplate (store : Store) (path : Text) : Except FileFault Text := do
  match Utf8.decode? (← store.read path) with
  | some text => .ok text
  | none => .error .noUtf8

/-- The deck with its style sheets and scripts. -/
def prepare (a : Arguments) (store : Store) (settings : Settings) : Outcome Deck := do
  let deck ← Deck.load store settings a.source
  let deck ← a.css.foldlM (fun d path => Outcome.ofExcept (d.addAsset store .css path)) deck
  a.js.foldlM (fun d path => Outcome.ofExcept (d.addAsset store .js path)) deck

/-- Make the page: the store after it, and what goes to the output. -/
def perform (a : Arguments) (store : Store) (settings : Settings) : Store × Outcome Text :=
  let prepared := a.prepare store settings
  match prepared.result with
  | .error failure => (store, ⟨prepared.messages, .error failure⟩)
  | .ok deck =>
    if a.direct then
      let rendered := deck.render store
      (store, ⟨prepared.messages ++ rendered.messages, rendered.result⟩)
    else
      let (store, published) := deck.publish store
      let announcement (path : Text) : Text :=
        if a.verbosity = .quiet then []
        else "Presentation generated: " ++ Text.quoted path ++ "\n"
      (store, ⟨prepared.messages ++ published.messages, published.result.map announcement⟩)

end Arguments

/-- A run of the program in an environment. -/
def run (store : Store) (get : Text → Option Text) (words : List Text) : Store × Report :=
  match Arguments.ofWords? words with
  | none => (store, { exit := 2, errors := ["Usage: slidedeck [OPTIONS] <SOURCE>"] })
  | some a =>
    match a.template.mapM (Arguments.readTemplate store) with
    | .error fault => (store, { exit := 1, errors := ["Error: " ++ fault.message] })
    | .ok template =>
      let (store, outcome) := a.perform store (a.settings (Settings.ofEnvironment get) template)
      let lines := outcome.messages.filterMap a.verbosity.line?
      match outcome.result with
      | .ok output => (store, { exit := 0, output, errors := lines })
      | .error failure => (store, { exit := 1, errors := lines ++ ["Error: " ++ failure.message] })

end Slideshow.CommandLine
