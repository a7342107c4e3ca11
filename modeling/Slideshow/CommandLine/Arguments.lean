import Slideshow.Text.Numeral

/-! # Command line arguments

Options are written long, behind two dashes, or short, behind one dash, where several of them can
share the dash. An option that takes a value finds it in the same word or in the next one. Behind
a word of two dashes nothing is an option.
-/
namespace Slideshow.CommandLine
open Text

inductive Flag
  | direct
  | embed
  | relative
  | noPresenterNotes
  | mathOutput
  | verbose
  | quiet
  deriving DecidableEq

/-- Options that take a value. -/
inductive Parameter
  | destination
  | encoding
  | css
  | js
  | extensions
  | maxTocLevel
  | template
  deriving DecidableEq

inductive Switch
  | flag (f : Flag)
  | parameter (p : Parameter)
  deriving DecidableEq

/-- The options with their long and short names. -/
def options : List (Switch × Text × Option Char) := [
  (.parameter .destination, "destination", some 'd'),
  (.parameter .encoding, "encoding", some 'e'),
  (.flag .direct, "direct", some 'o'),
  (.flag .embed, "embed", some 'i'),
  (.flag .relative, "relative", some 'r'),
  (.flag .noPresenterNotes, "no-presenter-notes", some 'P'),
  (.flag .mathOutput, "math-output", some 'm'),
  (.parameter .css, "css", some 'c'),
  (.parameter .js, "js", some 'j'),
  (.parameter .extensions, "extensions", some 'x'),
  (.parameter .maxTocLevel, "max-toc-level", none),
  (.parameter .template, "template", some 't'),
  (.flag .verbose, "verbose", some 'v'),
  (.flag .quiet, "quiet", some 'q')]

def long? (name : Text) : Option Switch := (options.find? (·.2.1 = name)).map (·.1)

def short? (name : Char) : Option Switch := (options.find? (·.2.2 = some name)).map (·.1)

/-! ### Words -/

/-- What the words of a command line give. -/
structure Given where
  flags : List Flag := []
  values : List (Parameter × Text) := []
  positions : List Text := []

namespace Given

def addFlag (g : Given) (f : Flag) : Given := { g with flags := g.flags ++ [f] }

def addValue (g : Given) (p : Parameter) (v : Text) : Given :=
  { g with values := g.values ++ [(p, v)] }

def addPosition (g : Given) (t : Text) : Given := { g with positions := g.positions ++ [t] }

/-- All values of a parameter. -/
def all (g : Given) (p : Parameter) : List Text :=
  g.values.filterMap fun v => if v.1 = p then some v.2 else none

end Given

/-- Words read so far, and a parameter that waits for its value in the next word. -/
structure Reading where
  given : Given := {}
  pending : Option Parameter := none
  /-- No word is an option any more. -/
  ended : Bool := false

namespace Reading

def isOption (word : Text) : Bool := word.head? = some '-' && word ≠ ['-']

def addLong? (r : Reading) (word : Text) : Option Reading :=
  match cutAt? "=" word with
  | some (name, value) =>
    match long? name with
    | some (.parameter p) => some { r with given := r.given.addValue p value }
    | _ => none
  | none =>
    (long? word).map fun
      | .flag f => { r with given := r.given.addFlag f }
      | .parameter p => { r with pending := some p }

def addShort? (r : Reading) : Text → Option Reading
  | [] => some r
  | c :: rest =>
    match short? c with
    | some (.flag f) => addShort? { r with given := r.given.addFlag f } rest
    | some (.parameter p) =>
      if rest = [] then some { r with pending := some p }
      else some { r with given := r.given.addValue p ((dropAffix? "=" rest).getD rest) }
    | none => none

def add? (r : Reading) (word : Text) : Option Reading :=
  match r.pending with
  | some p =>
    if isOption word then none
    else some { r with given := r.given.addValue p word, pending := none }
  | none =>
    if r.ended || !isOption word then some { r with given := r.given.addPosition word }
    else match dropAffix? "--" word with
      | some [] => some { r with ended := true }
      | some name => r.addLong? name
      | none => r.addShort? (word.drop 1)

end Reading

/-- What some words give, if they are all understood. -/
def Given.ofWords? (words : List Text) : Option Given :=
  (words.foldlM Reading.add? {}).bind fun r => if r.pending.isNone then some r.given else none

/-! ### Arguments -/

/-- How much the program tells about its progress. -/
inductive Verbosity
  | quiet
  | normal
  | verbose
  deriving DecidableEq

structure Arguments where
  source : Text
  destination : Option Text
  encoding : Option Text
  direct : Bool
  embed : Bool
  relative : Bool
  noPresenterNotes : Bool
  mathOutput : Bool
  css : List Text
  js : List Text
  extensions : List Text
  maxTocLevel : Option Nat
  template : Option Text
  verbosity : Verbosity

namespace Arguments

/-- The value of a parameter that can be given once. -/
def once? (values : List Text) : Option (Option Text) :=
  match values with
  | [] => some none
  | [v] => some (some v)
  | _ => none

/-- The arguments that make sense together: one source, no flag twice, no parameter twice that
takes one value, no empty path, a level that is a number, and not both kinds of verbosity. -/
def ofGiven? (g : Given) : Option Arguments := do
  let [source] := g.positions | none
  let destination ← once? (g.all .destination)
  let encoding ← once? (g.all .encoding)
  let template ← once? (g.all .template)
  let level ← once? (g.all .maxTocLevel)
  let maxTocLevel ← match level with
    | none => some none
    | some t => (level? t).map some
  let paths := source :: g.all .destination ++ g.all .css ++ g.all .js ++ g.all .template
  let verbose := g.flags.contains .verbose
  let quiet := g.flags.contains .quiet
  if [] ∈ paths ∨ !g.flags.Nodup ∨ (verbose ∧ quiet) then none
  else some {
    source, destination, encoding, template, maxTocLevel
    direct := g.flags.contains .direct
    embed := g.flags.contains .embed
    relative := g.flags.contains .relative
    noPresenterNotes := g.flags.contains .noPresenterNotes
    mathOutput := g.flags.contains .mathOutput
    css := g.all .css
    js := g.all .js
    extensions := (g.all .extensions).flatMap (pieces ',')
    verbosity := if quiet then .quiet else if verbose then .verbose else .normal }

def ofWords? (words : List Text) : Option Arguments := (Given.ofWords? words).bind ofGiven?

end Arguments

end Slideshow.CommandLine
