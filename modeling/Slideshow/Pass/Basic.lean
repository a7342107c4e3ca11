import Slideshow.Outcome
import Slideshow.Store.Basic

/-! # Content passes

A pass changes the content of a slide and may set words aside, which become classes of the slide.
Passes run in the order in which they were registered, each on what the one before it left.
-/
namespace Slideshow

/-- Where content comes from. -/
structure Origin where
  store : Store
  /-- The path of the document. -/
  source : Option Text

/-- The absolute path of the directory that holds the document. -/
def Origin.directory? (o : Origin) : Option Text :=
  o.source.bind fun path => Path.parent? (o.store.absolute path)

structure Passed where
  content : Text
  sideData : List Text
  deriving DecidableEq, Repr

structure Pass where
  name : Text
  run : Origin → Text → Outcome Passed

/-- Passes in the order of their registration. -/
structure Pipeline where
  passes : List Pass

namespace Pipeline

def empty : Pipeline := ⟨[]⟩

def names (p : Pipeline) : List Text := p.passes.map (·.name)

def contains (p : Pipeline) (name : Text) : Bool := name ∈ p.names

def register (p : Pipeline) (pass : Pass) : Except Failure Pipeline :=
  if p.contains pass.name then .error (.duplicatePass pass.name) else .ok ⟨p.passes ++ [pass]⟩

/-- What a pass makes of content that others have passed. -/
def step (origin : Origin) (before : Passed) (pass : Pass) : Outcome Passed := do
  let after ← pass.run origin before.content
  pure ⟨after.content, before.sideData ++ after.sideData⟩

def process (p : Pipeline) (origin : Origin) (content : Text) : Outcome Passed :=
  p.passes.foldlM (step origin) ⟨content, []⟩

end Pipeline

end Slideshow
