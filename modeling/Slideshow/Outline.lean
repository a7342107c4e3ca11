import Slideshow.Slide.Basic

/-! # The outline of a deck

Entries arrive in the order of the slides. An entry closes every open entry whose level is not
lower than its own and goes below the innermost one that stays open.
-/
namespace Slideshow.Outline

structure Entry where
  title : Text
  level : Nat
  /-- The number of the slide that the entry stands for. -/
  number : Nat
  deriving DecidableEq, Repr

inductive Node
  | mk (entry : Entry) (children : List Node)
  deriving Repr

instance : Inhabited Node := ⟨.mk ⟨[], 0, 0⟩ []⟩

def Node.entry : Node → Entry
  | mk e _ => e

def Node.children : Node → List Node
  | mk _ cs => cs

mutual

/-- The entries of a node, parents before children. -/
def Node.entries : Node → List Entry
  | .mk e cs => e :: Node.entriesOf cs

def Node.entriesOf : List Node → List Entry
  | [] => []
  | n :: ns => n.entries ++ Node.entriesOf ns

end

/-- An open entry and the children it has so far, all of them closed. -/
structure Branch where
  entry : Entry
  children : List Node
  deriving Repr

/-- An outline under construction: its closed roots and the open entries, innermost first. -/
structure Builder where
  roots : List Node := []
  path : List Branch := []
  deriving Repr

/-- The node that some nested branches form when they are closed, innermost first. -/
def close (path : List Branch) : List Node :=
  path.foldl (fun below b => [.mk b.entry (b.children ++ below)]) []

namespace Builder

def add (b : Builder) (e : Entry) : Builder :=
  let shut := b.path.takeWhile (e.level ≤ ·.entry.level)
  match b.path.dropWhile (e.level ≤ ·.entry.level) with
  | [] => { roots := b.roots ++ close shut, path := [⟨e, []⟩] }
  | parent :: outer =>
    { b with path := ⟨e, []⟩ :: ⟨parent.entry, parent.children ++ close shut⟩ :: outer }

/-- The outline as it stands. -/
def nodes (b : Builder) : List Node := b.roots ++ close b.path

def isEmpty (b : Builder) : Bool := b.roots.isEmpty && b.path.isEmpty

end Builder

/-- The outline of a sequence of entries. -/
def ofEntries (entries : List Entry) : List Node := (entries.foldl Builder.add {}).nodes

/-- The entry of a slide: its title, or a dash if it has none or is too deep. -/
def entryOf (deepest : Nat) (s : Slide) : Entry :=
  match s.displayTitle, s.level with
  | some title, some level =>
    if level ≤ deepest then ⟨title, level, s.number⟩ else ⟨"-", 1, s.number⟩
  | _, _ => ⟨"-", 1, s.number⟩

def ofSlides (deepest : Nat) (slides : List Slide) : List Node :=
  ofEntries (slides.map (entryOf deepest))

end Slideshow.Outline
