import Slideshow.Markdown.Block
import Slideshow.Markdown.Inline
import Slideshow.Markdown.Reference

/-! # Notes

Notes are numbered in the order in which they are first referred to. A note that nothing refers
to is left out, and a reference to no note is text.
-/
namespace Slideshow.Markdown

/-- A note that is shown. -/
structure Note where
  name : Text
  /-- How often it is referred to. -/
  references : Nat
  body : List (Block (List Inline))

namespace Note

/-- The name of a note with its white space reduced. -/
def shownName (name : Text) : Text := List.intercalate [' '] (Text.words name)

mutual

/-- The notes that a block defines. -/
def defined {α : Type} : Block α → List (Text × List (Block α))
  | .quote body => definedAll body
  | .list _ _ items => definedAll items
  | .item body => definedAll body
  | .definitions entries => definedAll entries
  | .definition _ body => definedAll body
  | .note name body => [(name, body)]
  | _ => []

def definedAll {α : Type} : List (Block α) → List (Text × List (Block α))
  | [] => []
  | b :: bs => defined b ++ definedAll bs

end

/-- The notes that are referred to so far, in order: the label of each and how often. -/
abbrev Count := List (Text × Nat)

/-- Count a reference: the number of its note, and the references to it before. -/
def count (label : Text) : Count → Count × Nat × Nat
  | [] => ([(label, 1)], 1, 0)
  | (l, n) :: rest =>
    if l = label then ((l, n + 1) :: rest, 1, n)
    else
      let (rest, number, earlier) := count label rest
      ((l, n) :: rest, number + 1, earlier)

mutual

/-- References with their numbers. `names` gives the name of each note by its label. -/
def number (names : List (Text × Text)) : Inline → StateM Count Inline
  | .note name => fun c =>
    match names.lookup (normalLabel name) with
    | some shown =>
      let (c, number, earlier) := count (normalLabel name) c
      (.noteMark shown number earlier, c)
    | none => (.text ("[^" ++ name ++ "]"), c)
  | .styled style body => return .styled style (← numberAll names body)
  | .link url title body => return .link url title (← numberAll names body)
  | .image url title body => return .image url title (← numberAll names body)
  | i => pure i

def numberAll (names : List (Text × Text)) : List Inline → StateM Count (List Inline)
  | [] => pure []
  | i :: rest => do
    let j ← number names i
    return j :: (← numberAll names rest)

end

/-- A document with its references numbered, and the notes in their order. -/
def resolve (bs : List (Block (List Inline))) : List (Block (List Inline)) × List Note :=
  -- The last definition of a label counts.
  let names := (definedAll bs).reverse.map fun d => (normalLabel d.1, shownName d.1)
  let (bs, counts) := Block.traverseAll (m := StateM Count) (numberAll names) bs []
  let bodies := (definedAll bs).reverse.map fun d => (normalLabel d.1, d.2)
  (bs, counts.map fun c => ⟨(names.lookup c.1).getD [], c.2, (bodies.lookup c.1).getD []⟩)

end Note

end Slideshow.Markdown
