import Slideshow.Text.Basic

/-! # Blocks

A document is a list of blocks. The type of inline content is a parameter: at first it is text
that is yet to be read.
-/
namespace Slideshow.Markdown

inductive Alignment
  | none
  | left
  | right
  | center
  deriving DecidableEq, Repr

inductive Block (α : Type)
  | paragraph (content : α)
  | heading (level : Nat) (content : α)
  | rule
  | code (info literal : Text)
  | raw (literal : Text)
  | quote (body : List (Block α))
  /-- The items of a list; one with numbers has a first number. -/
  | list (start : Option Nat) (tight : Bool) (items : List (Block α))
  | item (body : List (Block α))
  | table (columns : List Alignment) (header : List α) (rows : List (List α))
  | definitions (entries : List (Block α))
  /-- The details of a term; further details of the same term come without it. -/
  | definition (term : Option α) (body : List (Block α))
  | note (name : Text) (body : List (Block α))

namespace Block
variable {α β : Type} {m : Type → Type} [Monad m]

instance : Inhabited (Block α) := ⟨rule⟩

/-- Cells in reading order, put to an action. -/
def mapCells (f : α → m β) : List α → m (List β)
  | [] => pure []
  | c :: cs => do
    let d ← f c
    return d :: (← mapCells f cs)

def mapRows (f : α → m β) : List (List α) → m (List (List β))
  | [] => pure []
  | r :: rs => do
    let s ← mapCells f r
    return s :: (← mapRows f rs)

mutual

/-- Inline content in reading order, put to an action. -/
def traverse (f : α → m β) : Block α → m (Block β)
  | paragraph c => return paragraph (← f c)
  | heading level c => return heading level (← f c)
  | rule => pure rule
  | code info literal => pure (code info literal)
  | raw literal => pure (raw literal)
  | quote body => return quote (← traverseAll f body)
  | list start tight items => return list start tight (← traverseAll f items)
  | item body => return item (← traverseAll f body)
  | table columns header rows => do
    let header ← mapCells f header
    return table columns header (← mapRows f rows)
  | definitions entries => return definitions (← traverseAll f entries)
  | definition none body => return definition none (← traverseAll f body)
  | definition (some c) body => do
    let term ← f c
    return definition (some term) (← traverseAll f body)
  | note name body => return note name (← traverseAll f body)

def traverseAll (f : α → m β) : List (Block α) → m (List (Block β))
  | [] => pure []
  | b :: bs => do
    let c ← b.traverse f
    return c :: (← traverseAll f bs)

end

/-- Blocks with their inline content replaced. -/
def mapAll (f : α → β) (bs : List (Block α)) : List (Block β) :=
  Id.run (traverseAll (m := Id) (fun c => pure (f c)) bs)

end Block

end Slideshow.Markdown
