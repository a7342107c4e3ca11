import Slideshow.Markdown.Start
import Slideshow.Markdown.Table

/-! # Block structure

A document is built line by line. The containers that are open are kept innermost first, and the
innermost one may hold a leaf that takes further lines. A line first goes on with as many
containers as it can; then it opens new blocks, and what is left of it is text.
-/
namespace Slideshow.Markdown
open Text

inductive Container
  | document
  | quote
  | list (marker : Marker) (start : Nat)
  | item (offset : Nat)
  | definitions
  | definition (term : Option Text) (offset : Nat)
  | note (name : Text)

/-- A closed block. -/
structure Child where
  block : Block Text
  /-- It ends with a blank line. -/
  blank : Bool := false
  /-- A blank line lies between its parts. -/
  gap : Bool := false

/-- An open container with its closed blocks, newest first. -/
structure Frame where
  container : Container
  body : List Child := []
  /-- The last line left it blank. -/
  blank : Bool := false

/-- The open leaf. Its lines are kept newest first. -/
inductive Leaf
  | none
  | paragraph (lines : List Text)
  | fenced (fence : Fence) (lines : List Text)
  | indented (lines : List Text)
  | html (kind : RawKind) (lines : List Text)
  | table (columns : List Alignment) (header : List Text) (rows : List (List Text))

structure Builder where
  /-- Innermost first; the last one is the document. -/
  frames : List Frame := [⟨.document, [], false⟩]
  leaf : Leaf := .none
  /-- The last line left the leaf blank. -/
  leafBlank : Bool := false
  references : References := []

/-! ### Closing -/

/-- A list is loose if a blank line lies between two items or between two blocks of an item. -/
def isLoose : List Child → Bool
  | [] => false
  | last :: before => last.gap || before.any fun c => c.blank || c.gap

namespace Frame

def close (f : Frame) : Child :=
  let blocks := (f.body.map Child.block).reverse
  let endsBlank := f.blank || (f.body.head?.map Child.blank).getD false
  match f.container with
  | .document | .quote => ⟨.quote blocks, f.blank, false⟩
  | .list marker start =>
    let start := match marker with
      | .bullet _ => none
      | .number _ => some start
    ⟨.list start (!isLoose f.body) blocks, endsBlank, false⟩
  | .item _ => ⟨.item blocks, endsBlank, f.body.tail.any Child.blank⟩
  | .definitions => ⟨.definitions blocks, f.blank, false⟩
  | .definition term _ => ⟨.definition term blocks, f.blank, false⟩
  | .note name => ⟨.note name blocks, f.blank, false⟩

def add (f : Frame) (c : Child) : Frame := { f with body := c :: f.body }

/-- Containers that hold blocks of one kind only. -/
def isExclusive (f : Frame) : Bool :=
  match f.container with
  | .list _ _ | .definitions => true
  | _ => false

end Frame

/-- The frames with the innermost one closed. The document stays open. -/
def closeInner : List Frame → List Frame
  | f :: g :: outer => g.add f.close :: outer
  | frames => frames

namespace Builder

def inner (b : Builder) : Frame := b.frames.headD ⟨.document, [], false⟩

def mapInner (b : Builder) (f : Frame → Frame) : Builder :=
  match b.frames with
  | frame :: outer => { b with frames := f frame :: outer }
  | [] => b

/-- Close containers that take no block of another kind. -/
def leaveExclusive (b : Builder) : Builder :=
  if b.inner.isExclusive then { b with frames := closeInner b.frames } else b

def addChild (b : Builder) (c : Child) : Builder := b.leaveExclusive.mapInner (·.add c)

def addBlock (b : Builder) (block : Block Text) : Builder := b.addChild ⟨block, false, false⟩

def openFrame (b : Builder) (c : Container) : Builder :=
  { b with frames := ⟨c, [], false⟩ :: b.frames }

/-- The text of lines, newest first. -/
def joined (lines : List Text) : Text := (lines.reverse.map (· ++ ['\n'])).flatten

/-- A paragraph as a definition of labels and the text that remains. -/
def splitParagraph (lines : List Text) : References × Text := References.split (joined lines)

/-- The leaf as a block. A paragraph of definitions alone leaves none. -/
def closeLeaf (b : Builder) : Builder :=
  let closed := { b with leaf := .none, leafBlank := false }
  match b.leaf with
  | .none => b
  | .paragraph lines =>
    let (references, rest) := splitParagraph lines
    let closed := { closed with references := b.references ++ references }
    if rest.all isWhite then closed
    else closed.addChild ⟨.paragraph (trimEnd rest), b.leafBlank, false⟩
  | .fenced f lines => closed.addChild ⟨.code f.info (joined lines), b.leafBlank, false⟩
  | .indented lines =>
    closed.addChild ⟨.code [] (joined (lines.dropWhile (·.all isSpace))), b.leafBlank, false⟩
  | .html _ lines => closed.addChild ⟨.raw (joined lines), b.leafBlank, false⟩
  | .table columns header rows =>
    closed.addChild ⟨.table columns header rows.reverse, b.leafBlank, false⟩

/-- Close everything below the outermost `n` containers. -/
def keep (n : Nat) (b : Builder) : Builder :=
  let b := b.closeLeaf
  { b with frames := (List.range (b.frames.length - n)).foldl (fun fs _ => closeInner fs) b.frames }

/-! ### Going on with open blocks -/

/-- The rest of a line that goes on with a container. -/
def goesOn? (f : Frame) (hasChild : Bool) (l : Line) : Option Line :=
  let within (offset : Nat) : Option Line :=
    if offset ≤ l.indent then some (l.dropColumns offset)
    else if l.isBlank && hasChild then some l.dropIndent
    else none
  match f.container with
  | .document | .list _ _ | .definitions => some l
  | .quote => Start.quote? l
  | .item offset | .definition _ offset => within offset
  | .note _ => if l.isIndented then some (l.dropColumns 4) else if l.text.isEmpty then some l else none

/-- How many containers, given outermost first, a line goes on with, and the rest of the line.
`hasLeaf` tells whether the innermost one holds a leaf. -/
def matched (hasLeaf : Bool) : List Frame → Line → Nat × Line
  | [], l => (0, l)
  | f :: inner, l =>
    match goesOn? f (!inner.isEmpty || hasLeaf || !f.body.isEmpty) l with
    | some l => let (n, l) := matched hasLeaf inner l; (n + 1, l)
    | none => (0, l)

def hasLeaf (b : Builder) : Bool :=
  match b.leaf with
  | .none => false
  | _ => true

def paragraphLines? (b : Builder) : Option (List Text) :=
  match b.leaf with
  | .paragraph lines => some lines
  | _ => none

/-- Mark the containers after a line that is not blank. -/
def settle (b : Builder) : Builder :=
  { b with frames := b.frames.map ({ · with blank := false }), leafBlank := false }

/-- Mark the containers after a blank line. `opened` tells whether the line opened one of them. -/
def settleBlank (opened : Bool) (b : Builder) : Builder :=
  b.settle.mapInner fun f =>
    { f with
      body := match f.body with
        | c :: cs => { c with blank := true } :: cs
        | [] => []
      blank := match f.container with
        | .quote => false
        | .item _ => !opened || !f.body.isEmpty
        | _ => true }

/-- The builder after a line that goes on with code or raw HTML. -/
def leafTakes? (b : Builder) (l : Line) : Option Builder :=
  match b.leaf with
  | .fenced f lines =>
    if f.closedBy l then some b.closeLeaf
    else some { b.settle with leaf := .fenced f ((l.dropColumns f.indent).text :: lines) }
  | .indented lines =>
    if l.isIndented then
      some { b.settle with leaf := .indented ((l.dropColumns 4).text :: lines), leafBlank := l.isBlank }
    else if l.isBlank then some { b.settle with leaf := .indented ([] :: lines), leafBlank := true }
    else none
  | .html kind lines =>
    if kind.endsAtBlank && l.isBlank then none
    else
      let b := { b.settle with leaf := .html kind (l.text :: lines), leafBlank := l.isBlank }
      some (if kind.endsIn l.content then b.closeLeaf else b)
  | _ => none

/-! ### Opening blocks -/

/-- The last closed block, if it is a paragraph, and the builder without it. -/
def popParagraph? (b : Builder) : Option (Text × Builder) :=
  match b.inner.body with
  | ⟨.paragraph t, _, _⟩ :: body => some (t, b.mapInner ({ · with body := body }))
  | _ => none

/-- Whether details can follow here. -/
def hasTerm (b : Builder) : Bool :=
  b.paragraphLines?.isSome || b.popParagraph?.isSome ||
    match b.inner.container with
    | .definitions => true
    | _ => false

/-- Open the list of definitions again that was closed last. -/
def reopenDefinitions (b : Builder) : Builder :=
  match b.inner.container, b.inner.body with
  | .definitions, _ => b
  | _, ⟨.definitions entries, _, _⟩ :: body =>
    let b := b.mapInner ({ · with body := body })
    { b with frames := ⟨.definitions, entries.reverse.map fun e => ⟨e, false, false⟩, false⟩ :: b.frames }
  | _, _ => b.leaveExclusive.openFrame .definitions

/-- Open the details of the term before them. -/
def openDetails (offset : Nat) (b : Builder) : Builder :=
  let b := b.closeLeaf
  match b.popParagraph? with
  | some (t, b) => b.reopenDefinitions.openFrame (.definition (some t) offset)
  | none => b.openFrame (.definition none offset)

def openItem (bullet : Bullet) (b : Builder) : Builder :=
  let b := b.closeLeaf
  let b := match b.inner.container with
    | .list marker _ => if marker = bullet.marker then b else b.leaveExclusive.openFrame (.list bullet.marker bullet.start)
    | _ => b.leaveExclusive.openFrame (.list bullet.marker bullet.start)
  b.openFrame (.item bullet.offset)

/-- A paragraph whose last line and the line after it make the head of a table. -/
def openTable? (lines : List Text) (l : Line) (b : Builder) : Option Builder :=
  match lines with
  | last :: before => do
    let columns ← Table.columns? l.content
    let header ← Table.cells? last
    if header.length = columns.length then
      let b := { b with leaf := .none }
      let b := if before.isEmpty then b else b.addBlock (.paragraph (trim (joined before)))
      some { b.leaveExclusive with leaf := .table columns header [] }
    else none
  | [] => none

/-- What is left of a line, as text. -/
def addRest (e : Extensions) (opened : Bool) (l : Line) (b : Builder) : Builder :=
  if l.isBlank then b.settleBlank opened
  else
    let b := b.settle
    match b.leaf with
    | .paragraph lines =>
      let table := if e.tables && !l.isIndented then b.openTable? lines l else none
      table.getD { b with leaf := .paragraph (l.content :: lines) }
    | .table columns header rows =>
      let cells := (Table.cells? l.content).getD []
      { b with leaf := .table columns header (Table.fit columns.length cells :: rows) }
    | _ => { b.leaveExclusive with leaf := .paragraph [l.content] }

/-- What stands before a line. -/
def context (mayContinue : Bool) (b : Builder) : Start.Context where
  mayContinue := mayContinue
  inParagraph := b.paragraphLines?.isSome
  canUnderline := b.paragraphLines?.any fun lines => !(splitParagraph lines).2.all isWhite
  hasTerm := b.hasTerm

/-- The blocks that start in a line, one in the rest of the other, and last its text. Every start
takes a character of the line, so `n` starts are enough for a line of `n` characters. -/
def openStarts (e : Extensions) : Nat → Bool → Bool → Line → Builder → Builder
  | 0, _, opened, l, b => b.addRest e opened l
  | n + 1, mayContinue, opened, l, b =>
    match Start.of? e (b.context mayContinue) l with
    | none => b.addRest e opened l
    | some (.quote rest) =>
      openStarts e n false true rest (b.closeLeaf.leaveExclusive.openFrame .quote)
    | some (.note name rest) =>
      openStarts e n false true rest (b.closeLeaf.leaveExclusive.openFrame (.note name))
    | some (.details offset rest) => openStarts e n false true rest (b.openDetails offset)
    | some (.item bullet rest) => openStarts e n false true rest (b.openItem bullet)
    | some (.heading level content) => b.closeLeaf.settle.addBlock (.heading level content)
    | some .rule => b.closeLeaf.settle.addBlock .rule
    | some (.underline level) =>
      let (references, rest) := splitParagraph (b.paragraphLines?.getD [])
      let b := { b.settle with leaf := .none, references := b.references ++ references }
      b.addBlock (.heading level (trimEnd rest))
    | some (.fence f) => { b.closeLeaf.settle.leaveExclusive with leaf := .fenced f [] }
    | some (.code rest) => { b.closeLeaf.settle.leaveExclusive with leaf := .indented [rest.text] }
    | some (.html kind) =>
      let b := { b.closeLeaf.settle.leaveExclusive with leaf := .html kind [l.text] }
      if kind.endsIn l.content then b.closeLeaf else b

/-! ### Lines -/

/-- Whether a line goes on with the leaf of a container that it goes on with. -/
def leafGoesOn (b : Builder) (l : Line) : Bool :=
  match b.leaf with
  | .none => true
  | .paragraph _ => !l.isBlank
  | .table _ _ _ => (Table.cells? l.content).isSome
  | _ => false

def addLine (e : Extensions) (b : Builder) (text : Text) : Builder :=
  let (n, l) := matched b.hasLeaf b.frames.reverse ⟨0, text⟩
  let all := n = b.frames.length
  match if all then b.leafTakes? l else none with
  | some b => b
  | none =>
    let kept := if all && b.leafGoesOn l then b else b.keep n
    let mayContinue := b.paragraphLines?.isSome
    match b.paragraphLines?, Start.of? e (kept.context mayContinue) l with
    | some lines, none =>
      if l.isBlank || all then kept.openStarts e l.text.length mayContinue false l
      else { b.settle with leaf := .paragraph (l.text :: lines) }
    | _, _ => kept.openStarts e l.text.length mayContinue false l

/-- The document and the labels that it defines. -/
def finish (b : Builder) : List (Block Text) × References :=
  let b := b.keep 1
  ((b.inner.body.map Child.block).reverse, b.references)

end Builder

/-- The lines of a source, whichever characters end them. A byte order mark at the front is no part
of the source, and null characters are replaced. -/
def sourceLines (s : Text) : List Text :=
  let s := (dropAffix? ['\uFEFF'] s).getD s
  lines ((unified s).map fun c => if c.toNat = 0 then '\uFFFD' else c)
where
  unified : Text → Text
  | '\x0d' :: '\n' :: s => '\n' :: unified s
  | '\x0d' :: s => '\n' :: unified s
  | c :: s => c :: unified s
  | [] => []

/-- The block structure of a source. -/
def blocks (e : Extensions) (s : Text) : List (Block Text) × References :=
  ((sourceLines s).foldl (Builder.addLine e) {}).finish

end Slideshow.Markdown
