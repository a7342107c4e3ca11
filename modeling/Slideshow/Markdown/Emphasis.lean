import Slideshow.Markdown.Inline
import Slideshow.Text.Blank
import Slideshow.Text.Punctuation

/-! # Emphasis

A run of equal marks can open or close emphasis, depending on the characters around it. Runs are
matched from the left: a closing run looks for the nearest opening run of the same mark, and the
runs between the two stay text.
-/
namespace Slideshow.Markdown
open Text

structure Run where
  mark : Char
  length : Nat
  canOpen : Bool
  canClose : Bool
  deriving DecidableEq

namespace Run

/-- A run between two characters. A run of underscores works at the edges of words only. -/
def between (before after mark : Char) (length : Nat) : Run :=
  let left := !isBlank after && (!isPunctuation after || isBlank before || isPunctuation before)
  let right := !isBlank before && (!isPunctuation before || isBlank after || isPunctuation after)
  if mark = '_' then
    ⟨mark, length, left && (!right || isPunctuation before), right && (!left || isPunctuation after)⟩
  else ⟨mark, length, left, right⟩

/-- Whether a run closes what another one opened. Runs that could do both must not add up to a
multiple of three, unless each is one. -/
def closes (opener closer : Run) : Bool :=
  opener.canOpen && opener.mark = closer.mark
    && !((closer.canOpen || opener.canClose) && (opener.length + closer.length) % 3 = 0
      && !(opener.length % 3 = 0 && closer.length % 3 = 0))

/-- What a pair of marks makes of the content between them. -/
def style (mark : Char) (used : Nat) : Style :=
  if mark = '~' then .deleted
  else if mark = '^' then .superscript
  else if used = 1 then .emphasis
  else .strong

end Run

/-- Inline content before emphasis is found. -/
inductive Element
  | node (i : Inline)
  | run (r : Run)

/-- An open run: the marks of it that are left and the content behind it, newest first. -/
structure Opener where
  run : Run
  left : Nat
  body : List Inline := []

/-- Content with the runs that are open, newest first. -/
structure Emphasis where
  base : List Inline := []
  openers : List Opener := []
  /-- No further run is looked at. -/
  ended : Bool := false

namespace Emphasis

def marks (mark : Char) (n : Nat) : List Inline :=
  if n = 0 then [] else [.text (List.replicate n mark)]

/-- Content behind the last open run, newest first. -/
def push (content : List Inline) (e : Emphasis) : Emphasis :=
  match e.openers with
  | o :: outer => { e with openers := { o with body := content ++ o.body } :: outer }
  | [] => { e with base := content ++ e.base }

/-- The content of open runs that stay text, newest first. -/
def flatten (os : List Opener) : List Inline := os.flatMap fun o => o.body ++ marks o.run.mark o.left

/-- Match a closing run with `left` marks. -/
def close (r : Run) (left : Nat) (e : Emphasis) : Emphasis :=
  let between := e.openers.takeWhile (!Run.closes ·.run r)
  match left, e.openers.dropWhile (!Run.closes ·.run r) with
  | n + 1, o :: outer =>
    let used := if 2 ≤ o.left ∧ 2 ≤ n + 1 then 2 else 1
    if r.mark = '~' ∧ (o.left ≠ n + 1 ∨ used < o.left) then
      { (e.push (marks r.mark (n + 1))) with ended := true }
    else
      let body := Inline.joined (flatten between ++ o.body).reverse
      let node := Inline.styled (Run.style r.mark used) body
      let rest := { e with openers := outer }
      let rest := if o.left ≤ used then rest.push [node]
        else { rest with openers := ⟨o.run, o.left - used, [node]⟩ :: outer }
      close r (n + 1 - used) rest
  | left, _ =>
    if left = 0 then e
    else if r.canOpen then { e with openers := ⟨r, left, []⟩ :: e.openers }
    else e.push (marks r.mark left)
termination_by left
decreasing_by
  have : used = 1 ∨ used = 2 := by
    simp only [used]
    split <;> simp
  omega

def add (e : Emphasis) : Element → Emphasis
  | .node i => e.push [i]
  | .run r =>
    if e.ended then e.push (marks r.mark r.length)
    else if r.canClose then e.close r r.length
    else if r.canOpen then { e with openers := ⟨r, r.length, []⟩ :: e.openers }
    else e.push (marks r.mark r.length)

def finish (e : Emphasis) : List Inline := Inline.joined (flatten e.openers ++ e.base).reverse

end Emphasis

/-- Content with its emphasis found. -/
def emphasized (es : List Element) : List Inline := (es.foldl Emphasis.add {}).finish

end Slideshow.Markdown
