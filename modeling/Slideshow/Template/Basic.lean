import Slideshow.Template.Expr

/-! # Templates

A template is a list of nodes. It is filled in for the values of a page, or nothing comes of it
if one of its expressions has no value.
-/
namespace Slideshow
namespace Template

inductive Node
  | text (t : Text)
  | output (e : Expr)
  | choice (test : Expr) (yes no : List Node)
  /-- The body is repeated for every item; without items the other nodes stand in its place. -/
  | loop (name : Text) (items : Expr) (body ifEmpty : List Node)

/-- The items that a loop runs over. -/
def items? : Value → Option (List Value)
  | .list items => some items
  | .text t => some (t.map fun c => .text [c])
  | _ => none

namespace Node

/-- The scopes of the turns of a loop. -/
def turns (s : Scope) (name : Text) (items : List Value) : List Scope :=
  items.zipIdx.map fun p => { s with turns := ⟨name, p.1, p.2, items.length⟩ :: s.turns }

mutual

def fill? (s : Scope) : Node → Option Text
  | text t => some t
  | output e => (e.value? s).map Value.written
  | choice test yes no => (test.truth? s).bind fun b => if b then fillAll? s yes else fillAll? s no
  | loop name items body ifEmpty => ((items.value? s).bind items?).bind fun vs =>
    if vs.isEmpty then fillAll? s ifEmpty
    else ((turns s name vs).mapM fun s => fillAll? s body).map List.flatten

def fillAll? (s : Scope) : List Node → Option Text
  | [] => some []
  | n :: ns => (fill? s n).bind fun t => (fillAll? s ns).map (t ++ ·)

end

theorem fillAll?_append (s : Scope) (ms ns : List Node) :
    fillAll? s (ms ++ ns) = (fillAll? s ms).bind fun t => (fillAll? s ns).map (t ++ ·) := by
  induction ms with
  | nil => simp [fillAll?]
  | cons m ms ih =>
    simp only [List.cons_append, fillAll?, ih]
    cases fill? s m <;> simp
    cases fillAll? s ms <;> simp
    cases fillAll? s ns <;> simp

end Node

end Template

abbrev Template := List Template.Node

def Template.fill? (t : Template) (values : List (Text × Template.Value)) : Option Text :=
  Template.Node.fillAll? ⟨[], values⟩ t

end Slideshow
