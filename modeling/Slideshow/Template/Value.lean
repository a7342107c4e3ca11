import Slideshow.Text.Numeral

/-! # Values of templates

What a template can name: the facts about a deck, down to the slides and the entries of its
outline.
-/
namespace Slideshow.Template
open Text

inductive Value
  | nothing
  | flag (b : Bool)
  | number (n : Int)
  | text (t : Text)
  | list (items : List Value)
  /-- Named fields. -/
  | record (fields : List (Text × Value))

namespace Value

instance : Inhabited Value := ⟨nothing⟩

def option : Option Text → Value
  | none => nothing
  | some t => text t

def texts (ts : List Text) : Value := list (ts.map text)

/-- Nothing, false, zero and whatever is empty count as false. -/
def isTrue : Value → Bool
  | nothing => false
  | flag b => b
  | number n => n ≠ 0
  | text t => !t.isEmpty
  | list items => !items.isEmpty
  | record fields => !fields.isEmpty

mutual

/-- The form in which a value stands on the page. Texts are not escaped. -/
def written : Value → Text
  | nothing => []
  | flag b => if b then "true" else "false"
  | number n => if n < 0 then '-' :: decimal n.natAbs else decimal n.natAbs
  | text t => t
  | list items => "[" ++ List.intercalate ", " (writtenAll items) ++ "]"
  | record _ => "[object]"

def writtenAll : List Value → List Text
  | [] => []
  | v :: vs => v.written :: writtenAll vs

end

mutual

def same : Value → Value → Bool
  | nothing, nothing => true
  | flag a, flag b => a = b
  | number a, number b => a = b
  | text a, text b => a = b
  | list as, list bs => sameItems as bs
  | record as, record bs => sameFields as bs
  | _, _ => false

def sameItems : List Value → List Value → Bool
  | [], [] => true
  | a :: as, b :: bs => a.same b && sameItems as bs
  | _, _ => false

def sameFields : List (Text × Value) → List (Text × Value) → Bool
  | [], [] => true
  | (k, a) :: as, (l, b) :: bs => k = l && a.same b && sameFields as bs
  | _, _ => false

end

def isNumber : Value → Bool
  | number _ => true
  | _ => false

/-- Positions are counted from zero and written without leading zeros. -/
def position? (key : Text) : Option Nat :=
  if key = [] ∨ (key.head? = some '0' ∧ key ≠ ['0']) then none else value? key

/-- A field of a record or an item of a list. -/
def step? (key : Text) : Value → Option Value
  | list items => (position? key).bind (items[·]?)
  | record fields => fields.lookup key
  | _ => none

def walk? (v : Value) (keys : List Text) : Option Value := keys.foldlM (fun v key => v.step? key) v

end Value

end Slideshow.Template
