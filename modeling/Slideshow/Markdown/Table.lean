import Slideshow.Markdown.Block
import Slideshow.Markdown.Line

/-! # Rows of tables

Cells stand between pipes; a pipe behind a backslash belongs to its cell. The second row of a
table is made of dashes, and colons at their ends align the columns.
-/
namespace Slideshow.Markdown.Table
open Text

/-- The parts of a row between its pipes. -/
def parts : Text → List Text
  | [] => [[]]
  | '\\' :: '|' :: s =>
    match parts s with
    | p :: ps => ('|' :: p) :: ps
    | [] => [['|']]
  | '|' :: s => [] :: parts s
  | c :: s =>
    match parts s with
    | p :: ps => (c :: p) :: ps
    | [] => [[c]]

/-- Without the last part, if it is blank. -/
def dropBlankEnd (ps : List Text) : List Text :=
  if ps.getLast?.any (·.all isWhite) then ps.dropLast else ps

/-- The cells of a row. There is at least one. -/
def cells? (s : Text) : Option (List Text) :=
  let inner := match s with
    | '|' :: s => s
    | s => s
  match (dropBlankEnd (parts inner)).map trim with
  | [] => none
  | cells => some cells

def isDelimiter (cell : Text) : Bool :=
  let dashes := match cell with
    | ':' :: s => s
    | s => s
  let rest := dashes.dropWhile (· = '-')
  dashes.head? = some '-' && (rest = [] || rest = [':'])

def alignment (cell : Text) : Alignment :=
  if cell.head? = some ':' then (if cell.getLast? = some ':' then .center else .left)
  else if cell.getLast? = some ':' then .right
  else .none

/-- The columns that a row of dashes makes. -/
def columns? (s : Text) : Option (List Alignment) :=
  (cells? s).bind fun cells => if cells.all isDelimiter then some (cells.map alignment) else none

/-- The cells of a row in a table, as many as it has columns. -/
def fit (columns : Nat) (cells : List Text) : List Text :=
  (cells ++ List.replicate columns []).take columns

end Slideshow.Markdown.Table
