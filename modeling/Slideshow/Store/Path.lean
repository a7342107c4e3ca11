import Slideshow.Text.Basic

/-! # Paths

A path is a text whose names stand between slashes. Empty names and single dots say nothing, apart
from a dot at the very front; a slash at the front makes the path absolute.
-/
namespace Slideshow.Path
open Text

def isAbsolute (p : Text) : Bool := p.head? = some '/'

/-- A reversed path without the slashes and dots that say nothing at its end. -/
def settle : Text → Text
  | '/' :: rest => if rest = [] then ['/'] else settle rest
  | '.' :: '/' :: rest => if rest = [] then ['/'] else settle rest
  | p => p

/-- The last name of a path that is not the root. -/
def lastName? (p : Text) : Option Text :=
  let p := settle p.reverse
  if p = [] ∨ p = ['/'] then none else some (p.takeWhile (· ≠ '/')).reverse

/-- The path of the directory that holds what a path names. -/
def parent? (p : Text) : Option Text :=
  let p := settle p.reverse
  if p = [] ∨ p = ['/'] then none else some (settle (p.dropWhile (· ≠ '/'))).reverse

def fileName? (p : Text) : Option Text :=
  (lastName? p).filter fun n => n ≠ (".." : Text) && n ≠ ("." : Text)

/-- What follows the last dot of the file name, if something stands before the dot. -/
def extension? (p : Text) : Option Text := do
  let name := (← fileName? p).reverse
  match name.dropWhile (· ≠ '.') with
  | '.' :: _ :: _ => some (name.takeWhile (· ≠ '.')).reverse
  | _ => none

/-- A path taken from a directory; an absolute path stays as it is. -/
def join (directory p : Text) : Text :=
  if isAbsolute p then p
  else if directory = [] || directory.getLast? = some '/' then directory ++ p
  else directory ++ ['/'] ++ p

/-- The absolute path of a sequence of names. -/
def ofNames (names : List Text) : Text :=
  if names = [] then ['/'] else names.flatMap ('/' :: ·)

end Slideshow.Path
