import Slideshow.Markdown.Line
import Slideshow.Text.Case
import Slideshow.Text.Entity

/-! # Links and what they refer to

A link gives its target at once or by a label that is defined somewhere in the document. Labels
are compared without regard to case and to the amount of white space.
-/
namespace Slideshow.Markdown
open Text

/-- Punctuation of ASCII, which a backslash can escape. -/
def isMark (c : Char) : Bool :=
  within [(33, 47), (58, 64), (91, 96), (123, 126)] c

/-- The text without the backslashes that escape a mark. -/
def unescaped : Text → Text
  | '\\' :: c :: s => if isMark c then c :: unescaped s else '\\' :: unescaped (c :: s)
  | c :: s => c :: unescaped s
  | [] => []

/-- What a target, a title or the name of a language stands for. -/
def plain (s : Text) : Text := unescaped (decoded s)

/-! ### Parts of links -/

/-- A target between angle brackets, behind the first one. -/
def bracketed? : Text → Option (Text × Text)
  | [] => none
  | '>' :: s => some ([], s)
  | '\\' :: c :: s => (bracketed? s).map fun p => ('\\' :: c :: p.1, p.2)
  | c :: s =>
    if c = '\n' ∨ c = '<' then none else (bracketed? s).map fun p => (c :: p.1, p.2)

/-- A target without brackets, in which parentheses are balanced. Something must follow it. -/
def bare? (depth : Nat) : Text → Option (Text × Text)
  | [] => none
  | c :: s =>
    if c = '\\' ∧ s.head?.any isMark then
      match s with
      | d :: s => (bare? depth s).map fun p => (c :: d :: p.1, p.2)
      | [] => none
    else if c = '(' then
      if depth < 32 then (bare? (depth + 1) s).map fun p => (c :: p.1, p.2) else none
    else if c = ')' ∧ 0 < depth then (bare? (depth - 1) s).map fun p => (c :: p.1, p.2)
    else if c = ')' ∨ c.toNat ≤ 32 ∨ c.toNat = 127 then
      if depth = 0 then some ([], c :: s) else none
    else (bare? depth s).map fun p => (c :: p.1, p.2)

/-- The target at the front of a text. Something must follow it. -/
def target? (s : Text) : Option (Text × Text) :=
  match s with
  | '<' :: s => (bracketed? s).filter fun p => !p.2.isEmpty
  | s => bare? 0 s

/-- Text up to a closing mark that is not escaped. -/
def quotedUpTo? (stop : Char → Bool) (close : Char) : Text → Option (Text × Text)
  | [] => none
  | c :: s =>
    if c = close then some ([], s)
    else if c = '\\' ∧ s.head?.any isMark then
      match s with
      | d :: s => (quotedUpTo? stop close s).map fun p => (c :: d :: p.1, p.2)
      | [] => none
    else if stop c then none
    else (quotedUpTo? stop close s).map fun p => (c :: p.1, p.2)

/-- The title at the front of a text, without its quotes or parentheses. -/
def title? (s : Text) : Option (Text × Text) :=
  match s with
  | '"' :: s => quotedUpTo? (fun _ => false) '"' s
  | '\'' :: s => quotedUpTo? (fun _ => false) '\'' s
  | '(' :: s => quotedUpTo? (· = '(') ')' s
  | _ => none

/-- A label between square brackets, which holds none itself. -/
def label? (s : Text) : Option (Text × Text) :=
  match s with
  | '[' :: s => (inner s).filter fun p => p.1.length ≤ 1000
  | _ => none
where
  inner : Text → Option (Text × Text)
  | [] => none
  | ']' :: s => some ([], s)
  | '[' :: _ => none
  | '\\' :: c :: s =>
    if isMark c then (inner s).map fun p => ('\\' :: c :: p.1, p.2)
    else (inner (c :: s)).map fun p => ('\\' :: p.1, p.2)
  | c :: s => (inner s).map fun p => (c :: p.1, p.2)

/-- The form of a label in which labels are compared. -/
def normalLabel (s : Text) : Text := List.intercalate [' '] (words (s.flatMap smallChar))

/-! ### References -/

structure Target where
  url : Text
  title : Text
  deriving DecidableEq, Repr

/-- Defined labels, in the form in which they are compared. -/
abbrev References := List (Text × Target)

namespace References

/-- The first definition of a label counts. -/
def find? (r : References) (label : Text) : Option Target := r.lookup (normalLabel label)

/-- White space with at most one line break. -/
def dropGap (s : Text) : Text :=
  match s.dropWhile isSpace with
  | '\n' :: s => s.dropWhile isSpace
  | s => s

/-- The text behind the end of a line. -/
def lineEnd? (s : Text) : Option Text :=
  match s.dropWhile isSpace with
  | [] => some []
  | '\n' :: s => some s
  | _ => none

/-- A definition at the front of a text. A title that is not alone on its line belongs to the text
behind the definition, if the target is. -/
def definition? (s : Text) : Option ((Text × Target) × Text) :=
  (label? s).bind fun (label, s) =>
    if isAllBlank label then none
    else match s with
      | ':' :: s => (target? (dropGap s)).bind fun (url, afterUrl) =>
        let s := dropGap afterUrl
        let titled : Option (Text × Text) :=
          if s.length = afterUrl.length then none
          else (title? s).bind fun (title, s) => (lineEnd? s).map (title, ·)
        let defined (title rest : Text) := ((normalLabel label, Target.mk (plain (trim url)) (plain title)), rest)
        match titled with
        | some (title, rest) => some (defined title rest)
        | none => (lineEnd? afterUrl).map (defined [])
      | _ => none

/-- The definitions at the front of a paragraph, and the rest of it. There are at most as many as
it has characters. -/
def split (s : Text) : References × Text :=
  go s.length s
where
  go : Nat → Text → References × Text
  | 0, s => ([], s)
  | n + 1, s =>
    match definition? s with
    | some (d, rest) => let (ds, rest) := go n rest; (d :: ds, rest)
    | none => ([], s)

end References

end Slideshow.Markdown
