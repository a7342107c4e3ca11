import Slideshow.Markdown.Emphasis
import Slideshow.Markdown.Extension
import Slideshow.Markdown.RawHtml
import Slideshow.Markdown.Reference

/-! # Inline structure

Inline content is read from the left. What stands at a place is read at once, with the number of
further characters that it takes. Square brackets are kept open, innermost first, until one closes
and makes a link of what is between them, or turns out to be text.
-/
namespace Slideshow.Markdown
open Text

/-! ### Code and addresses -/

/-- The text up to the next run of exactly `n` backticks, and the text behind it; `run` counts the
backticks just read. -/
def codeUpTo? (n run : Nat) : Text → Option (Text × Text)
  | [] => if run = n then some ([], []) else none
  | c :: s =>
    if c = '\x60' then (codeUpTo? n (run + 1) s).map fun p => (c :: p.1, p.2)
    else if run = n then some ([], c :: s)
    else (codeUpTo? n 0 s).map fun p => (c :: p.1, p.2)

/-- Line breaks are spaces, and one space goes on each side if there is more than space. -/
def codeText (s : Text) : Text :=
  let s := s.map fun c => if c = '\n' then ' ' else c
  if s.any (· ≠ ' ') ∧ s.head? = some ' ' ∧ s.getLast? = some ' ' then (s.drop 1).dropLast else s

/-- Code behind its first backtick. -/
def code? (s : Text) : Option (Text × Text) :=
  let n := (s.takeWhile (· = '\x60')).length
  (codeUpTo? (n + 1) 0 (s.drop n)).map fun p => (codeText (p.1.take (p.1.length - (n + 1))), p.2)

def isScheme (s : Text) : Bool :=
  s.head?.any Char.isAlpha && 2 ≤ s.length && s.length ≤ 32
    && s.all fun c => c.isAlphanum || c = '.' || c = '+' || c = '-'

def isAddress (s : Text) : Bool :=
  let part (s : Text) : Bool :=
    s.head?.any Char.isAlphanum && s.getLast?.any Char.isAlphanum && s.length ≤ 63
      && s.all fun c => c.isAlphanum || c = '-'
  match cutAt? "@" s with
  | some (name, host) =>
    name ≠ [] && (name.all fun c => c.isAlphanum || c ∈ (".!#$%&'*+/=?^_\x60\x7b|\x7d~-" : Text))
      && (pieces '.' host).all part
  | none => false

/-- A URL or an address of mail behind an angle bracket, as a link. -/
def angleLink? (s : Text) : Option (Inline × Text) :=
  let inside := s.takeWhile (· ≠ '>')
  match s.dropWhile (· ≠ '>') with
  | _ :: rest =>
    let shown := decoded inside
    if (isScheme (inside.takeWhile (· ≠ ':')) && ':' ∈ inside
        && inside.all fun c => 32 < c.toNat && c ≠ '<') then
      some (.link shown [] [.text shown], rest)
    else if isAddress inside then some (.link ("mailto:" ++ shown) [] [.text shown], rest)
    else none
  | [] => none

/-! ### Brackets -/

structure Bracket where
  image : Bool
  /-- Inside another link there is no link. -/
  active : Bool := true
  /-- Another bracket was opened inside. -/
  outer : Bool := false
  /-- The source behind the bracket. -/
  source : Text
  /-- The content so far, newest first. -/
  body : List Element := []

/-- The mark of a bracket that turns out to be text. -/
def Bracket.mark (b : Bracket) : Text := if b.image then "![" else "["

/-- The content that is read, newest first, and the open brackets, innermost first. -/
structure Reader where
  base : List Element := []
  brackets : List Bracket := []

/-- What the reading of inline content depends on. -/
structure Setting where
  extensions : Extensions
  references : References

namespace Reader

def push (content : List Element) (r : Reader) : Reader :=
  match r.brackets with
  | b :: outer => { r with brackets := { b with body := content ++ b.body } :: outer }
  | [] => { r with base := content ++ r.base }

def pushNode (i : Inline) (r : Reader) : Reader := r.push [.node i]

def openBracket (image : Bool) (source : Text) (r : Reader) : Reader :=
  let outer := match r.brackets with
    | b :: bs => { b with outer := true } :: bs
    | [] => []
  { r with brackets := ⟨image, true, false, source, []⟩ :: outer }

/-- The innermost bracket as text. -/
def giveUp (b : Bracket) (outer : List Bracket) (r : Reader) : Reader :=
  { r with brackets := outer }.push
    (Element.node (.text "]") :: (b.body ++ [Element.node (.text b.mark)]))

/-- A target with a title between parentheses, and the text behind it. -/
def inlineTarget? (s : Text) : Option (Target × Text) :=
  match s with
  | '(' :: s => do
    let (url, afterUrl) ← target? (s.dropWhile isWhite)
    let s := afterUrl.dropWhile isWhite
    let (title, s) := if s.length = afterUrl.length then ([], s) else (title? s).getD ([], s)
    let rest ← dropAffix? ")" (s.dropWhile isWhite)
    some (⟨plain (trim url), plain title⟩, rest)
  | _ => none

/-- The label of a reference: one that follows in brackets of its own, or the source between the
brackets if there is none or an empty one. -/
def referenceLabel (b : Bracket) (inside rest : Text) : Option Text × Text :=
  let (label, behind) := match label? rest with
    | some (label, behind) => (some label, behind)
    | none => (none, rest)
  if (label.getD []).all isWhite ∧ !b.outer then (some inside, behind) else (label, behind)

/-- The name of a note that stands between brackets, as it was read. -/
def noteName? (b : Bracket) : Option Text :=
  let part : Element → Text
    | .node (.text t) => t
    | .node (.raw t) => t
    | .run r => List.replicate r.length r.mark
    | .node _ => []
  match b.body.getLast? with
  | some (.node (.text ('^' :: _))) | some (.run ⟨'^', _, _, _⟩) =>
    match (b.body.reverse.map part).flatten with
    | '^' :: c :: name => some (c :: name)
    | _ => none
  | _ => none

/-- Close the innermost bracket before some text. The second part is the number of characters that
the closing takes. -/
def closeBracket (setting : Setting) (rest : Text) (r : Reader) : Reader × Nat :=
  match r.brackets with
  | [] => (r.pushNode (.text "]"), 0)
  | b :: outer =>
    if !b.active then (r.giveUp b outer, 0)
    else
      let inside := b.source.take (b.source.length - rest.length - 1)
      let found : Option (Target × Text) := (inlineTarget? rest).or <|
        let (label, behind) := referenceLabel b inside rest
        (label.bind setting.references.find?).map (·, behind)
      match found with
      | some (target, behind) =>
        let body := emphasized b.body.reverse
        let node := if b.image then Inline.image target.url target.title body
          else .link target.url target.title body
        let outer := if b.image then outer
          else outer.map fun o => if o.image then o else { o with active := false }
        ({ r with brackets := outer }.pushNode node, rest.length - behind.length)
      | none =>
        match if setting.extensions.notes then noteName? b else none with
        | some name =>
          let kept := b.body.filter fun
            | .node (.text _) | .node (.raw _) | .run _ => false
            | .node _ => true
          ({ r with brackets := outer }.push (kept ++ [Element.node (.note name)]), 0)
        | none => (r.giveUp b outer, 0)

/-! ### Reading -/

/-- Characters at which something other than text can start. -/
def isSpecial (e : Extensions) (c : Char) : Bool :=
  c ∈ ['\n', '\x60', '\\', '&', '<', '*', '_', '[', ']', '!']
    || (e.strikethrough && c = '~') || (e.superscript && c = '^')

/-- Whether the marks of a run are read as such here. -/
def isRunMark (e : Extensions) (inBrackets : Bool) (c : Char) : Bool :=
  c = '*' || c = '_' || (e.strikethrough && c = '~') || (e.superscript && !inBrackets && c = '^')

/-- The nearest character that is no tilde, if tildes are marks. -/
def neighbour (e : Extensions) (s : Text) : Char :=
  ((s.dropWhile fun c => e.strikethrough && c = '~').head?).getD '\n'

/-- What stands at a character, between the characters before it, nearest first, and the text
behind it, with the number of characters that it takes of that text. -/
def step (setting : Setting) (before : Text) (c : Char) (rest : Text) (r : Reader) :
    Reader × Nat :=
  let e := setting.extensions
  let taken (behind : Text) : Nat := rest.length - behind.length
  if c = '\n' then
    let node := match before with
      | ' ' :: ' ' :: _ => Inline.hardBreak
      | _ => .softBreak
    (r.pushNode node, (rest.takeWhile isSpace).length)
  else if c = '\x60' then
    match code? rest with
    | some (t, behind) => (r.pushNode (.code t), taken behind)
    | none =>
      let more := rest.takeWhile (· = '\x60')
      (r.pushNode (.text (c :: more)), more.length)
  else if c = '\\' then
    match rest with
    | d :: _ =>
      if isMark d then (r.pushNode (.text [d]), 1)
      else if d = '\n' then (r.pushNode .hardBreak, 1)
      else (r.pushNode (.text [c]), 0)
    | [] => (r.pushNode (.text [c]), 0)
  else if c = '&' then
    match Entity.read? (c :: rest) with
    | some (e, behind) => (r.pushNode (.text e.image), taken behind)
    | none => (r.pushNode (.text [c]), 0)
  else if c = '<' then
    match angleLink? rest with
    | some (link, behind) => (r.pushNode link, taken behind)
    | none =>
      match inlineHtml? (c :: rest) with
      | some (t, behind) => (r.pushNode (.raw t), taken behind)
      | none => (r.pushNode (.text [c]), 0)
  else if isRunMark e (!r.brackets.isEmpty) c then
    let more := (rest.takeWhile (· = c)).length
    let run := Run.between (neighbour e before) (neighbour e (rest.drop more)) c (more + 1)
    (r.push [.run run], more)
  else if c = '[' then (r.openBracket false rest, 0)
  else if c = '!' then
    match rest with
    | '[' :: behind => (r.openBracket true behind, 1)
    | _ => (r.pushNode (.text [c]), 0)
  else if c = ']' then r.closeBracket setting rest
  else
    let more := rest.takeWhile (!isSpecial e ·)
    let t := c :: more
    let t := if (rest.drop more.length).head? = some '\n' then trimEnd t else t
    (r.pushNode (.text t), more.length)

/-- Read a text, except for as many characters as are taken already. -/
def read (setting : Setting) (r : Reader) (before : Text) : Nat → Text → Reader
  | _, [] => r
  | n + 1, c :: rest => read setting r (c :: before) n rest
  | 0, c :: rest =>
    let (r, n) := r.step setting before c rest
    read setting r (c :: before) n rest

/-- All that is read, with the brackets that are still open as text. -/
def finish (r : Reader) : List Element :=
  let unclosed := r.brackets.flatMap fun b : Bracket => b.body ++ [Element.node (.text b.mark)]
  (unclosed ++ r.base).reverse

end Reader

/-- The inline content of a text. -/
def spans (setting : Setting) (s : Text) : List Inline :=
  emphasized (Reader.read setting {} [] 0 (trimEnd s)).finish

end Slideshow.Markdown
