import Slideshow.Encoding.Utf8
import Slideshow.Markdown.Extension
import Slideshow.Markdown.Note
import Slideshow.Text.Escaped
import Slideshow.Text.Word

/-! # Documents as HTML

Every block starts on a line of its own, but a paragraph of a tight list goes on with the line.
-/
namespace Slideshow.Markdown
open Text

/-! ### Inline content -/

/-- Characters that stand for themselves in a target. -/
def isTargetPart (c : Char) : Bool :=
  c.isAlphanum || c ∈ ("-_.+!*(),%#@?=;:/$~" : Text)

/-- A target as an attribute: bytes that may not stand there are written by their numbers. -/
def escapedTarget (s : Text) : Text :=
  s.flatMap fun c =>
    if isTargetPart c then [c]
    else if c = '&' then "&amp;"
    else if c = '\'' then "&#x27;"
    else (String.utf8EncodeChar c).flatMap fun b =>
      ['%', (Nat.digitChar (b.toNat / 16)).toUpper, (Nat.digitChar (b.toNat % 16)).toUpper]

def titleAttribute (title : Text) : Text :=
  if title = [] then [] else " title=\"" ++ escapedAttribute title ++ "\""

def Style.tag : Style → Text
  | emphasis => "em"
  | strong => "strong"
  | deleted => "del"
  | superscript => "sup"

def element (tag inside : Text) : Text := "<" ++ tag ++ ">" ++ inside ++ "</" ++ tag ++ ">"

namespace Inline

mutual

def html : Inline → Text
  | text t => escapedAttribute t
  | softBreak => "\n"
  | hardBreak => "<br />\n"
  | code t => element "code" (escapedAttribute t)
  | raw t => t
  | styled style body => element style.tag (htmlAll body)
  | link url title body =>
    "<a href=\"" ++ escapedTarget url ++ "\"" ++ titleAttribute title ++ ">" ++ htmlAll body ++ "</a>"
  | image url title body =>
    "<img src=\"" ++ escapedTarget url ++ "\" alt=\"" ++ escapedAttribute (alternativeAll body)
      ++ "\"" ++ titleAttribute title ++ " />"
  | note _ => []
  | noteMark name number earlier =>
    let suffix : Text := if earlier = 0 then [] else "-" ++ decimal (earlier + 1)
    "<sup class=\"footnote-ref\"><a href=\"#fn-" ++ escapedTarget name ++ "\" id=\"fnref-"
      ++ escapedTarget (name ++ suffix) ++ "\" data-footnote-ref>" ++ decimal number ++ "</a></sup>"

def htmlAll : List Inline → Text
  | [] => []
  | i :: rest => i.html ++ htmlAll rest

end

end Inline

/-! ### Anchors -/

/-- Letters, marks, numbers and connectors of any script, the space and the hyphen. -/
def isAnchorPart (c : Char) : Bool :=
  (isWord c && !within [(0x200C, 0x200D), (0x24B6, 0x24E9), (0x1F130, 0x1F149),
      (0x1F150, 0x1F169), (0x1F170, 0x1F189)] c)
    || within wideNumbers c || c = ' ' || c = '-'

/-- The anchor of a heading, before it is told from equal ones. -/
def anchorBase (heading : Text) : Text :=
  ((lower heading).filter isAnchorPart).map fun c => if c = ' ' then '-' else c

/-- The first of the numbered anchors that is not used. Of as many candidates as there are used
ones and one more, one is free. -/
def freeAnchor (used : List Text) (base : Text) : Text :=
  ((List.range (used.length + 1)).map fun n =>
    if n = 0 then base else base ++ "-" ++ decimal n).find? (· ∉ used) |>.getD base

/-- The anchors that are used so far. -/
abbrev Anchors := List Text

def newAnchor (heading : Text) : StateM Anchors Text := fun used =>
  let anchor := freeAnchor used (anchorBase heading)
  (anchor, anchor :: used)

/-! ### Blocks -/

def alignAttribute : Alignment → Text
  | .none => []
  | .left => " align=\"left\""
  | .right => " align=\"right\""
  | .center => " align=\"center\""

/-- The cells of a row, each on a line. -/
def cellsHtml (tag : Text) (columns : List Alignment) (cells : List (List Inline)) : Text :=
  ((columns.zip cells).map fun p =>
    "<" ++ tag ++ alignAttribute p.1 ++ ">" ++ Inline.htmlAll p.2 ++ "</" ++ tag ++ ">\n").flatten

def rowHtml (tag : Text) (columns : List Alignment) (cells : List (List Inline)) : Text :=
  "<tr>\n" ++ cellsHtml tag columns cells ++ "</tr>\n"

/-- The rows below the head of a table. -/
def bodyRows (columns : List Alignment) (rows : List (List (List Inline))) : Text :=
  if rows.isEmpty then [] else
    "<tbody>\n" ++ (rows.map (rowHtml "td" columns)).flatten ++ "</tbody>\n"

def tableHtml (columns : List Alignment) (header : List (List Inline))
    (rows : List (List (List Inline))) : Text :=
  "<table>\n<thead>\n" ++ rowHtml "th" columns header ++ "</thead>\n" ++ bodyRows columns rows
    ++ "</table>\n"

def lineEnd (unended : Bool) : Text := if unended then "\n" else []

def codeHtml (info literal : Text) : Text :=
  let language := info.takeWhile (!isWhite ·)
  let classes : Text := if info = [] then [] else
    " class=\"" ++ escapedAttribute ("language-" ++ language) ++ "\""
  "<pre><code" ++ classes ++ ">" ++ escapedAttribute literal ++ "</code></pre>\n"

/-- The mark of a task at the start of an item: whether it is done, and the text behind it. -/
def taskMark? (t : Text) : Option (Bool × Text) :=
  match t.dropWhile isWhite with
  | '[' :: c :: ']' :: rest =>
    if (c = ' ' ∨ c = 'x' ∨ c = 'X') ∧ rest.head?.all isWhite then some (c ≠ ' ', rest.drop 1)
    else none
  | _ => none

def checkbox (done : Bool) : Text :=
  "<input type=\"checkbox\" " ++ (if done then ("checked=\"\" " : Text) else []) ++ "disabled=\"\" /> "

/-- The content of an item without the mark of a task, and the box that stands for it. -/
def splitTask (tasks : Bool) (content : List Inline) : Text × List Inline :=
  match content with
  | .text t :: rest =>
    match if tasks then taskMark? t else none with
    | some (done, t) => (checkbox done, .text t :: rest)
    | none => ([], content)
  | _ => ([], content)

namespace Block

mutual

/-- A block on lines of its own. `tight` tells whether its paragraphs stand in a tight list. -/
def html (e : Extensions) : Block (List Inline) → StateM Anchors Text
  | paragraph c => return "<p>" ++ Inline.htmlAll c ++ "</p>\n"
  | heading level c => do
    let anchor ← if e.anchors then (do
        let a ← newAnchor (Inline.visibleAll c)
        return "<a href=\"#" ++ a ++ "\" aria-hidden=\"true\" class=\"anchor\" id=\"" ++ a ++ "\"></a>")
      else pure []
    let tag : Text := 'h' :: decimal level
    return element tag (anchor ++ Inline.htmlAll c) ++ "\n"
  | rule => return "<hr />\n"
  | code info literal => return codeHtml info literal
  | raw literal => return literal
  | quote body => return "<blockquote>\n" ++ (← bodyHtml e false false body) ++ "</blockquote>\n"
  | list none tight items => return "<ul>\n" ++ (← itemsHtml e tight items) ++ "</ul>\n"
  | list (some n) tight items => do
    let start : Text := if n = 1 then [] else " start=\"" ++ decimal n ++ "\""
    return "<ol" ++ start ++ ">\n" ++ (← itemsHtml e tight items) ++ "</ol>\n"
  | item body => bodyHtml e false false body
  | table columns header rows => return tableHtml columns header rows
  | definitions entries => return "<dl>" ++ (← bodyHtml e false false entries) ++ "</dl>\n"
  | definition term body => do
    let head : Text := match term with
      | some c => element "dt" (Inline.htmlAll c) ++ "\n"
      | none => []
    return head ++ "<dd>" ++ (← bodyHtml e false true body) ++ "</dd>\n"
  | note _ _ => return []

/-- The blocks of a container. `open` tells whether its line is yet to be ended. -/
def bodyHtml (e : Extensions) (tight unended : Bool) : List (Block (List Inline)) → StateM Anchors Text
  | [] => pure []
  | note _ _ :: bs => bodyHtml e tight unended bs
  | paragraph c :: bs => do
    if tight then
      return Inline.htmlAll c ++ (← bodyHtml e tight true bs)
    else
      return lineEnd unended ++ "<p>" ++ Inline.htmlAll c ++ "</p>\n"
        ++ (← bodyHtml e tight false bs)
  | b :: bs => do
    let h ← b.html e
    return lineEnd unended ++ h ++ (← bodyHtml e tight false bs)

def itemsHtml (e : Extensions) (tight : Bool) : List (Block (List Inline)) → StateM Anchors Text
  | [] => pure []
  | item (paragraph c :: body) :: items => do
    let (box, c) := splitTask e.tasks c
    let first : Text := if tight then Inline.htmlAll c else "\n<p>" ++ Inline.htmlAll c ++ "</p>\n"
    let rest ← bodyHtml e tight tight body
    return "<li>" ++ box ++ first ++ rest ++ "</li>\n" ++ (← itemsHtml e tight items)
  | item body :: items => do
    let inside ← bodyHtml e tight true body
    return "<li>" ++ inside ++ "</li>\n" ++ (← itemsHtml e tight items)
  | b :: items => do
    let h ← b.html e
    return h ++ (← itemsHtml e tight items)

end

end Block

/-! ### Notes -/

/-- The links from a note back to the references to it. -/
def backReferences (number : Nat) (n : Note) : Text :=
  List.intercalate [' '] ((List.range n.references).map fun k =>
    let suffix : Text := if k = 0 then [] else "-" ++ decimal (k + 1)
    let mark : Text := if k = 0 then [] else
      "<sup class=\"footnote-ref\">" ++ decimal (k + 1) ++ "</sup>"
    "<a href=\"#fnref-" ++ escapedTarget n.name ++ suffix
      ++ "\" class=\"footnote-backref\" data-footnote-backref data-footnote-backref-idx=\""
      ++ decimal number ++ suffix ++ "\" aria-label=\"Back to reference " ++ decimal number ++ suffix
      ++ "\">↩" ++ mark ++ "</a>")

/-- A note. The links stand at the end of its last paragraph, or else behind it. -/
def Note.html (e : Extensions) (number : Nat) (n : Note) : StateM Anchors Text := do
  let links := backReferences number n
  let (body, ending) : List (Block (List Inline)) × Text := match n.body.getLast? with
    | some (.paragraph c) =>
      (n.body.dropLast ++ [.paragraph (c ++ [.text " ", .raw links])], [])
    | _ => (n.body, links ++ "\n")
  let inside ← Block.bodyHtml e false true body
  return "<li id=\"fn-" ++ escapedTarget n.name ++ "\">" ++ inside ++ ending ++ "</li>\n"

def notesHtml (e : Extensions) (number : Nat) : List Note → StateM Anchors Text
  | [] => pure []
  | n :: ns => do
    let h ← n.html e number
    return h ++ (← notesHtml e (number + 1) ns)

/-- A document with its notes at the end. -/
def documentHtml (e : Extensions) (body : List (Block (List Inline))) (notes : List Note) : Text :=
  let action : StateM Anchors Text := do
    let main ← Block.bodyHtml e false false body
    let inside ← notesHtml e 1 notes
    return main ++ (if notes.isEmpty then [] else
      ("<section class=\"footnotes\" data-footnotes>\n<ol>\n" ++ inside ++ "</ol>\n</section>\n" : Text))
  (action.run []).1

end Slideshow.Markdown
