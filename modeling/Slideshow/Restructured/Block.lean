import Slideshow.Restructured.Span
import Slideshow.Text.Numeral

/-! # Blocks of reStructuredText

A document is a list of blocks. Section titles are flat: a title carries the rank of its style
among the styles of the document, and the sixth HTML level stands for all deeper ranks.
-/
namespace Slideshow.Restructured
open Text

inductive Block
  | title (rank : Nat) (text : Text)
  | paragraph (text : Text)
  | transition
  | literal (lines : List Text)
  | quote (body : List Block)
  | list (ordered : Bool) (items : List (List Block))
  | image (target alternative : Text)
  | code (language : Text) (lines : List Text)
  | admonition (kind : Text) (body : List Block)
  | container (name : Text) (body : List Block)
  deriving Repr

/-- The HTML level of the titles of a rank. -/
def levelOfRank (rank : Nat) : Nat := min rank 6

/-- The first letter of an ASCII word as a capital. -/
def capitalized : Text → Text
  | [] => []
  | c :: s => c.toUpper :: s

/-- The class that names the language of a code block. -/
def languageClass (language : Text) : Text :=
  if language = [] then [] else " class=\"language-" ++ escapedAttribute language ++ "\""

/-- The HTML of a list item, without the tags around it when it is one paragraph. That it is one
paragraph is seen by the tags in the text alone. -/
def unwrapped (body : Text) : Text :=
  let trimmed := trimRight body
  match dropAffix? "<p>" trimmed >>= dropEnding? "</p>" with
  | some inner => if occursIn "<p>" inner then trimmed else inner
  | none => trimmed

mutual

def Block.html : Block → Text
  | .title rank text =>
    let level := Text.decimal (levelOfRank rank)
    "<h" ++ level ++ ">" ++ inlineHtml text ++ "</h" ++ level ++ ">\n"
  | .paragraph text => "<p>" ++ inlineHtml text ++ "</p>\n"
  | .transition => "<hr />\n"
  | .literal lines => "<pre class=\"literal-block\">" ++ escaped (unlines lines) ++ "</pre>\n"
  | .quote body => "<blockquote>\n" ++ Block.htmlAll body ++ "</blockquote>\n"
  | .list true items => "<ol>\n" ++ Block.htmlItems items ++ "</ol>\n"
  | .list false items => "<ul>\n" ++ Block.htmlItems items ++ "</ul>\n"
  | .image target alternative =>
    "<img src=\"" ++ escapedAttribute target ++ "\" alt=\"" ++ escapedAttribute alternative
      ++ "\" />\n"
  | .code language lines =>
    "<pre><code" ++ languageClass language ++ ">" ++ escaped (unlines lines)
      ++ "\n</code></pre>\n"
  | .admonition kind body =>
    "<div class=\"admonition " ++ kind ++ "\">\n<p class=\"admonition-title\">"
      ++ capitalized kind ++ "</p>\n" ++ Block.htmlAll body ++ "</div>\n"
  | .container name body =>
    "<div class=\"" ++ escapedAttribute name ++ "\">\n" ++ Block.htmlAll body ++ "</div>\n"

def Block.htmlAll : List Block → Text
  | [] => []
  | b :: bs => b.html ++ Block.htmlAll bs

def Block.htmlItems : List (List Block) → Text
  | [] => []
  | body :: items =>
    "<li>" ++ unwrapped (Block.htmlAll body) ++ "</li>\n" ++ Block.htmlItems items

end

end Slideshow.Restructured
