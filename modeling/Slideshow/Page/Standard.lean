import Slideshow.Page.Basic

/-! # The built-in page

The outline of a deck above its slides. It goes three levels deep.
-/
namespace Slideshow.Page
open Template (Expr Path)
open Template.Node (text output choice loop)

/-- The fields of a name. -/
def field (root : Text) (keys : List Text) : Expr := .path ⟨root, keys⟩

/-- Tags, one on a line. -/
def tagLines (name : Text) : Template.Node :=
  loop "tag" (field name []) [output (field "tag" []), text "\n"] []

def opening : Template := [
  text ("<!DOCTYPE html>\n<html lang=\"en\">\n<head>\n<meta charset=\"UTF-8\">\n"
    ++ "<meta name=\"viewport\" content=\"width=device-width, initial-scale=1.0, "
    ++ "maximum-scale=1.0, user-scalable=0\">\n"
    ++ "<meta name=\"generator\" content=\"slidedeck\">\n<title>"),
  choice (field "head_title" []) [output (.filtered (field "head_title" []) "striptags")]
    [text "Untitled Presentation"],
  text "</title>\n",
  tagLines "css",
  tagLines "user_css",
  choice (field "math_output" [])
    [text ("<script src=\"https://cdn.jsdelivr.net/npm/mathjax@3/es5/tex-mml-chtml.js\">"
      ++ "</script>\n")] [],
  text "</head>\n<body>\n"]

/-- The item of an outline entry: a link to its slide, and what stands below it. -/
def entryItem (name : Text) (below : Template) : Template :=
  [text "<li><a href=\"#slide-", output (field name ["number"]), text "\">",
    output (field name ["title"]), text "</a>"] ++ below ++ [text "</li>\n"]

/-- The list of the entries below an entry, if there are any. -/
def entriesBelow (parent name : Text) (item : Template) : Template :=
  [choice (field parent ["children"])
    [text "\n<ul>\n", loop name (field parent ["children"]) item [], text "</ul>\n"] []]

def navigation : Template := [
  text "<nav id=\"toc\" class=\"hidden\">\n<h2>Table of Contents</h2>\n<ul>\n",
  loop "section" (field "toc" []) (entryItem "section"
    (entriesBelow "section" "sub" (entryItem "sub"
      (entriesBelow "sub" "leaf" (entryItem "leaf" []))))) [],
  text "</ul>\n</nav>\n"]

def slideSection : Template := [
  text "<section class=\"slide",
  loop "class" (field "slide" ["classes"]) [text " ", output (field "class" [])] [],
  text "\" id=\"slide-",
  output (field "slide" ["number"]),
  text "\">\n",
  choice (field "slide" ["header"])
    [text "<header>", output (field "slide" ["header"]), text "</header>\n"] [],
  text "<div class=\"content\">\n",
  output (field "slide" ["content"]),
  text "\n</div>\n",
  choice (field "slide" ["presenter_notes"])
    [text "<aside class=\"presenter-notes\">\n", output (field "slide" ["presenter_notes"]),
      text "\n</aside>\n"] [],
  text "<footer><span class=\"slide-number\">",
  output (field "slide" ["number"]),
  text "/",
  output (field "num_slides" []),
  text "</span></footer>\n</section>\n"]

def closing : Template := [tagLines "js", tagLines "user_js", text "</body>\n</html>\n"]

def standard : Template :=
  opening ++ navigation
    ++ [text "<div class=\"slides\">\n", loop "slide" (field "slides" []) slideSection [],
      text "</div>\n"]
    ++ closing

/-- The text of a page in a given template, or in the built-in one. -/
def render (template : Option Text) (p : Page) : Except Failure Text :=
  match template with
  | none => p.fill standard
  | some s => match Template.read? s with
    | some t => p.fill t
    | none => .error (.template .parse)

end Slideshow.Page
