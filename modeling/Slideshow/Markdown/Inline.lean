import Slideshow.Text.Basic

/-! # Inline content -/
namespace Slideshow.Markdown

inductive Style
  | emphasis
  | strong
  | deleted
  | superscript
  deriving DecidableEq, Repr

inductive Inline
  | text (t : Text)
  | softBreak
  | hardBreak
  | code (t : Text)
  /-- Markup that is passed on as it stands. -/
  | raw (t : Text)
  | styled (style : Style) (body : List Inline)
  | link (url title : Text) (body : List Inline)
  | image (url title : Text) (body : List Inline)
  /-- A reference to a note by its name. -/
  | note (name : Text)
  /-- A reference to the note with a number, and how often the note was referred to before. -/
  | noteMark (name : Text) (number earlier : Nat)
  deriving Repr

namespace Inline

instance : Inhabited Inline := ⟨softBreak⟩

/-- Adjacent texts joined. -/
def joined : List Inline → List Inline
  | [] => []
  | .text t :: rest =>
    match joined rest with
    | .text u :: more => .text (t ++ u) :: more
    | more => .text t :: more
  | i :: rest => i :: joined rest

mutual

/-- The text that a reader sees. -/
def visible : Inline → Text
  | text t => t
  | code t => t
  | softBreak => [' ']
  | hardBreak => [' ']
  | raw _ => []
  | styled _ body => visibleAll body
  | link _ _ body => visibleAll body
  | image _ _ body => visibleAll body
  | note _ => []
  | noteMark _ _ _ => []

def visibleAll : List Inline → Text
  | [] => []
  | i :: rest => i.visible ++ visibleAll rest

end

mutual

/-- What stands for inline content inside an attribute: its text, with markup as it is written. -/
def alternative : Inline → Text
  | text t => t
  | code t => t
  | raw t => t
  | softBreak => [' ']
  | hardBreak => [' ']
  | styled _ body => alternativeAll body
  | link _ _ body => alternativeAll body
  | image _ _ body => alternativeAll body
  | note _ => []
  | noteMark _ _ _ => []

def alternativeAll : List Inline → Text
  | [] => []
  | i :: rest => i.alternative ++ alternativeAll rest

end

end Inline

end Slideshow.Markdown
