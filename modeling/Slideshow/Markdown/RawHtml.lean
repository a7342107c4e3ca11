import Slideshow.Markdown.Line
import Slideshow.Text.Case

/-! # Raw HTML

HTML in a document is recognised by its first characters, block by block, or tag by tag inside a
paragraph. Nothing is checked against the elements that HTML has.
-/
namespace Slideshow.Markdown
open Text

/-! ### Tags -/

/-- How far a tag is read. -/
inductive TagState
  | name
  /-- Behind white space, where an attribute can start. -/
  | gap
  | attributeName
  /-- Behind an attribute and white space. -/
  | named
  /-- Behind an equals sign. -/
  | equals
  | value
  | quoted (mark : Char)
  /-- Behind a closing quote. -/
  | closed
  | slash
  deriving DecidableEq

def isNameStart (c : Char) : Bool := c.isAlpha || c = '_' || c = ':'

def isNamePart (c : Char) : Bool := isNameStart c || c.isDigit || c = '.' || c = '-'

/-- The place behind white space, a slash or the start of an attribute. -/
def TagState.between (c : Char) : Option TagState :=
  if isWhite c then some .gap
  else if c = '/' then some .slash
  else if isNameStart c then some .attributeName
  else none

namespace TagState

/-- The next state. A closing bracket is no step: it ends the tag where `canEnd` holds. -/
def step? (s : TagState) (c : Char) : Option TagState :=
  match s with
  | name =>
    if c.isAlphanum || c = '-' then some name
    else if isWhite c || c = '/' then between c
    else none
  | gap => between c
  | attributeName =>
    if isNamePart c then some attributeName
    else if c = '=' then some equals
    else if isWhite c then some named
    else if c = '/' then some slash
    else none
  | named =>
    if isWhite c then some named
    else if c = '=' then some equals
    else between c
  | equals =>
    if isWhite c then some equals
    else if c = '"' || c = '\'' then some (quoted c)
    else if c = '=' || c = '<' || c = '>' || c = '\x60' then none
    else some value
  | value =>
    if isWhite c then some gap
    else if c = '"' || c = '\'' || c = '=' || c = '<' || c = '\x60' then none
    else some value
  | quoted mark => if c = mark then some closed else some (quoted mark)
  | closed => if isWhite c || c = '/' then between c else none
  | slash => none

def canEnd : TagState → Bool
  | equals | quoted _ => false
  | _ => true

/-- The rest of a tag up to its closing bracket, and the text behind it. -/
def finish? (s : TagState) : Text → Option (Text × Text)
  | [] => none
  | c :: rest =>
    if c = '>' && s.canEnd then some (['>'], rest)
    else (s.step? c).bind fun s => (finish? s rest).map fun p => (c :: p.1, p.2)

end TagState

/-- An opening tag. -/
def openTag? : Text → Option (Text × Text)
  | '<' :: c :: s =>
    if c.isAlpha then (TagState.name.finish? s).map fun p => ('<' :: c :: p.1, p.2) else none
  | _ => none

/-- A closing tag. -/
def closeTag? : Text → Option (Text × Text)
  | '<' :: '/' :: c :: s =>
    let name := s.takeWhile fun c => c.isAlphanum || c = '-'
    let rest := s.dropWhile fun c => c.isAlphanum || c = '-'
    let gap := rest.takeWhile isWhite
    match rest.dropWhile isWhite with
    | '>' :: rest => if c.isAlpha then some ("</" ++ c :: name ++ gap ++ ">", rest) else none
    | _ => none
  | _ => none

def tag? (s : Text) : Option (Text × Text) := (openTag? s).or (closeTag? s)

/-- Text from one mark to the next occurrence of another. -/
def between? (opening closing s : Text) : Option (Text × Text) :=
  ((dropAffix? opening s).bind (cutAt? closing)).map fun p => (opening ++ p.1 ++ closing, p.2)

/-- A comment may be as short as its opening mark with a closing bracket. -/
def comment? (s : Text) : Option (Text × Text) :=
  let short := fun mark : Text => (dropAffix? mark s).map fun rest => (mark, rest)
  ((short "<!-->").or (short "<!--->")).or (between? "<!--" "-->" s)

/-- A declaration starts with a letter. -/
def declaration? (s : Text) : Option (Text × Text) :=
  ((dropAffix? "<!" s).bind fun rest =>
    if rest.head?.any Char.isAlpha then between? "<!" ">" s else none)

/-- Markup that can stand inside a paragraph. -/
def inlineHtml? (s : Text) : Option (Text × Text) :=
  ((((tag? s).or (comment? s)).or (between? "<?" "?>" s)).or
    (between? "<![CDATA[" "]]>" s)).or (declaration? s)

/-! ### Blocks -/

/-- What a block of HTML starts with, which tells where it ends. -/
inductive RawKind
  /-- A script, a style sheet or text that is laid out already. -/
  | verbatim
  | comment
  | instruction
  | declaration
  | cdata
  /-- A tag of an element that makes a block. -/
  | block
  /-- Any other tag alone on its line. -/
  | tag
  deriving DecidableEq

def verbatimNames : List String := ["script", "pre", "textarea", "style"]

def blockNames : List String := [
  "address", "article", "aside", "base", "basefont", "blockquote", "body", "caption", "center",
  "col", "colgroup", "dd", "details", "dialog", "dir", "div", "dl", "dt", "fieldset",
  "figcaption", "figure", "footer", "form", "frame", "frameset", "h1", "h2", "h3", "h4", "h5",
  "h6", "head", "header", "hr", "html", "iframe", "legend", "li", "link", "main", "menu",
  "menuitem", "nav", "noframes", "ol", "optgroup", "option", "p", "param", "section", "source",
  "summary", "table", "tbody", "td", "tfoot", "th", "thead", "title", "tr", "track",
  "ul"]

/-- Whether one of some names, in any case, starts a text, and what follows it is fit to. -/
def startsWithName (names : List String) (fit : Text → Bool) (s : Text) : Bool :=
  names.any fun name =>
    lower (s.take name.length) = (name : Text) && fit (s.drop name.length)

namespace RawKind

/-- Behind the name of a verbatim element. -/
def endsVerbatim (s : Text) : Bool :=
  match s with
  | [] => true
  | c :: _ => isWhite c || c = '>'

/-- Behind the name of a block element. -/
def endsBlock (s : Text) : Bool :=
  match s with
  | [] => true
  | '/' :: '>' :: _ => true
  | c :: _ => isWhite c || c = '>'

/-- The kind of block that a line starts. A tag that makes no block by itself cannot break into
a paragraph. -/
def ofLine? (inParagraph : Bool) (s : Text) : Option RawKind :=
  match s with
  | '<' :: s' =>
    if startsWithName verbatimNames endsVerbatim s' then some verbatim
    else if (dropAffix? "!--" s').isSome then some comment
    else if (dropAffix? "?" s').isSome then some instruction
    else if (dropAffix? "![CDATA[" s').isSome then some cdata
    else if ((dropAffix? "!" s').bind List.head?).any Char.isAlpha then some declaration
    else if startsWithName blockNames endsBlock ((dropAffix? "/" s').getD s') then some block
    else if !inParagraph && (tag? s).any fun p => p.2.all isWhite then some tag
    else none
  | _ => none

/-- Whether a line is the last one of a block. -/
def endsIn (kind : RawKind) (s : Text) : Bool :=
  match kind with
  | verbatim => verbatimNames.any fun name => occursIn ("</" ++ (name : Text) ++ ">") (lower s)
  | comment => occursIn "-->" s
  | instruction => occursIn "?>" s
  | declaration => occursIn ">" s
  | cdata => occursIn "]]>" s
  | block | tag => false

/-- Whether a blank line ends a block. -/
def endsAtBlank : RawKind → Bool
  | block | tag => true
  | _ => false

end RawKind

end Slideshow.Markdown
