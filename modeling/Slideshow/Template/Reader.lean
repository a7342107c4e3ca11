import Slideshow.Template.Basic
import Slideshow.Template.Token

/-! # Reading templates

A template is text with marks in it: output between double braces, tags between braces with
percent signs, comments between braces with number signs. A dash at the inner edge of a mark takes
away the white space on that side. Pieces are added one by one to the innermost open block.
-/
namespace Slideshow.Template
open Text

/-! ### Marks -/

inductive MarkKind
  | output
  | tag
  | comment
  deriving DecidableEq

namespace MarkKind

def opening : MarkKind → Text
  | output => "\x7b\x7b"
  | tag => "\x7b%"
  | comment => "\x7b#"

def closing : MarkKind → Text
  | output => "\x7d\x7d"
  | tag => "%\x7d"
  | comment => "#\x7d"

end MarkKind

/-- The text up to the closing mark, which does not count inside quotes. -/
def insideUpTo? (close : Text) (quote : Option Char) : Text → Option (Text × Text)
  | [] => none
  | c :: s =>
    match if quote.isNone then dropAffix? close (c :: s) else none with
    | some rest => some ([], rest)
    | none =>
      let quote := match quote with
        | some q => if c = q then none else some q
        | none => if isQuote c then some c else none
      (insideUpTo? close quote s).map fun p => (c :: p.1, p.2)

theorem eq_append_of_insideUpTo? {close s inside rest : Text} {quote : Option Char}
    (h : insideUpTo? close quote s = some (inside, rest)) : s = inside ++ close ++ rest := by
  induction s generalizing inside quote with
  | nil => simp [insideUpTo?] at h
  | cons c s ih =>
    simp only [insideUpTo?] at h
    split at h
    · next r hr =>
      simp only [Option.some.injEq, Prod.mk.injEq] at h
      obtain ⟨rfl, rfl⟩ := h
      split at hr
      · rw [dropAffix?_eq_some_iff] at hr
        simp [hr]
      · simp at hr
    · obtain ⟨⟨b, a⟩, hp, hq⟩ := Option.map_eq_some_iff.1 h
      simp only [Prod.mk.injEq] at hq
      obtain ⟨rfl, rfl⟩ := hq
      simp [ih hp]

/-- A mark with everything between its braces. -/
structure Mark where
  kind : MarkKind
  inside : Text

namespace Mark

/-- What follows an opening mark up to its closing mark. -/
def inside? (kind : MarkKind) (s : Text) : Option (Text × Text) :=
  if kind = .comment then cutAt? kind.closing s else insideUpTo? kind.closing none s

theorem eq_append_of_inside? {kind : MarkKind} {s inside rest : Text}
    (h : inside? kind s = some (inside, rest)) : s = inside ++ kind.closing ++ rest := by
  unfold inside? at h
  split at h
  · exact eq_append_of_cutAt? h
  · exact eq_append_of_insideUpTo? h

def ofKind? (kind : MarkKind) (s : Text) : Option (Mark × Text) :=
  (dropAffix? kind.opening s).bind fun s => (inside? kind s).map fun p => (⟨kind, p.1⟩, p.2)

def source (m : Mark) : Text := m.kind.opening ++ m.inside ++ m.kind.closing

theorem eq_append_of_ofKind? {kind : MarkKind} {s rest : Text} {m : Mark}
    (h : ofKind? kind s = some (m, rest)) : s = m.source ++ rest := by
  obtain ⟨u, hu, h⟩ := Option.bind_eq_some_iff.1 h
  rw [dropAffix?_eq_some_iff] at hu
  obtain ⟨p, hp, hq⟩ := Option.map_eq_some_iff.1 h
  simp only [Prod.mk.injEq] at hq
  obtain ⟨rfl, rfl⟩ := hq
  simp [source, hu, eq_append_of_inside? hp]

def read? (s : Text) : Option (Mark × Text) :=
  [MarkKind.output, .tag, .comment].findSome? (ofKind? · s)

def pattern : Pattern Mark where
  read? := read?
  spell := source
  spell_ne_nil m := by cases m with | mk kind inside => cases kind <;> simp [source, MarkKind.opening]
  eq_append_of_read? h := by
    obtain ⟨_, kind, _, _, h, _⟩ := List.findSome?_eq_some_iff.1 h
    exact eq_append_of_ofKind? h

end Mark

/-! ### Pieces -/

/-- The sides of a mark on which white space goes. -/
structure Dashes where
  left : Bool
  right : Bool

inductive Tag
  | choice (test : Expr)
  | otherwise (test : Option Expr)
  | endChoice
  | loop (name : Text) (items : Expr)
  | endLoop

inductive Piece
  | text (t : Text)
  | comment (d : Dashes)
  | output (d : Dashes) (e : Expr)
  | tag (d : Dashes) (t : Tag)

def trimGaps (s : Text) : Text := ((s.dropWhile isGap).reverse.dropWhile isGap).reverse

/-- A loop names its item, and after `in` what it runs over. -/
def Tag.ofLoop? (s : Text) : Option Tag :=
  let s := s.dropWhile isGap
  let name := s.takeWhile isNamePart
  let rest := (s.dropWhile isNamePart).dropWhile isGap
  if isName name then
    (dropAffix? "in" rest).bind fun items =>
      match (Token.all? items).bind Expr.sum? with
      | some (e, []) => some (.loop name e)
      | _ => none
  else none

def Tag.ofText? (s : Text) : Option Tag :=
  let s := trimGaps s
  if s = "else" then some (.otherwise none)
  else if s = "endif" then some .endChoice
  else if s = "endfor" then some .endLoop
  else if let some test := dropAffix? "if" s then .choice <$> Expr.ofText? test
  else if let some test := dropAffix? "elif" s then
    (fun e => .otherwise (some e)) <$> Expr.ofText? test
  else if let some rest := dropAffix? "for" s then Tag.ofLoop? rest
  else none

def Piece.ofMark? (m : Mark) : Option Piece :=
  let (left, s) := match dropAffix? "-" m.inside with
    | some s => (true, s)
    | none => (false, m.inside)
  let (right, s) := match dropEnding? "-" s with
    | some s => (true, s)
    | none => (false, s)
  match m.kind with
  | .comment => some (.comment ⟨left, right⟩)
  | .output => .output ⟨left, right⟩ <$> Expr.ofText? s
  | .tag => .tag ⟨left, right⟩ <$> Tag.ofText? s

/-- Plain characters are gathered to texts. None of them may open a mark. -/
def Piece.gather? : List (Char ⊕ Mark) → Option (List Piece)
  | [] => some []
  | .inr m :: rest => (Piece.ofMark? m).bind fun p => (gather? rest).map (p :: ·)
  | .inl c :: rest => (gather? rest).bind fun
    | .text t :: ps =>
      if c = '\x7b' ∧ (t.head? = some '\x7b' ∨ t.head? = some '%' ∨ t.head? = some '#') then none
      else some (.text (c :: t) :: ps)
    | ps => some (.text [c] :: ps)

def Piece.all? (s : Text) : Option (List Piece) := Piece.gather? (Mark.pattern.split s)

/-! ### Blocks -/

/-- The nodes read so far, newest first. In a body that is kept as written dashes do nothing. -/
structure Body where
  nodes : List Node := []
  trimNext : Bool := false
  asWritten : Bool := false

namespace Body

def addText (b : Body) (t : Text) : Body :=
  let t := if b.trimNext then trimLeft t else t
  { b with nodes := if t = [] then b.nodes else .text t :: b.nodes, trimNext := false }

def trimmedEnd : List Node → List Node
  | .text t :: nodes => if trimRight t = [] then nodes else .text (trimRight t) :: nodes
  | nodes => nodes

/-- The nodes as a mark with or without a dash at its left leaves them. -/
def upTo (b : Body) (dash : Bool) : List Node :=
  if dash && !b.asWritten then trimmedEnd b.nodes else b.nodes

/-- The body behind a mark. -/
def after (b : Body) (d : Dashes) (node : Option Node) : Body :=
  { b with nodes := node.toList ++ b.upTo d.left, trimNext := d.right && !b.asWritten }

/-- An empty body behind a mark. -/
def inner (b : Body) (dash : Bool) : Body :=
  { nodes := [], trimNext := dash && !b.asWritten, asWritten := b.asWritten }

end Body

/-- A block that is open, without the nodes of its last part. -/
inductive Block
  /-- The parts that are read, newest first, and the test of the last part. -/
  | choice (parts : List (Expr × List Node)) (test : Option Expr)
  /-- The body, once the part for no items has begun. -/
  | loop (name : Text) (items : Expr) (body : Option (List Node))

/-- Parts of a choice, newest first, each of them in place of the ones after it. -/
def Block.chain (parts : List (Expr × List Node)) (otherwise : List Node) : List Node :=
  parts.foldl (fun no p => [.choice p.1 p.2.reverse no]) otherwise.reverse

/-- The part that is being read and the blocks around it, each with what stands before it. -/
structure Reader where
  body : Body
  blocks : List (Block × Body)

namespace Reader

def addTag (r : Reader) (d : Dashes) : Tag → Option Reader
  | .choice test =>
    some ⟨r.body.inner d.right, (.choice [] (some test), r.body.after ⟨d.left, false⟩ none) :: r.blocks⟩
  | .loop name items =>
    some ⟨r.body.inner d.right, (.loop name items none, r.body.after ⟨d.left, false⟩ none) :: r.blocks⟩
  | .otherwise test =>
    match r.blocks, test with
    | (.choice parts (some last), outer) :: blocks, test =>
      some ⟨r.body.inner d.right,
        (.choice ((last, r.body.upTo d.left) :: parts) test, outer) :: blocks⟩
    | (.loop name items none, outer) :: blocks, none =>
      some ⟨{ asWritten := true }, (.loop name items (some r.body.nodes), outer) :: blocks⟩
    | _, _ => none
  | .endChoice =>
    match r.blocks with
    | (.choice parts test, outer) :: blocks =>
      let last := r.body.upTo d.left
      let nodes := match test with
        | some test => Block.chain ((test, last) :: parts) []
        | none => Block.chain parts last
      some ⟨{ outer with nodes := nodes ++ outer.nodes, trimNext := d.right && !outer.asWritten },
        blocks⟩
    | _ => none
  | .endLoop =>
    match r.blocks with
    | (.loop name items body, outer) :: blocks =>
      let node : Node := match body with
        | none => .loop name items (r.body.upTo d.left).reverse []
        | some body => .loop name items ({ outer with nodes := body }.upTo d.left).reverse
            r.body.nodes.reverse
      some ⟨{ outer with nodes := node :: outer.nodes, trimNext := d.right && !outer.asWritten },
        blocks⟩
    | _ => none

def add (r : Reader) : Piece → Option Reader
  | .text t => some { r with body := r.body.addText t }
  | .comment d => some { r with body := r.body.after d none }
  | .output d e => some { r with body := r.body.after d (some (.output e)) }
  | .tag d t => r.addTag d t

/-- The template, if no block is left open. -/
def finish (r : Reader) : Option Template :=
  if r.blocks.isEmpty then some r.body.nodes.reverse else none

end Reader

def read? (s : Text) : Option Template :=
  ((Piece.all? s).bind fun ps => ps.foldlM Reader.add ⟨{}, []⟩).bind Reader.finish

end Slideshow.Template
