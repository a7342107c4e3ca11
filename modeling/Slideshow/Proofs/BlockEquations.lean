import Slideshow.Restructured.Reader

/-!
# What the block reader does with one opening

The reader of blocks decides by its first line. There is one equation for each thing that a line can
open; a proof about documents goes from one to the next and never opens the reader itself.
-/
namespace Slideshow.Restructured
open Text

/-- The blocks behind a part, with a block in front. -/
def withBlock (b : Block) (p : List Style × List Block) : List Style × List Block :=
  (p.1, b :: p.2)

/-- The blocks that a directive makes, if it makes any, and the styles known after them. -/
def madeBlocks (styles : List Style) : Option Directive → List Style × List Block
  | none => (styles, [])
  | some d =>
    if d.name ∈ imageNames then (styles, [d.image])
    else if d.name ∈ codeNames then (styles, [.code d.argument d.content])
    else
      let read := blocks styles false true d.body
      (read.1, [if d.name ∈ admonitionNames then .admonition d.name read.2
        else .container d.name read.2])

section Equations
variable {styles : List Style} {literal fresh : Bool} {line : Text} {rest : List Text}

@[simp] theorem blocks_nil (literal : Bool) : blocks styles literal fresh [] = (styles, []) := by
  rw [blocks]

@[simp] theorem blocks_blank (literal : Bool) :
    blocks styles literal fresh ([] :: rest) = blocks styles literal true rest := by
  rw [blocks]
  simp

theorem blocks_literal (hl : line ≠ []) (h : literal = true ∧ 0 < indent line) :
    blocks styles literal fresh (line :: rest) =
      withBlock (.literal (indented (line :: rest)))
        (blocks styles false (endsBlank (line :: rest) (afterIndented (line :: rest)))
          (afterIndented (line :: rest))) := by
  rw [blocks]
  simp only [hl, if_false, h, and_self, dite_true]
  rfl

theorem blocks_title {style : Style} {text : Text} {after : List Text} (hl : line ≠ [])
    (hn : ¬(literal = true ∧ 0 < indent line))
    (h : Opening.of fresh line rest = .title style text after) :
    blocks styles literal fresh (line :: rest) =
      withBlock (.title (rankOf styles style).1 text)
        (blocks (rankOf styles style).2 false false after) := by
  rw [blocks]
  simp only [hl, if_false, hn, dite_false]
  split <;> simp_all [withBlock, Prod.map]

theorem blocks_transition (hl : line ≠ []) (hn : ¬(literal = true ∧ 0 < indent line))
    (h : Opening.of fresh line rest = .transition) :
    blocks styles literal fresh (line :: rest) =
      withBlock .transition (blocks styles false false rest) := by
  rw [blocks]
  simp only [hl, if_false, hn, dite_false]
  split <;> simp_all [withBlock, Prod.map]

theorem blocks_markup {text : Text} (hl : line ≠ []) (hn : ¬(literal = true ∧ 0 < indent line))
    (h : Opening.of fresh line rest = .markup text) :
    blocks styles literal fresh (line :: rest) =
      let made := madeBlocks styles (Directive.of? text (indented rest))
      let read := blocks made.1 false (endsBlank (line :: rest) (afterIndented rest))
        (afterIndented rest)
      (read.1, made.2 ++ read.2) := by
  rw [blocks]
  simp only [hl, if_false, hn, dite_false]
  split <;> rename_i hopen <;> rw [h] at hopen <;> cases hopen
  rcases hd : Directive.of? text (indented rest) with _ | d
  · rfl
  · rfl

theorem blocks_paragraph (hl : line ≠ []) (hn : ¬(literal = true ∧ 0 < indent line))
    (h : Opening.of fresh line rest = .paragraph) :
    blocks styles literal fresh (line :: rest) =
      withBlock (.paragraph (paragraphOf (line :: rest.takeWhile (· ≠ []))).1)
        (blocks styles (paragraphOf (line :: rest.takeWhile (· ≠ []))).2 false
          (rest.dropWhile (· ≠ []))) := by
  rw [blocks]
  simp only [hl, if_false, hn, dite_false]
  split <;> simp_all [withBlock, Prod.map]

theorem blocks_quote (hl : line ≠ []) (hn : ¬(literal = true ∧ 0 < indent line))
    (h : Opening.of fresh line rest = .quote) :
    blocks styles literal fresh (line :: rest) =
      withBlock (.quote (blocks styles false true (indented (line :: rest))).2)
        (blocks (blocks styles false true (indented (line :: rest))).1 false
          (endsBlank (line :: rest) (afterIndented (line :: rest)))
          (afterIndented (line :: rest))) := by
  rw [blocks]
  simp only [hl, if_false, hn, dite_false]
  split <;> simp_all [withBlock, Prod.map]

theorem blocks_list {bullet : Option Char} (hl : line ≠ [])
    (hn : ¬(literal = true ∧ 0 < indent line)) (h : Opening.of fresh line rest = .list bullet) :
    blocks styles literal fresh (line :: rest) =
      withBlock (.list bullet.isNone (bodies styles (itemsOf bullet (line :: rest)).1).2)
        (blocks (bodies styles (itemsOf bullet (line :: rest)).1).1 false
          (endsBlank (line :: rest) (itemsOf bullet (line :: rest)).2)
          (itemsOf bullet (line :: rest)).2) := by
  rw [blocks]
  simp only [hl, if_false, hn, dite_false]
  split <;> simp_all [withBlock, Prod.map]

@[simp] theorem bodies_nil : bodies styles [] = (styles, []) := by
  rw [bodies]

theorem bodies_cons (item : List Text) (items : List (List Text)) :
    bodies styles (item :: items) =
      ((bodies (blocks styles false true item).1 items).1,
        (blocks styles false true item).2 ::
          (bodies (blocks styles false true item).1 items).2) := by
  rw [bodies]
  rfl

end Equations

end Slideshow.Restructured
