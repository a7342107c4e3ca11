import Slideshow.Proofs.BlockEquations

/-!
# Blocks that are read

Not every block comes out of the reader: ranks of titles start at one, and admonitions are of a few
kinds. The induction is along the reader itself.
-/
namespace Slideshow.Restructured
open Text

mutual

def Block.IsRead : Block → Prop
  | .title rank _ => 0 < rank
  | .quote body => AreRead body
  | .list _ items => BodiesAreRead items
  | .admonition kind body => kind ∈ admonitionNames ∧ AreRead body
  | .container _ body => AreRead body
  | .paragraph _ | .transition | .literal _ | .image _ _ | .code _ _ => True

def AreRead : List Block → Prop
  | [] => True
  | b :: bs => b.IsRead ∧ AreRead bs

def BodiesAreRead : List (List Block) → Prop
  | [] => True
  | body :: bodies => AreRead body ∧ BodiesAreRead bodies

end

theorem areRead_append {bs cs : List Block} (hb : AreRead bs) (hc : AreRead cs) :
    AreRead (bs ++ cs) := by
  induction bs with
  | nil => exact hc
  | cons b bs ih => exact ⟨hb.1, ih hb.2⟩

theorem rankOf_pos (styles : List Style) (style : Style) : 0 < (rankOf styles style).1 := by
  unfold rankOf
  split
  · exact Nat.succ_pos _
  · exact Nat.succ_pos _

/-- The levels of HTML headings. -/
theorem levelOfRank_mem {rank : Nat} (h : 0 < rank) : levelOfRank rank ∈ [1, 2, 3, 4, 5, 6] := by
  simp only [levelOfRank, List.mem_cons, List.not_mem_nil, or_false]
  omega

/-- What a directive makes is read when its body is. -/
theorem areRead_madeBlocks {styles : List Style} {d? : Option Directive}
    (h : ∀ d, d? = some d → AreRead (blocks styles false true d.body).2) :
    AreRead (madeBlocks styles d?).2 := by
  cases d? with
  | none => trivial
  | some d =>
    rw [madeBlocks]
    split
    · exact ⟨trivial, trivial⟩
    · split
      · exact ⟨trivial, trivial⟩
      · refine ⟨?_, trivial⟩
        split
        · next hkind => exact ⟨hkind, h d rfl⟩
        · exact h d rfl

private theorem areRead_blocks_and_bodies :
    (∀ styles literal fresh lines, AreRead (blocks styles literal fresh lines).2) ∧
      ∀ styles items, BodiesAreRead (bodies styles items).2 := by
  refine blocks.mutual_induct
    (fun styles literal fresh lines => AreRead (blocks styles literal fresh lines).2)
    (fun styles items => BodiesAreRead (bodies styles items).2)
    ?nil ?blank ?literal ?title ?transition ?markup ?quote ?list ?paragraph ?none ?body
  case nil =>
    intro styles literal fresh
    rw [blocks_nil]
    trivial
  case blank =>
    intro styles literal fresh lines ih
    rwa [blocks_blank]
  case literal =>
    intro styles literal fresh line rest hl hi after ih
    rw [blocks_literal hl hi]
    exact ⟨trivial, ih⟩
  case title =>
    intro styles literal fresh line rest hl hn style text after h rank known hrank ih
    rw [blocks_title hl hn h]
    have hpos := rankOf_pos styles style
    rw [hrank] at hpos ⊢
    exact ⟨hpos, ih⟩
  case transition =>
    intro styles literal fresh line rest hl hn h ih
    rw [blocks_transition hl hn h]
    exact ⟨trivial, ih⟩
  case markup =>
    intro styles literal fresh line rest hl hn text h after known made hmade hbody ih
    have hm : madeBlocks styles (Directive.of? text (indented rest)) = (known, made) := by
      rw [← hmade]
      cases Directive.of? text (indented rest) with
      | none => rfl
      | some d => rfl
    have hread := areRead_madeBlocks hbody
    rw [blocks_markup hl hn h]
    rw [hm] at hread ⊢
    exact areRead_append hread ih
  case quote =>
    intro styles literal fresh line rest hl hn h known body hbody after hb ih
    rw [blocks_quote hl hn h]
    rw [hbody] at hb ⊢
    exact ⟨hb, ih⟩
  case list =>
    intro styles literal fresh line rest hl hn bullet h split known items hitems hi ih
    rw [blocks_list hl hn h]
    rw [hitems] at hi ⊢
    exact ⟨hi, ih⟩
  case paragraph =>
    intro styles literal fresh line rest hl hn h text announced hp ih
    rw [blocks_paragraph hl hn h, hp]
    exact ⟨trivial, ih⟩
  case none =>
    intro styles
    rw [bodies_nil]
    trivial
  case body =>
    intro styles item items known body hbody hb ih
    rw [bodies_cons, hbody]
    rw [hbody] at hb
    exact ⟨hb, ih⟩

/-- Whatever the lines, the blocks of them are blocks that are read. -/
theorem areRead_blocks (styles : List Style) (literal fresh : Bool) (lines : List Text) :
    AreRead (blocks styles literal fresh lines).2 :=
  areRead_blocks_and_bodies.1 styles literal fresh lines

end Slideshow.Restructured
