import Slideshow.Proofs.DocumentReading
import Slideshow.Proofs.WrittenForest

/-!
# What printed documents mean

A printed document is cut into the lines it was printed from, its lines are read as its blocks, and
the blocks are written as the HTML of the document. Text without stars and backquotes holds no
inline markup, so it is only escaped.
-/
namespace Slideshow.Restructured
open Text

/-! ## Cutting into lines -/

private theorem map_cleaned {ls : List Text} (h : ∀ l ∈ ls, IsClean l) :
    ls.map (fun l => trimRight (replaceChar '\t' "        " l)) = ls := by
  refine (List.map_congr_left fun l hl => ?_).trans (List.map_id _)
  rw [replaceChar_of_not_mem (h l hl).noTab, trimRight_eq_self (h l hl).ending]
  rfl

/-- Clean lines are read as they were joined, if the last one is not blank. -/
theorem linesOf_unlines {ls : List Text} (h : ∀ l ∈ ls, IsClean l)
    (hlast : ls.getLast?.all (· ≠ [])) : linesOf (unlines ls) = ls := by
  have hlines : lines (unlines ls) = ls := by
    cases ls with
    | nil => rfl
    | cons l ls =>
      have hpieces : pieces '\n' (unlines (l :: ls)) = l :: ls :=
        pieces_intercalate (List.cons_ne_nil l ls) fun k hk => (h k hk).noBreak
      rw [lines, hpieces, if_neg]
      intro hnil
      simp [hnil] at hlast
  rw [linesOf, hlines, map_cleaned h]

/-- A break behind the last line opens no further one. -/
theorem linesOf_unlines_break {ls : List Text} (hne : ls ≠ []) (h : ∀ l ∈ ls, IsClean l) :
    linesOf (unlines ls ++ ['\n']) = ls := by
  have hpieces : pieces '\n' (unlines ls) = ls :=
    pieces_intercalate hne fun k hk => (h k hk).noBreak
  have hlines : lines (unlines ls ++ ['\n']) = ls := by
    simp [lines, pieces_append, hpieces, pieces]
  rw [linesOf, hlines, map_cleaned h]

/-- A document is read line by line as it was printed. -/
theorem linesOf_printed {ps : List Part} (h : isDocument ps) :
    linesOf (printed ps) = printedLines ps := by
  have hprinted := isPrinted_of_mem_printedLines ps h
  refine linesOf_unlines (fun l hl => (hprinted l hl).clean) ?_
  cases ps with
  | nil => rfl
  | cons p ps =>
    obtain ⟨l, hl, hne⟩ := endsInText_printedLines (p :: ps) h (by simp)
    simpa [hl] using hne

/-! ## Writing -/

/-- Without stars and backquotes there is no inline markup. -/
theorem spans_plain {t : Text} (hstar : '*' ∉ t) (hquote : '`' ∉ t) : spans t = t.map .plain := by
  induction t with
  | nil => rw [spans, List.map_nil]
  | cons c t ih =>
    simp only [List.mem_cons, not_or] at hstar hquote
    have hnone : Span.ofMarked? (c :: t) = none := by
      simp [Span.ofMarked?, Span.literal?, Span.strong?, Span.emphasis?, Span.quoted?, dropAffix?,
        hstar.1, hquote.1]
    rw [spans]
    split
    · next sp rest hsome => simp [hnone] at hsome
    · rw [ih hstar.2 hquote.2, List.map_cons]

theorem inlineHtml_plain {t : Text} (hstar : '*' ∉ t) (hquote : '`' ∉ t) :
    inlineHtml t = escaped t := by
  rw [inlineHtml, spans_plain hstar hquote, List.flatMap_map]
  rfl

mutual

private theorem html_block : (p : Part) → p.isDocument → p.block.html = p.html
  | .paragraph t, h => by
    obtain ⟨c, s, -, -, -, -, -, hstar, hquote, -⟩ := isPlainLine_iff.1 (show isPlainLine t from h)
    rw [Part.block, Block.html, Part.html, inlineHtml_plain hstar hquote]
  | .list true items, h => by
    simp only [Part.isDocument, Bool.and_eq_true] at h
    rw [Part.block, Block.html, Part.html, htmlItems_bodyBlocks items h.2]
  | .list false items, h => by
    simp only [Part.isDocument, Bool.and_eq_true] at h
    rw [Part.block, Block.html, Part.html, htmlItems_bodyBlocks items h.2]
  | .quote body, h => by
    simp only [Part.isDocument, Bool.and_eq_true] at h
    rw [Part.block, Block.html, Part.html, htmlAll_documentBlocks body h.2]

/-- The blocks of a document are written as what it means. -/
theorem htmlAll_documentBlocks : (ps : List Part) → isDocument ps →
    Block.htmlAll (documentBlocks ps) = documentHtml ps
  | [], _ => rfl
  | p :: ps, h => by
    simp only [isDocument, Bool.and_eq_true] at h
    rw [documentBlocks, Block.htmlAll, documentHtml, html_block p h.1.1,
      htmlAll_documentBlocks ps h.2]

private theorem htmlItems_bodyBlocks : (items : List (List Part)) → areBodies items →
    Block.htmlItems (bodyBlocks items) = itemsHtml items
  | [], _ => rfl
  | item :: items, h => by
    simp only [areBodies, Bool.and_eq_true] at h
    have hitem := htmlAll_documentBlocks item h.1.2
    have hitems := htmlItems_bodyBlocks items h.2
    match item with
    | [] => simp at h
    | [.paragraph t] =>
      have ht : isPlainLine t := by
        have hd := h.1.2
        simp only [isDocument, Part.isDocument, Bool.and_eq_true] at hd
        exact hd.1.1
      obtain ⟨c, s, -, -, -, -, -, hstar, hquote, -⟩ := isPlainLine_iff.1 ht
      simp only [bodyBlocks, documentBlocks, Part.block, Block.htmlItems, itemsHtml,
        unwrapped_paragraph, inlineHtml_plain hstar hquote, hitems]
    | [.list numbered is] => simp [Part.isParagraph] at h
    | [.quote body] => simp [Part.isParagraph] at h
    | p :: q :: ps =>
      have hne : ∀ t, documentBlocks (p :: q :: ps) ≠ [.paragraph t] := by
        simp [documentBlocks]
      rw [bodyBlocks, itemsHtml, ← hitem, ← hitems, Block.htmlItems, unwrapped_of_ne_paragraph hne]
      simp

end

/-- Reading undoes printing: the HTML of a printed document is what the document means. -/
theorem toHtml_printed (ps : List Part) (h : isDocument ps) :
    toHtml (printed ps) = documentHtml ps := by
  rw [toHtml, Block.ofSource, linesOf_printed h, blocks_printedLines ps h [] true]
  exact htmlAll_documentBlocks ps h

/-- Items of one paragraph and of more, a list in a list, and a quote in a list. -/
def nestedDocument : List Part :=
  [.paragraph "A & B", .quote [.paragraph "c", .list false [[.paragraph "d"]]],
    .list true [[.paragraph "e", .list false [[.paragraph "f"], [.paragraph "g", .paragraph "h"]]],
      [.paragraph "i", .quote [.paragraph "j"]]]]

theorem toHtml_nestedDocument : isDocument nestedDocument ∧ toHtml (printed nestedDocument) =
    ("<p>A &amp; B</p>\n<blockquote>\n<p>c</p>\n<ul>\n<li>d</li>\n</ul>\n</blockquote>\n" : Text)
      ++ "<ol>\n<li><p>e</p>\n<ul>\n<li>f</li>\n<li><p>g</p>\n<p>h</p></li>\n</ul></li>\n"
      ++ "<li><p>i</p>\n<blockquote>\n<p>j</p>\n</blockquote></li>\n</ol>\n" := by
  have h : isDocument nestedDocument := by cbv
  refine ⟨h, ?_⟩
  rw [toHtml_printed nestedDocument h]
  cbv

end Slideshow.Restructured
