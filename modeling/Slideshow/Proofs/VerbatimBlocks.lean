import Slideshow.Proofs.DocumentMeaning
import Slideshow.Proofs.ShownText

/-!
# Verbatim blocks

A literal block stands behind a paragraph that ends in two colons, a code block behind the line of
its directive. Either keeps the lines of its body as they are: only the indent they share is taken
off, and whatever markup they would open elsewhere is not read.
-/
namespace Slideshow.Restructured
open Text Markup

/-- Lines that a verbatim block can hold: the block is not blank at its ends, and one of its lines
has no margin of its own. -/
structure IsVerbatim (ls : List Text) : Prop where
  clean : ∀ l ∈ ls, IsClean l
  startsInText : ls.head?.any (· ≠ [])
  endsInText : EndsInText ls
  touchesMargin : TouchesMargin ls

/-- The lines of a block under the line that announces it. -/
def announced (line : Text) (n : Nat) (ls : List Text) : List Text :=
  line :: [] :: ls.map (shifted n)

section Block
variable {ls : List Text} {n : Nat}

theorem IsVerbatim.exists_cons (h : IsVerbatim ls) : ∃ l ks, ls = l :: ks ∧ l ≠ [] := by
  have hstart := h.startsInText
  cases ls with
  | nil => simp at hstart
  | cons l ks => exact ⟨l, ks, rfl, by simpa using hstart⟩

/-- The text of a block is cut into the lines it was joined from, with or without a break behind
the last one. -/
theorem linesOf_announced (h : IsVerbatim ls) {line ending : Text} (hline : IsClean line)
    (hending : ending = [] ∨ ending = ['\n']) :
    linesOf (unlines (announced line n ls) ++ ending) = announced line n ls := by
  have hclean : ∀ l ∈ announced line n ls, IsClean l := by
    intro l hl
    simp only [announced, List.mem_cons, List.mem_map] at hl
    obtain rfl | rfl | ⟨k, hk, rfl⟩ := hl
    · exact hline
    · exact .nil
    · exact (h.clean k hk).shifted n
  rcases hending with rfl | rfl
  · rw [List.append_nil]
    refine linesOf_unlines hclean ?_
    obtain ⟨l, hl, hne⟩ := h.endsInText.map_shifted n
    simp [announced, List.getLast?_cons, hl, hne]
  · exact linesOf_unlines_break (by simp [announced]) hclean

/-- The body is the block itself, and nothing is left after it. -/
theorem indented_verbatim (h : IsVerbatim ls) (hn : 0 < n) :
    indented (ls.map (shifted n)) = ls ∧ afterIndented (ls.map (shifted n)) = [] := by
  have hend : IsOutside [] := .inl rfl
  simpa using indented_map_shifted hn h.touchesMargin h.endsInText hend

/-- A blank line in front belongs to the body. -/
theorem indented_blank_verbatim (h : IsVerbatim ls) (hn : 0 < n) :
    indented ([] :: ls.map (shifted n)) = [] :: ls ∧
      afterIndented ([] :: ls.map (shifted n)) = [] := by
  have hends : EndsInText ([] :: ls) := h.endsInText.append [[]]
  have hmargin : TouchesMargin ([] :: ls) := by
    obtain ⟨l, hl, hm⟩ := h.touchesMargin
    exact ⟨l, List.mem_cons_of_mem [] hl, hm⟩
  have hend : IsOutside [] := .inl rfl
  simpa [shifted] using indented_map_shifted hn hmargin hends hend

/-! ## Literal blocks -/

theorem isPrinted_announcing {p : Text} (hp : isPlainLine p) : IsPrinted (p ++ "::") := by
  obtain ⟨c, s, rfl, hc, hend, hbreak, htab, -⟩ := isPlainLine_iff.1 hp
  have hcolons : IsClean "::" := ⟨by simp, by simp, by cbv⟩
  have hclean := hcolons.behind (by simp) hbreak htab
  exact ⟨.inr ⟨c, by simp, hc⟩, hclean.noBreak, hclean.noTab, hclean.ending⟩

/-- Two colons behind a plain line announce a literal block and leave one. -/
theorem paragraphOf_announcing {p : Text} (hp : isPlainLine p) :
    paragraphOf [p ++ "::"] = (p ++ ":", true) := by
  have hending := (isPrinted_announcing hp).ending
  obtain ⟨c, s, rfl, hc, hend, -⟩ := isPlainLine_iff.1 hp
  have hleft : trimLeft (c :: s ++ "::") = c :: s ++ "::" := by
    simp [trimLeft, isBlank_of_isLetter hc]
  have htrim : trim (c :: s ++ "::") = c :: s ++ "::" := by
    rw [trim, hleft, trimRight_eq_self hending]
  have hcut : dropEnding? "::" (c :: s ++ "::") = some (c :: s) := dropEnding?_eq_some_iff.2 rfl
  simp only [paragraphOf, List.map_cons, List.map_nil, htrim, unlines_singleton, hcut,
    trimRight_eq_self hend, if_true]

theorem opening_announcing {p : Text} (hp : isPlainLine p) (rest : List Text) (fresh : Bool) :
    Opening.of fresh (p ++ "::") ([] :: rest) = .paragraph := by
  have hprinted := isPrinted_announcing hp
  obtain ⟨c, s, rfl, hc, -⟩ := isPlainLine_iff.1 hp
  exact opening_of_isLetter hc hprinted (by simp [IsPrinted.nil]) fresh

/-- The paragraph takes its line alone, and the lines behind it are read as a literal block before
any other opening is tried. -/
theorem blocks_announcing (h : IsVerbatim ls) (hn : 0 < n) {p : Text} (hp : isPlainLine p) :
    (blocks [] false true (announced (p ++ "::") n ls)).2 =
      [.paragraph (p ++ ":"), .literal ls] := by
  obtain ⟨hbody, hafter⟩ := indented_verbatim h hn
  obtain ⟨l, ks, rfl, hl⟩ := h.exists_cons
  have hshifted : shifted n l ≠ [] := by rwa [Ne, shifted_eq_nil_iff]
  have hinside : 0 < indent (shifted n l) := Nat.lt_of_lt_of_le hn (le_indent_of_shifted n hl)
  rw [List.map_cons] at hbody hafter
  rw [announced, List.map_cons, blocks_paragraph (by simp) (by simp)
    (opening_announcing hp _ true)]
  simp only [List.takeWhile_cons, List.dropWhile_cons, ne_eq, not_true, decide_false,
    Bool.false_eq_true, if_false, paragraphOf_announcing hp, withBlock]
  rw [blocks_blank, blocks_literal hshifted ⟨rfl, hinside⟩, hbody, hafter, blocks_nil]
  rfl

/-! ## Code blocks -/

/-- The line of the directive with a name of code blocks. -/
def codeLine (name language : Text) : Text := ".. " ++ (name ++ "::" ++ ' ' :: language)

/-- A name of code blocks is a directive's name in small letters, and not one of images. -/
private theorem of_mem_codeNames {name : Text} (h : name ∈ codeNames) :
    name.head?.any Char.isAlpha ∧ name.all (fun c => isWord c || c = '-') ∧ lower name = name ∧
      name ∉ imageNames := by
  simp only [codeNames, List.mem_cons, List.not_mem_nil, or_false] at h
  rcases h with rfl | rfl | rfl <;> exact ⟨by cbv, by cbv, by cbv, by simp [imageNames]⟩

/-- The options end at the blank line in front, so no line of the block is read as one. -/
theorem directive_codeLine (h : IsVerbatim ls) {name language : Text} (hname : name ∈ codeNames)
    (hl : trim language = language) :
    Directive.of? (name ++ "::" ++ ' ' :: language) ([] :: ls) = some ⟨name, language, [], ls⟩ := by
  obtain ⟨hfirst, hword, hlower, -⟩ := of_mem_codeNames hname
  obtain ⟨c, hc, halpha⟩ : ∃ c, name.head? = some c ∧ c.isAlpha := by
    simpa [Option.any_eq_true] using hfirst
  have hhead : (name ++ "::" ++ ' ' :: language).head? = some c := by
    simp [List.head?_append, hc]
  have htake : (name ++ "::" ++ ' ' :: language).takeWhile (fun c => isWord c || c = '-') = name := by
    rw [List.append_assoc]
    exact takeWhile_run (List.all_eq_true.1 hword) (by cbv)
  have hdrop : (name ++ "::" ++ ' ' :: language).dropWhile (fun c => isWord c || c = '-') =
      "::" ++ ' ' :: language := by
    rw [List.append_assoc]
    exact dropWhile_run (List.all_eq_true.1 hword) (by cbv)
  have hargument : trim (' ' :: language) = language := by
    rw [show ' ' :: language = [' '] ++ language from rfl, trim_blank_append (by decide), hl]
  have hcontent : ls.dropWhile (· = []) = ls := by
    obtain ⟨l, ks, rfl, hne⟩ := h.exists_cons
    rw [List.dropWhile_cons, if_neg (by simpa using hne)]
  simp only [Directive.of?, hhead, htake, hdrop, dropAffix?_append, hlower]
  simpa [halpha, option?, dropAffix?, hcontent] using hargument

theorem isAdornment_codeLine (least : Nat) (name language : Text) :
    isAdornment least (codeLine name language) = false := by
  simp [codeLine, isAdornment]

theorem blocks_codeLine (h : IsVerbatim ls) (hn : 0 < n) {name language : Text}
    (hname : name ∈ codeNames) (hl : trim language = language) :
    (blocks [] false true (announced (codeLine name language) n ls)).2 = [.code language ls] := by
  have hopen : Opening.of true (codeLine name language) ([] :: ls.map (shifted n)) =
      .markup (name ++ "::" ++ ' ' :: language) := by
    have hdots : dropAffix? ".. " (codeLine name language) =
        some (name ++ "::" ++ ' ' :: language) := dropAffix?_append _ _
    have hover : overlinedTitle? (codeLine name language) ([] :: ls.map (shifted n)) = none := by
      unfold overlinedTitle?
      split
      · simp [isAdornment_codeLine]
      · rfl
    simp only [Opening.of, hover, underlinedTitle?, isAdornment_codeLine, hdots]
    rfl
  obtain ⟨hbody, hafter⟩ := indented_blank_verbatim h hn
  have hmade : madeBlocks [] (some ⟨name, language, [], ls⟩) = ([], [.code language ls]) := by
    simp [madeBlocks, (of_mem_codeNames hname).2.2.2, hname]
  rw [announced, blocks_markup (by simp [codeLine]) (by simp) hopen, hbody,
    directive_codeLine h hname hl, hmade, hafter]
  simp only [blocks_nil, List.append_nil]

theorem isClean_codeLine {name language : Text} (hname : name ∈ codeNames)
    (hne : language ≠ []) (hl : trim language = language) (hbreak : '\n' ∉ language)
    (htab : '\t' ∉ language) : IsClean (codeLine name language) := by
  have hlanguage : IsClean language := ⟨hbreak, htab, by rw [← hl]; exact getLast?_trimRight _⟩
  have hletters : ∀ c ∈ name, isWord c || c = '-' :=
    List.all_eq_true.1 (of_mem_codeNames hname).2.1
  have hfront : ∀ c, (isWord c || c = '-') = false → c ∉ [' ', '.', ':'] →
      c ∉ ".. " ++ (name ++ "::" ++ " ") := by
    intro c hc hmark hmem
    have hin : c ∉ name := fun h => by simp [hletters c h] at hc
    simp_all
  have hline : codeLine name language = ".. " ++ (name ++ "::" ++ " ") ++ language := by
    simp [codeLine]
  rw [hline]
  exact hlanguage.behind hne (hfront '\n' (by decide) (by decide))
    (hfront '\t' (by decide) (by decide))

/-! ## The written form -/

/-- Verbatim blocks are lossless. Whatever its lines look like, a block under a plain line with two
colons is written as a literal block, and one under a directive for code as a code block of that
language; the lines are escaped and nothing else, so decoding the entities gives them back. -/
theorem toHtml_verbatim {ending : Text} (h : IsVerbatim ls) (hn : 0 < n)
    (hending : ending = [] ∨ ending = ['\n']) :
    (∀ p, isPlainLine p →
      toHtml (unlines (announced (p ++ "::") n ls) ++ ending) =
        "<p>" ++ escaped p ++ ":</p>\n<pre class=\"literal-block\">" ++ escaped (unlines ls)
          ++ "</pre>\n") ∧
    (∀ name ∈ codeNames, ∀ language, language ≠ [] → trim language = language →
      '\n' ∉ language → '\t' ∉ language →
      toHtml (unlines (announced (codeLine name language) n ls) ++ ending) =
        "<pre><code class=\"language-" ++ escapedAttribute language ++ "\">"
          ++ escaped (unlines ls) ++ "\n</code></pre>\n") ∧
    pieces '\n' (unescaped (escaped (unlines ls))) = ls := by
  refine ⟨fun p hp => ?_, fun name hname language hne hl hbreak htab => ?_, ?_⟩
  · obtain ⟨-, -, -, -, -, -, -, hstar, hquote, -⟩ := isPlainLine_iff.1 hp
    have hcolon : escaped ":" = ":" := by cbv
    have hinline : inlineHtml (p ++ ":") = escaped p ++ ":" := by
      rw [inlineHtml_plain (by simpa using hstar) (by simpa using hquote), escaped_append, hcolon]
    rw [toHtml, Block.ofSource, linesOf_announced h (isPrinted_announcing hp).clean hending,
      blocks_announcing h hn hp]
    simp only [Block.htmlAll, Block.html, hinline]
    simp
  · rw [toHtml, Block.ofSource,
      linesOf_announced h (isClean_codeLine hname hne hl hbreak htab) hending,
      blocks_codeLine h hn hname hl]
    simp [Block.htmlAll, Block.html, languageClass, hne]
  · rw [unescaped_escaped]
    obtain ⟨l, ks, rfl, -⟩ := h.exists_cons
    exact pieces_intercalate (List.cons_ne_nil l ks) fun k hk => (h.clean k hk).noBreak

end Block

/-- Lines that would open fields, lists, titles, directives and markup outside a block. -/
def crowdedLines : List Text :=
  [":option: <b>", "", "  - *a* & ``b``", "Title", "=====", "", "", ".. note:: x", "    deep::"]

theorem toHtml_crowdedLines : IsVerbatim crowdedLines ∧
    toHtml (unlines (announced "Look::" 3 crowdedLines) ++ ['\n']) =
      "<p>Look:</p>\n<pre class=\"literal-block\">:option: &lt;b&gt;\n\n  - *a* &amp; ``b``\n"
        ++ "Title\n=====\n\n\n.. note:: x\n    deep::</pre>\n" ∧
    toHtml (unlines (announced ".. code-block:: c++" 1 crowdedLines)) =
      "<pre><code class=\"language-c++\">:option: &lt;b&gt;\n\n  - *a* &amp; ``b``\n"
        ++ "Title\n=====\n\n\n.. note:: x\n    deep::\n</code></pre>\n" := by
  have hclean : ∀ l ∈ crowdedLines, IsClean l := by
    intro l hl
    have hall : crowdedLines.all
        (fun l => '\n' ∉ l && '\t' ∉ l && !l.getLast?.any isBlank) := by cbv
    have := List.all_eq_true.1 hall l hl
    simp only [Bool.and_eq_true, decide_eq_true_eq, Bool.not_eq_true'] at this
    exact ⟨this.1.1, this.1.2, this.2⟩
  have h : IsVerbatim crowdedLines :=
    ⟨hclean, by cbv, ⟨"    deep::", rfl, by simp⟩, ⟨"Title", by simp [crowdedLines], by simp, by cbv⟩⟩
  refine ⟨h, ?_, ?_⟩
  · have hliteral := (toHtml_verbatim (n := 3) h (by decide) (.inr rfl)).1 "Look" (by cbv)
    have hline : ("Look" : Text) ++ "::" = "Look::" := by cbv
    rw [hline] at hliteral
    rw [hliteral]
    cbv
  · have hcode := (toHtml_verbatim (n := 1) h (by decide) (.inl rfl)).2.1 "code-block"
      (by simp [codeNames]) "c++" (by simp) (by cbv) (by simp) (by simp)
    have hline : codeLine "code-block" "c++" = ".. code-block:: c++" := by cbv
    rw [hline, List.append_nil] at hcode
    rw [hcode]
    cbv

end Slideshow.Restructured
