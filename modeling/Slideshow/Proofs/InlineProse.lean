import Slideshow.Proofs.ChosenSpans
import Slideshow.Proofs.DocumentMeaning
import Slideshow.Proofs.ShownText

/-!
# The prose of inline markup

The spans of a text take the marks of their constructs away, and links take their targets away, too.
What is left is the prose: it stands outside all tags, each of its characters escaped once, so that a
reader of the HTML sees it as it was written. The targets are read back from the tags of the links.
-/
namespace Slideshow.Markup
open Text

/-! ## Attributes -/

/-- An attribute value with its entities decoded. -/
def unescapedAttribute : Text → Text
  | '&' :: 'q' :: 'u' :: 'o' :: 't' :: ';' :: s => '"' :: unescapedAttribute s
  | '&' :: 'a' :: 'm' :: 'p' :: ';' :: s => '&' :: unescapedAttribute s
  | '&' :: 'l' :: 't' :: ';' :: s => '<' :: unescapedAttribute s
  | '&' :: 'g' :: 't' :: ';' :: s => '>' :: unescapedAttribute s
  | c :: s => c :: unescapedAttribute s
  | [] => []

private theorem unescapedAttribute_char (c : Char) (s : Text) :
    unescapedAttribute ((if c = '"' then "&quot;" else escapedChar c : Text) ++ s) =
      c :: unescapedAttribute s := by
  split
  · next hc => simp [unescapedAttribute, hc]
  · unfold escapedChar
    split
    · simp [unescapedAttribute]
    · simp [unescapedAttribute]
    · simp [unescapedAttribute]
    · next hamp hlt hgt =>
      rw [List.singleton_append, unescapedAttribute]
      all_goals exact fun t hc _ => hamp hc

theorem unescapedAttribute_escapedAttribute (s : Text) :
    unescapedAttribute (escapedAttribute s) = s := by
  induction s with
  | nil => rfl
  | cons c s ih =>
    rw [escapedAttribute] at ih ⊢
    rw [List.flatMap_cons, unescapedAttribute_char, ih]

/-- The decoded value of an attribute of a tag. -/
def Token.attribute? (key : Text) : Token → Option Text
  | .tag t => (cutAt? (" " ++ key ++ "=\"") t.source).map fun p =>
    unescapedAttribute (p.2.takeWhile (· ≠ '"'))
  | _ => none

/-- The values of an attribute in the tags of an HTML text. -/
def attributesIn (key html : Text) : List Text := (tokens html).filterMap (Token.attribute? key)

/-- A tag without a space has no attributes. -/
theorem Token.attribute?_eq_none {key : Text} {t : Tag} (h : ' ' ∉ t.source) :
    (Token.tag t).attribute? key = none := by
  rw [attribute?, Option.map_eq_none_iff]
  cases hcut : cutAt? (" " ++ key ++ "=\"") t.source with
  | none => rfl
  | some p => simp [eq_append_of_cutAt? hcut] at h

theorem attributesIn_dropWhile (key t : Text) :
    attributesIn key (t.dropWhile (· ≠ '<')) = attributesIn key t := by
  cases t with
  | nil => rfl
  | cons c t =>
    rw [List.dropWhile_cons]
    split
    · next hc =>
      rw [attributesIn, attributesIn, Forest.tokens_plain (by simpa using hc), List.filterMap_cons]
      rfl
    · rfl

/-- No tag stands in text without an angle bracket. -/
theorem attributesIn_append_of_not_mem {s : Text} (h : '<' ∉ s) (key t : Text) :
    attributesIn key (s ++ t) = attributesIn key t := by
  rw [← attributesIn_dropWhile, List.dropWhile_append_of_pos (ne_of_not_mem h), attributesIn_dropWhile]

end Slideshow.Markup

namespace Slideshow.Forest
open Text Markup

theorem attributesIn_opened {name attributes : Text} (hn : isName name) (ha : isInTag attributes)
    (key s : Text) : attributesIn key (opened name attributes ++ s) =
      ((Token.tag (openTag name attributes)).attribute? key).toList ++ attributesIn key s := by
  rw [attributesIn, tokens_opened hn ha, List.filterMap_cons]
  cases (Token.tag (openTag name attributes)).attribute? key <;> rfl

theorem attributesIn_closed {name : Text} (hn : isName name) (key s : Text) :
    attributesIn key (closed name ++ s) = attributesIn key s := by
  have hspace : ' ' ∉ (closeTag name).source := by
    simp [closed, not_mem_name hn (c := ' ') rfl]
  rw [attributesIn, tokens_closed hn, List.filterMap_cons, Token.attribute?_eq_none hspace]
  rfl

/-- An element around escaped text. -/
theorem attributesIn_element {name attributes : Text} (hn : isName name) (ha : isInTag attributes)
    (key text s : Text) : attributesIn key ((Node.element name attributes [.text (escaped text)]).html ++ s) =
      ((Token.tag (openTag name attributes)).attribute? key).toList ++ attributesIn key s := by
  have htext : '<' ∉ escaped text := fun hm => (mem_escaped hm).1 rfl
  simp only [Node.html, html, List.append_nil, List.append_assoc]
  rw [attributesIn_opened hn ha, attributesIn_append_of_not_mem htext, attributesIn_closed hn]

end Slideshow.Forest

namespace Slideshow.Restructured
open Text Markup Forest

/-! ## Prose -/

namespace Span

/-- What stands in front of the prose of a span. -/
def mark : Span → Text
  | plain _ => []
  | literal _ => "``"
  | strong _ => "**"
  | emphasis _ => "*"
  | link .. => "`"
  | interpreted _ => "`"

def prose : Span → Text
  | plain c => [c]
  | literal t => t
  | strong t => t
  | emphasis t => t
  | link label _ _ _ => label
  | interpreted t => t

/-- What stands behind the prose of a span. -/
def ending : Span → Text
  | link _ gap target anonymous => gap ++ "<" ++ target ++ ">" ++ (if anonymous then "`__" else "`_")
  | sp => sp.mark

def target? : Span → Option Text
  | link _ _ target _ => some target
  | _ => none

/-- The prose of a span where all white space in front of a target is taken away with the target. -/
def trimmedProse : Span → Text
  | link label gap _ _ => trimRight (label ++ gap)
  | sp => sp.prose

/-- In front of the target of a link stands nothing but white space, of which one character is left. -/
def HasBlankLabel (sp : Span) : Prop := ∃ c gap target anonymous,
  sp = link [c] gap target anonymous ∧ isBlank c ∧ isAllBlank gap

theorem source_eq (sp : Span) : sp.source = sp.mark ++ sp.prose ++ sp.ending := by
  cases sp with
  | link label gap target anonymous => cases anonymous <;> simp [source, mark, prose, ending]
  | plain | literal | strong | emphasis | interpreted => simp [source, mark, prose, ending]

theorem IsChosen.prose_eq {sp : Span} {rest : Text} (h : sp.IsChosen rest) :
    sp.prose = sp.trimmedProse ∨ sp.HasBlankLabel := by
  cases sp with
  | link label gap target anonymous =>
    obtain ⟨hgap, hlast⟩ := h.of_link
    by_cases hblank : label.getLast?.any isBlank
    · obtain ⟨c, rfl⟩ := List.length_eq_one_iff.1 (hlast hblank)
      exact .inr ⟨c, gap, target, anonymous, rfl, by simpa using hblank, hgap⟩
    · left
      rw [prose, trimmedProse, trimRight_append_blank hgap, trimRight_eq_self (by simpa using hblank)]
  | plain | literal | strong | emphasis | interpreted => exact .inl rfl

theorem shownText_node (sp : Span) : sp.node.shownText = sp.prose := by
  have htext : ∀ t : Text, shownText [.text (escaped t)] = t := fun t => by
    rw [shownText, Node.shownText, unescaped_escaped, shownText, List.append_nil]
  cases sp with
  | plain c =>
    have hc := unescaped_escaped [c]
    rwa [escaped_cons, escaped_nil, List.append_nil] at hc
  | literal | strong | emphasis | link | interpreted => exact htext _

theorem attribute?_link (target : Text) :
    (Token.tag (openTag "a" (pair "href" (escapedAttribute target)))).attribute? "href" = some target := by
  have hquote : '"' ∉ escapedAttribute target := fun hm => (mem_escapedAttribute hm).1 rfl
  have hcut : cutAt? (" " ++ "href" ++ "=\"") (opened "a" (pair "href" (escapedAttribute target))) =
      some (['<', 'a'], escapedAttribute target ++ '"' :: ['>']) := by
    simp [cutAt?, dropAffix?, opened, pair]
  rw [Token.attribute?, openTag_source, hcut, Option.map_some, takeWhile_run (ne_of_not_mem hquote) rfl,
    unescapedAttribute_escapedAttribute]

/-- Of the tags of a span only that of a link has an address: the target without the white space
around it. -/
theorem attributesIn_html_append (sp : Span) (s : Text) :
    attributesIn "href" (sp.html ++ s) = (sp.target?.map trim).toList ++ attributesIn "href" s := by
  have hbare : ∀ name, isName name → ∀ t, attributesIn "href"
      ((Node.element name [] [.text (escaped t)]).html ++ s) = attributesIn "href" s := by
    intro name hn t
    have hspace : ' ' ∉ (openTag name []).source := by
      simp [opened, not_mem_name hn (c := ' ') rfl]
    rw [attributesIn_element hn (by cbv), Token.attribute?_eq_none hspace]
    rfl
  rw [← html_node]
  cases sp with
  | plain c =>
    have hc : '<' ∉ escaped [c] := fun hm => (mem_escaped hm).1 rfl
    rw [escaped_cons, escaped_nil, List.append_nil] at hc
    exact attributesIn_append_of_not_mem hc _ _
  | link label gap target anonymous =>
    rw [node, attributesIn_element (by cbv) (AreAttributes.single (by cbv) _).isInTag, attribute?_link]
    rfl
  | literal | strong | emphasis | interpreted => exact hbare _ (by cbv) _

end Span

theorem withoutTags_inlineHtml (s : Text) :
    withoutTags false (inlineHtml s) = escaped ((spans s).flatMap Span.prose) := by
  have hshown : shownText (inlineNodes s) = (spans s).flatMap Span.prose := by
    rw [inlineNodes]
    induction spans s with
    | nil => rfl
    | cons sp sps ih => rw [List.map_cons, shownText, ih, Span.shownText_node, List.flatMap_cons]
  rw [← html_inlineNodes, withoutTags_html areNames_inlineNames
    (areQuoted_inlineNodes (List.Subset.refl _) [] s), hshown]

theorem attributesIn_inlineHtml (s : Text) :
    attributesIn "href" (inlineHtml s) = ((spans s).filterMap Span.target?).map trim := by
  rw [inlineHtml]
  induction spans s with
  | nil => simp [attributesIn, tokens]
  | cons sp sps ih =>
    rw [List.flatMap_cons, Span.attributesIn_html_append, ih, List.filterMap_cons]
    cases sp.target? <;> rfl

/-- Inline markup takes nothing away from a text but the marks of its constructs and the targets of
its links with the white space in front of them, of which a label that would be empty keeps one
character. What is left is escaped once, and the targets are the addresses of the links. -/
theorem inlineHtml_conserves_prose (s : Text) :
    (∀ sps, sps = spans s ↔ sps.flatMap Span.source = s ∧ AreChosen sps) ∧
      (spans s).flatMap (fun sp => sp.mark ++ sp.prose ++ sp.ending) = s ∧
      (∀ sp ∈ spans s, sp.prose = sp.trimmedProse ∨ sp.HasBlankLabel) ∧
      withoutTags false (inlineHtml s) = escaped ((spans s).flatMap Span.prose) ∧
      shown (inlineHtml s) = (spans s).flatMap Span.prose ∧
      attributesIn "href" (inlineHtml s) = ((spans s).filterMap Span.target?).map trim ∧
      ('*' ∉ s → '`' ∉ s → inlineHtml s = escaped s) := by
  refine ⟨fun sps => eq_spans_iff, ?_, ?_, withoutTags_inlineHtml s, ?_, attributesIn_inlineHtml s,
    fun hstar hquote => inlineHtml_plain hstar hquote⟩
  · conv => rhs; rw [← flatMap_source_spans s]
    exact List.flatMap_congr fun sp _ => (Span.source_eq sp).symm
  · intro sp hsp
    obtain ⟨rest, hchosen⟩ := (areChosen_spans s).exists_of_mem hsp
    exact hchosen.prose_eq
  · rw [shown, withoutTags_inlineHtml, unescaped_escaped]

/-- Stars in strong text and a backquote in literal text, emphasis and a link over a line break, marks
in a target, and markup that is not finished. -/
def crowdedLine : Text := "**a**b** ``c` d`` *e\nf* `g\n <\"h<i\">`__ `j* & <k>*"

theorem inlineHtml_conserves_crowdedLine :
    shown (inlineHtml crowdedLine) = "a**b c` d e\nf g `j* & <k>*" ∧
      attributesIn "href" (inlineHtml crowdedLine) = ["\"h<i\""] ∧
      '*' ∉ ofString "a < b & c" ∧ '`' ∉ ofString "a < b & c" ∧
      inlineHtml "a < b & c" = "a &lt; b &amp; c" := by
  obtain ⟨-, -, -, -, hshown, haddresses, -⟩ := inlineHtml_conserves_prose crowdedLine
  obtain ⟨-, -, -, -, -, -, hplain⟩ := inlineHtml_conserves_prose "a < b & c"
  have hstar : '*' ∉ ofString "a < b & c" := by simp
  have hquote : '`' ∉ ofString "a < b & c" := by simp
  refine ⟨?_, ?_, hstar, hquote, ?_⟩
  · rw [hshown]
    decide +kernel
  · rw [haddresses]
    decide +kernel
  · rw [hplain hstar hquote]
    decide +kernel

/-- Nothing but white space stands in front of the target here, and it is not all taken away. -/
theorem blank_label_remains :
    spans "` <x>`_" = [.link " " [] "x" false] ∧ shown (inlineHtml "` <x>`_") = " " ∧
      shown (inlineHtml "` <x>`_") ≠ (spans "` <x>`_").flatMap Span.trimmedProse := by
  decide +kernel

end Slideshow.Restructured
