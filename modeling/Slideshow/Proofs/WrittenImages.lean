import Slideshow.Deck.Basic
import Slideshow.Proofs.SelfContainedPasses
import Slideshow.Proofs.WrittenDocument

/-!
# The images of written documents

A writer puts names of its own behind angle brackets and escapes what it is given, so the tags that it
writes settle which images there are. Only the raw HTML that a Markdown document passes on may leave
this open.
-/
namespace Slideshow
open Text

/-! ## Pieces of markup -/

namespace Pass
variable {Q : Image → Prop}

theorem SettlesImages.flatMap {α : Type} {f : α → Text} {l : List α}
    (h : ∀ a ∈ l, SettlesImages Q (f a)) : SettlesImages Q (l.flatMap f) := by
  induction l with
  | nil => exact .of_not_mem (by simp)
  | cons a l ih =>
    rw [List.flatMap_cons]
    exact (h a (by simp)).append (ih fun b hb => h b (List.mem_cons_of_mem a hb))

theorem opensNoImage_escaped (t : Text) : opensNoImage (escaped t) :=
  opensNoImage_of_not_mem fun h => (mem_escaped h).1 rfl

theorem opensNoImage_escapedAttribute (t : Text) : opensNoImage (escapedAttribute t) :=
  opensNoImage_of_not_mem fun h => (mem_escapedAttribute h).2.1 rfl

theorem opensNoImage_decimal (n : Nat) : opensNoImage (decimal n) :=
  opensNoImage_of_not_mem fun h =>
    absurd (Nat.isDigit_of_mem_toDigits (by decide) (by decide) h) (by decide)

/-- An attribute value between other parts of a tag, or text between tags. -/
theorem opensNoImage_between {before s after : Text} (h : opensNoImage s)
    (hbefore : opensNoImage before) (hafter : opensNoImage after) :
    opensNoImage (before ++ s ++ after) :=
  opensNoImage_append (opensNoImage_append hbefore h) hafter

end Pass

/-! ## reStructuredText -/

namespace Restructured
open Pass

theorem opensNoImage_inlineHtml (s : Text) : opensNoImage (inlineHtml s) := by
  rw [inlineHtml]
  induction spans s with
  | nil => rfl
  | cons sp sps ih =>
    refine opensNoImage_append ?_ ih
    cases sp with
    | plain c => simpa [Span.html] using opensNoImage_escaped [c]
    | literal t => exact opensNoImage_between (opensNoImage_escaped t) (by cbv) (by cbv)
    | strong t => exact opensNoImage_between (opensNoImage_escaped t) (by cbv) (by cbv)
    | emphasis t => exact opensNoImage_between (opensNoImage_escaped t) (by cbv) (by cbv)
    | interpreted t => exact opensNoImage_between (opensNoImage_escaped t) (by cbv) (by cbv)
    | link label gap target anonymous =>
      have hopened : opensNoImage ("<a href=\"" ++ escapedAttribute (trim target) ++ "\">") :=
        opensNoImage_between (opensNoImage_escapedAttribute _) (by cbv) (by cbv)
      exact opensNoImage_between (opensNoImage_escaped label) hopened (by cbv)

theorem opensNoImage_languageClass (language : Text) : opensNoImage (languageClass language) := by
  unfold languageClass
  split
  · rfl
  · exact opensNoImage_between (opensNoImage_escapedAttribute language) (by cbv) (by cbv)

theorem opensNoImage_kind {kind : Text} (h : kind ∈ admonitionNames) :
    opensNoImage ("<div class=\"admonition " ++ kind ++ "\">\n<p class=\"admonition-title\">"
      ++ capitalized kind ++ "</p>\n") :=
  List.all_eq_true.1 (show admonitionNames.all (fun kind =>
    opensNoImage ("<div class=\"admonition " ++ kind ++ "\">\n<p class=\"admonition-title\">"
      ++ capitalized kind ++ "</p>\n")) by cbv) kind h

theorem isSettled_unwrapped {body : Text} (h : IsSettled body) : IsSettled (unwrapped body) := by
  have htrimmed := h.trimRight
  rw [unwrapped]
  split
  · next inner hinner =>
    obtain ⟨rest, hfront, hback⟩ := Option.bind_eq_some_iff.1 hinner
    rw [dropAffix?_eq_some_iff] at hfront
    rw [dropEnding?_eq_some_iff] at hback
    split
    · exact htrimmed
    · have hclose : ("</p>" : Text) = '<' :: "/p>" := by simp
      rw [hfront, hback, hclose] at htrimmed
      exact (htrimmed.of_isSuffix (List.suffix_append _ _)).before_bracket
  · exact htrimmed

mutual

private theorem isSettled_block : (b : Block) → b.IsRead → IsSettled b.html
  | .title rank text, _ => by
    have hlevel := opensNoImage_decimal (levelOfRank rank)
    have hopened : opensNoImage ("<h" ++ decimal (levelOfRank rank) ++ ">") :=
      opensNoImage_between hlevel (by cbv) (by cbv)
    have htitle : opensNoImage _ := opensNoImage_between (opensNoImage_inlineHtml text) hopened
      (show opensNoImage "</h" by cbv)
    exact settlesImages_of_opensNoImage (opensNoImage_between hlevel htitle (by cbv))
  | .paragraph text, _ => settlesImages_of_opensNoImage
    (opensNoImage_between (opensNoImage_inlineHtml text) (by cbv) (by cbv))
  | .transition, _ => settlesImages_of_opensNoImage (by cbv)
  | .literal lines, _ => settlesImages_of_opensNoImage
    (opensNoImage_between (opensNoImage_escaped _) (by cbv) (by cbv))
  | .quote body, h => (isSettled_htmlAll body h).between (by cbv) (by cbv)
  | .list true items, h => (isSettled_htmlItems items h).between (by cbv) (by cbv)
  | .list false items, h => (isSettled_htmlItems items h).between (by cbv) (by cbv)
  | .image target alternative, _ => by
    have himage : IsSettled (⟨" ", escapedAttribute target⟩ : Image).spell :=
      settlesImages_source (fun _ => mem_escapedAttribute) trivial
    have halternative : opensNoImage (" alt=\"" ++ escapedAttribute alternative ++ "\" />\n") :=
      opensNoImage_between (opensNoImage_escapedAttribute alternative) (by cbv) (by cbv)
    simpa [Block.html, Image.spell] using himage.append (settlesImages_of_opensNoImage halternative)
  | .code language lines, _ => by
    have hopened : opensNoImage ("<pre><code" ++ languageClass language ++ ">") :=
      opensNoImage_between (opensNoImage_languageClass language) (by cbv) (by cbv)
    exact settlesImages_of_opensNoImage (opensNoImage_between (opensNoImage_escaped _) hopened (by cbv))
  | .admonition kind body, h => (isSettled_htmlAll body h.2).between (opensNoImage_kind h.1) (by cbv)
  | .container name body, h => by
    have hopened : opensNoImage ("<div class=\"" ++ escapedAttribute name ++ "\">\n") :=
      opensNoImage_between (opensNoImage_escapedAttribute name) (by cbv) (by cbv)
    exact (isSettled_htmlAll body h).between hopened (by cbv)

theorem isSettled_htmlAll : (bs : List Block) → AreRead bs → IsSettled (Block.htmlAll bs)
  | [], _ => .of_not_mem (by simp [Block.htmlAll])
  | b :: bs, h => (isSettled_block b h.1).append (isSettled_htmlAll bs h.2)

private theorem isSettled_htmlItems : (items : List (List Block)) → BodiesAreRead items →
    IsSettled (Block.htmlItems items)
  | [], _ => .of_not_mem (by simp [Block.htmlItems])
  | body :: items, h =>
    ((isSettled_unwrapped (isSettled_htmlAll body h.1)).between (by cbv) (by cbv)).append
      (isSettled_htmlItems items h.2)

end

theorem isSettled_toHtml (source : Text) : IsSettled (toHtml source) :=
  isSettled_htmlAll _ (areRead_blocks _ _ _ _)

end Restructured

/-! ## Markdown -/

namespace Markdown
open Pass

namespace Inline

mutual

/-- The raw HTML in inline content. -/
def rawHtml : Inline → List Text
  | raw t => [t]
  | styled _ body => rawHtmlAll body
  | link _ _ body => rawHtmlAll body
  | _ => []

def rawHtmlAll : List Inline → List Text
  | [] => []
  | i :: rest => i.rawHtml ++ rawHtmlAll rest

end

theorem rawHtmlAll_append (c d : List Inline) : rawHtmlAll (c ++ d) = rawHtmlAll c ++ rawHtmlAll d := by
  induction c with
  | nil => rfl
  | cons i c ih => simp [rawHtmlAll, ih]

end Inline

namespace Block

mutual

/-- The raw HTML in a block. Notes are written elsewhere. -/
def rawHtml : Block (List Inline) → List Text
  | paragraph c => Inline.rawHtmlAll c
  | heading _ c => Inline.rawHtmlAll c
  | raw literal => [literal]
  | quote body => rawHtmlAll body
  | list _ _ items => rawHtmlAll items
  | item body => rawHtmlAll body
  | table _ header rows => (header :: rows).flatMap fun cells => cells.flatMap Inline.rawHtmlAll
  | definitions entries => rawHtmlAll entries
  | definition term body => (term.map Inline.rawHtmlAll).getD [] ++ rawHtmlAll body
  | _ => []

def rawHtmlAll : List (Block (List Inline)) → List Text
  | [] => []
  | b :: bs => b.rawHtml ++ rawHtmlAll bs

end

theorem rawHtmlAll_append (bs cs : List (Block (List Inline))) :
    rawHtmlAll (bs ++ cs) = rawHtmlAll bs ++ rawHtmlAll cs := by
  induction bs with
  | nil => rfl
  | cons b bs ih => simp [rawHtmlAll, ih]

end Block

/-- The raw HTML that a source passes on. -/
def rawHtml (e : Extensions) (s : Text) : List Text :=
  Block.rawHtmlAll (document e s).1 ++ (document e s).2.flatMap fun n => Block.rawHtmlAll n.body

/-! ### Inline content -/

theorem mem_escapedTarget {s : Text} {d : Char} (h : d ∈ escapedTarget s) :
    d ≠ '"' ∧ d ≠ '<' ∧ d ≠ '>' := by
  obtain ⟨c, -, hc⟩ := List.mem_flatMap.1 h
  split at hc
  · next hpart =>
    obtain rfl := List.mem_singleton.1 hc
    have hmarks : isTargetPart '"' = false ∧ isTargetPart '<' = false ∧ isTargetPart '>' = false :=
      ⟨by cbv, by cbv, by cbv⟩
    refine ⟨?_, ?_, ?_⟩ <;> rintro rfl <;> simp [hmarks] at hpart
  split at hc
  · simp at hc
    rcases hc with rfl | rfl | rfl | rfl | rfl <;> decide
  split at hc
  · simp at hc
    rcases hc with rfl | rfl | rfl | rfl | rfl | rfl <;> decide
  · obtain ⟨b, -, hb⟩ := List.mem_flatMap.1 hc
    have hdigit : ∀ n < 16, (Nat.digitChar n).toUpper ∉ ['"', '<', '>'] := by decide
    have hsize := b.toNat_lt
    have hhigh := hdigit (b.toNat / 16) (by omega)
    have hlow := hdigit (b.toNat % 16) (by omega)
    simp only [List.mem_cons, List.not_mem_nil, or_false, not_or] at hb hhigh hlow
    rcases hb with rfl | rfl | rfl
    · decide
    · exact hhigh
    · exact hlow

theorem opensNoImage_escapedTarget (s : Text) : opensNoImage (escapedTarget s) :=
  opensNoImage_of_not_mem fun h => (mem_escapedTarget h).2.1 rfl

theorem opensNoImage_titleAttribute (title : Text) : opensNoImage (titleAttribute title) := by
  unfold titleAttribute
  split
  · rfl
  · exact opensNoImage_between (opensNoImage_escapedAttribute title) (by cbv) (by cbv)

theorem opensNoImage_name {tag : Text} (h : opensNoImage ("<" ++ tag)) : opensNoImage tag := by
  have hcons : opensNoImage ('<' :: tag) := by simpa using h
  simp only [opensNoImage, Bool.and_eq_true] at hcons
  exact hcons.2

theorem isSettled_element {tag inside : Text} (htag : opensNoImage ("<" ++ tag))
    (h : IsSettled inside) : IsSettled (element tag inside) := by
  have hclosed : opensNoImage ("</" ++ tag ++ ">") :=
    opensNoImage_between (opensNoImage_name htag) (by cbv) (by cbv)
  have helement : element tag inside = "<" ++ tag ++ ">" ++ inside ++ ("</" ++ tag ++ ">") := by
    simp [element]
  rw [helement]
  exact h.between (opensNoImage_append htag (by cbv)) hclosed

mutual

private theorem isSettled_inline : (i : Inline) → (∀ t ∈ i.rawHtml, IsSettled t) →
    IsSettled i.html
  | .text t, _ => settlesImages_of_opensNoImage (opensNoImage_escapedAttribute t)
  | .softBreak, _ => settlesImages_of_opensNoImage (by cbv)
  | .hardBreak, _ => settlesImages_of_opensNoImage (by cbv)
  | .code t, _ => isSettled_element (by cbv)
    (settlesImages_of_opensNoImage (opensNoImage_escapedAttribute t))
  | .raw t, h => h t (by simp [Inline.rawHtml])
  | .styled style body, h => by
    have htag : opensNoImage ("<" ++ style.tag) := by cases style <;> cbv
    exact isSettled_element htag (isSettled_htmlAll body h)
  | .link url title body, h => by
    have htarget : opensNoImage ("<a href=\"" ++ escapedTarget url ++ "\"") :=
      opensNoImage_between (opensNoImage_escapedTarget url) (by cbv) (by cbv)
    have hopened := opensNoImage_between (opensNoImage_titleAttribute title) htarget
      (show opensNoImage ">" by cbv)
    exact (isSettled_htmlAll body h).between hopened (by cbv)
  | .image url title body, _ => by
    have himage : IsSettled (⟨" ", escapedTarget url⟩ : Image).spell :=
      settlesImages_source (fun _ => mem_escapedTarget) trivial
    have halternative := opensNoImage_between (opensNoImage_escapedAttribute (Inline.alternativeAll body))
      (show opensNoImage " alt=\"" by cbv) (show opensNoImage "\"" by cbv)
    have hbehind := opensNoImage_between (opensNoImage_titleAttribute title) halternative
      (show opensNoImage " />" by cbv)
    simpa [Inline.html, Image.spell] using himage.append (settlesImages_of_opensNoImage hbehind)
  | .note _, _ => settlesImages_of_opensNoImage (by cbv)
  | .noteMark name number earlier, _ => by
    let suffix : Text := if earlier = 0 then [] else "-" ++ decimal (earlier + 1)
    have hfront := opensNoImage_between (opensNoImage_escapedTarget name)
      (show opensNoImage "<sup class=\"footnote-ref\"><a href=\"#fn-" by cbv)
      (show opensNoImage "\" id=\"fnref-" by cbv)
    have hmark := opensNoImage_between (opensNoImage_escapedTarget (name ++ suffix)) hfront
      (show opensNoImage "\" data-footnote-ref>" by cbv)
    exact settlesImages_of_opensNoImage
      (opensNoImage_between (opensNoImage_decimal number) hmark (by cbv))

theorem isSettled_htmlAll : (c : List Inline) → (∀ t ∈ Inline.rawHtmlAll c, IsSettled t) →
    IsSettled (Inline.htmlAll c)
  | [], _ => .of_not_mem (by simp [Inline.htmlAll])
  | i :: c, h => (isSettled_inline i fun t ht => h t (List.mem_append_left _ ht)).append
    (isSettled_htmlAll c fun t ht => h t (List.mem_append_right _ ht))

end

/-! ### Parts of blocks -/

/-- Whatever anchors are in use, the text that is written settles its images. -/
def IsSettling (action : StateM Anchors Text) : Prop := ∀ used, IsSettled (action.run used).1

theorem IsSettling.pure {t : Text} (h : IsSettled t) : IsSettling (pure t) := fun _ => h

theorem IsSettling.bind {action : StateM Anchors Text} {f : Text → StateM Anchors Text}
    (h : IsSettling action) (hf : ∀ t, IsSettled t → IsSettling (f t)) : IsSettling (action >>= f) :=
  fun used => hf _ (h used) _

theorem opensNoImage_freeAnchor (used : List Text) (heading : Text) :
    opensNoImage (freeAnchor used (anchorBase heading)) := by
  have hbase : opensNoImage (anchorBase heading) := by
    refine opensNoImage_of_not_mem fun h => ?_
    obtain ⟨c, hc, he⟩ := List.mem_map.1 h
    have hpart := (List.mem_filter.1 hc).2
    split at he
    · simp at he
    · rw [he] at hpart
      have hbracket : isAnchorPart '<' = false := by cbv
      simp [hbracket] at hpart
  rw [freeAnchor]
  cases hfind : List.find? _ _ with
  | none => exact hbase
  | some anchor =>
    obtain ⟨n, -, rfl⟩ := List.mem_map.1 (List.mem_of_find?_eq_some hfind)
    dsimp only [Option.getD_some]
    split
    · exact hbase
    · exact opensNoImage_append (opensNoImage_append hbase (by cbv)) (opensNoImage_decimal n)

/-- The anchor in a heading. -/
theorem isSettling_anchor (heading : Text) : IsSettling (do
    let a ← newAnchor heading
    return "<a href=\"#" ++ a ++ "\" aria-hidden=\"true\" class=\"anchor\" id=\"" ++ a ++ "\"></a>") := by
  intro used
  have hanchor := opensNoImage_freeAnchor used heading
  have hfront := opensNoImage_between hanchor (show opensNoImage "<a href=\"#" by cbv)
    (show opensNoImage "\" aria-hidden=\"true\" class=\"anchor\" id=\"" by cbv)
  exact settlesImages_of_opensNoImage (opensNoImage_between hanchor hfront (by cbv))

theorem opensNoImage_codeHtml (info literal : Text) : opensNoImage (codeHtml info literal) := by
  have hclasses : opensNoImage (if info = [] then ([] : Text) else
      " class=\"" ++ escapedAttribute ("language-" ++ info.takeWhile (!isWhite ·)) ++ "\"") := by
    split
    · rfl
    · exact opensNoImage_between (opensNoImage_escapedAttribute _) (by cbv) (by cbv)
  exact opensNoImage_between (opensNoImage_escapedAttribute literal)
    (opensNoImage_between hclasses (by cbv) (by cbv)) (by cbv)

theorem isSettled_rowHtml {columns : List Alignment} {tag : Text} (htag : opensNoImage ("<" ++ tag))
    {cells : List (List Inline)} (h : ∀ c ∈ cells, IsSettled (Inline.htmlAll c)) :
    IsSettled (rowHtml tag columns cells) := by
  have hcells : IsSettled (cellsHtml tag columns cells) := by
    refine SettlesImages.flatMap fun p hp => ?_
    have halign : opensNoImage (alignAttribute p.1) := by cases p.1 <;> cbv
    have hopened := opensNoImage_append (opensNoImage_append htag halign) (show opensNoImage ">" by cbv)
    have hclosed : opensNoImage ("</" ++ tag ++ ">\n") :=
      opensNoImage_between (opensNoImage_name htag) (by cbv) (by cbv)
    simpa using (h p.2 (List.of_mem_zip hp).2).between hopened hclosed
  exact hcells.between (by cbv) (by cbv)

theorem isSettled_tableHtml {columns : List Alignment} {header : List (List Inline)}
    {rows : List (List (List Inline))}
    (h : ∀ t ∈ (header :: rows).flatMap fun cells => cells.flatMap Inline.rawHtmlAll, IsSettled t) :
    IsSettled (tableHtml columns header rows) := by
  have hcells : ∀ cells ∈ header :: rows, ∀ c ∈ cells, IsSettled (Inline.htmlAll c) :=
    fun cells hcells c hc => isSettled_htmlAll c fun t ht =>
      h t (List.mem_flatMap.2 ⟨cells, hcells, List.mem_flatMap.2 ⟨c, hc, ht⟩⟩)
  have hhead : IsSettled (rowHtml "th" columns header) :=
    isSettled_rowHtml (by cbv) (hcells header (by simp))
  have hbody : IsSettled (bodyRows columns rows) := by
    rw [bodyRows]
    split
    · exact .of_not_mem (by simp)
    · have hrows : IsSettled ((rows.map (rowHtml "td" columns)).flatten) :=
        SettlesImages.flatMap fun cells hc =>
          isSettled_rowHtml (by cbv) (hcells cells (List.mem_cons_of_mem header hc))
      exact hrows.between (by cbv) (by cbv)
  exact ((hhead.between (by cbv) (by cbv)).append hbody).append (settlesImages_of_opensNoImage (by cbv))

theorem isSettled_checkbox (done : Bool) : IsSettled (checkbox done) := by
  have hname : ∀ t, dropAffix? "img" (['i', 'n'] ++ t) = none := fun t => by simp [dropAffix?]
  have hopened : IsSettled "<input type=\"checkbox\" " := by
    have hsource : ("<input type=\"checkbox\" " : Text) = '<' :: "input type=\"checkbox\" " := by cbv
    rw [hsource]
    refine SettlesImages.bracket (.of_not_mem (by simp)) ?_ (by cbv) (settles_of_name _ hname)
    simp [tagAt]
  have hdone : IsSettled (if done then ("checked=\"\" " : Text) else []) :=
    .of_not_mem (by cases done <;> simp)
  exact (hopened.append hdone).append (.of_not_mem (by simp))

theorem of_splitTask (tasks : Bool) (c : List Inline) : IsSettled (splitTask tasks c).1 ∧
    Inline.rawHtmlAll (splitTask tasks c).2 = Inline.rawHtmlAll c := by
  unfold splitTask
  split
  · split
    · exact ⟨isSettled_checkbox _, rfl⟩
    · exact ⟨.of_not_mem (by simp), rfl⟩
  · exact ⟨.of_not_mem (by simp), rfl⟩

theorem opensNoImage_lineEnd (unended : Bool) : opensNoImage (lineEnd unended) := by
  cases unended <;> cbv

/-! ### Blocks -/

theorem isSettled_heading (level : Nat) {anchor : Text} {c : List Inline} (hanchor : IsSettled anchor)
    (hc : IsSettled (Inline.htmlAll c)) :
    IsSettled (element ('h' :: decimal level) (anchor ++ Inline.htmlAll c) ++ "\n") := by
  have htag : opensNoImage ("<" ++ 'h' :: decimal level) := by
    simpa using opensNoImage_append (show opensNoImage "<h" by cbv) (opensNoImage_decimal level)
  exact (isSettled_element htag (hanchor.append hc)).append (settlesImages_of_opensNoImage (by cbv))

/-- The first paragraph of an item. -/
theorem isSettled_first (tight : Bool) {c : List Inline}
    (h : ∀ t ∈ Inline.rawHtmlAll c, IsSettled t) :
    IsSettled (if tight then Inline.htmlAll c else "\n<p>" ++ Inline.htmlAll c ++ "</p>\n") := by
  split
  · exact isSettled_htmlAll c h
  · exact (isSettled_htmlAll c h).between (by cbv) (by cbv)

/-- Blocks settle their images if their raw HTML does: a block, the items of a list, the blocks of a
container. -/
theorem isSettling_blocks (e : Extensions) :
    (∀ b : Block (List Inline), (∀ t ∈ b.rawHtml, IsSettled t) → IsSettling (b.html e)) ∧
    (∀ tight items, (∀ t ∈ Block.rawHtmlAll items, IsSettled t) →
      IsSettling (Block.itemsHtml e tight items)) ∧
    ∀ tight unended bs, (∀ t ∈ Block.rawHtmlAll bs, IsSettled t) →
      IsSettling (Block.bodyHtml e tight unended bs) := by
  -- The cases are the clauses of the writer: for a block, for items, and for blocks in a container.
  refine Block.html.mutual_induct e
    (fun b => (∀ t ∈ b.rawHtml, IsSettled t) → IsSettling (b.html e))
    (fun tight items => (∀ t ∈ Block.rawHtmlAll items, IsSettled t) →
      IsSettling (Block.itemsHtml e tight items))
    (fun tight unended bs => (∀ t ∈ Block.rawHtmlAll bs, IsSettled t) →
      IsSettling (Block.bodyHtml e tight unended bs))
    ?paragraph ?anchored ?heading ?rule ?code ?raw ?quote ?bullets ?numbers ?item ?table ?definitions
    ?definition ?note ?noItem ?paragraphItem ?otherItem ?noneItem ?noBlock ?skipped ?tightParagraph
    ?looseParagraph ?otherBlock
  case paragraph =>
    intro c h
    rw [Block.html]
    exact .pure ((isSettled_htmlAll c h).between (by cbv) (by cbv))
  case anchored =>
    intro level c hanchors h
    rw [Block.html, if_pos hanchors]
    exact (isSettling_anchor _).bind fun anchor ha =>
      .pure (isSettled_heading level ha (isSettled_htmlAll c h))
  case heading =>
    intro level c hanchors h
    rw [Block.html, if_neg hanchors]
    exact .pure (isSettled_heading level (.of_not_mem (by simp)) (isSettled_htmlAll c h))
  case rule =>
    intro h
    exact .pure (settlesImages_of_opensNoImage (by cbv))
  case code =>
    intro info literal h
    rw [Block.html]
    exact .pure (settlesImages_of_opensNoImage (opensNoImage_codeHtml info literal))
  case raw =>
    intro literal h
    rw [Block.html]
    exact .pure (h literal (by simp [Block.rawHtml]))
  case quote =>
    intro body ih h
    rw [Block.html]
    exact (ih h).bind fun t ht => .pure (ht.between (by cbv) (by cbv))
  case bullets =>
    intro tight items ih h
    rw [Block.html]
    exact (ih h).bind fun t ht => .pure (ht.between (by cbv) (by cbv))
  case numbers =>
    intro n tight items ih h
    rw [Block.html]
    have hstart : opensNoImage (if n = 1 then ([] : Text) else " start=\"" ++ decimal n ++ "\"") := by
      split
      · rfl
      · exact opensNoImage_between (opensNoImage_decimal n) (by cbv) (by cbv)
    have hopened := opensNoImage_between hstart (show opensNoImage "<ol" by cbv)
      (show opensNoImage ">\n" by cbv)
    exact (ih h).bind fun t ht => .pure (ht.between hopened (by cbv))
  case item =>
    intro body ih h
    rw [Block.html]
    exact ih h
  case table =>
    intro columns header rows h
    rw [Block.html]
    exact .pure (isSettled_tableHtml h)
  case definitions =>
    intro entries ih h
    rw [Block.html]
    exact (ih h).bind fun t ht => .pure (ht.between (by cbv) (by cbv))
  case definition =>
    intro term body ih h
    obtain ⟨hterm, hbody⟩ := List.forall_mem_append.1 h
    have hdetails : ∀ t, IsSettled t → IsSettled ("<dd>" ++ t ++ "</dd>\n") :=
      fun t ht => ht.between (by cbv) (by cbv)
    cases term with
    | none =>
      rw [Block.html]
      exact (ih hbody).bind fun t ht => .pure (by simpa using hdetails t ht)
    | some c =>
      rw [Block.html]
      have hhead : IsSettled (element "dt" (Inline.htmlAll c) ++ "\n") :=
        (isSettled_element (by cbv) (isSettled_htmlAll c hterm)).append
          (settlesImages_of_opensNoImage (by cbv))
      exact (ih hbody).bind fun t ht => .pure (by simpa using hhead.append (hdetails t ht))
  case note =>
    intro name body h
    rw [Block.html]
    exact .pure (.of_not_mem (by simp))
  case noItem =>
    intro tight h
    rw [Block.itemsHtml]
    exact .pure (.of_not_mem (by simp))
  case paragraphItem =>
    intro tight c body items box content hsplit ihbody ihitems h
    obtain ⟨hitem, hitems⟩ := List.forall_mem_append.1 h
    obtain ⟨hc, hbody⟩ := List.forall_mem_append.1 hitem
    obtain ⟨hbox, hcontent⟩ := of_splitTask e.tasks c
    rw [hsplit] at hbox hcontent
    have hfirst := isSettled_first tight (c := content) (by rwa [hcontent])
    have hopened : IsSettled "<li>" := settlesImages_of_opensNoImage (by cbv)
    have hfront := (hopened.append hbox).append hfirst
    rw [Block.itemsHtml, hsplit]
    exact (ihbody hbody).bind fun t ht => (ihitems hitems).bind fun u hu => .pure
      (((hfront.append ht).append (settlesImages_of_opensNoImage (by cbv))).append hu)
  case otherItem =>
    intro tight body items hne ihbody ihitems h
    obtain ⟨hitem, hitems⟩ := List.forall_mem_append.1 h
    rw [Block.itemsHtml]
    · exact (ihbody hitem).bind fun t ht => (ihitems hitems).bind fun u hu =>
        .pure ((ht.between (by cbv) (by cbv)).append hu)
    · exact hne
  case noneItem =>
    intro tight b items hparagraph hitem ihb ihitems h
    obtain ⟨hb, hitems⟩ := List.forall_mem_append.1 h
    rw [Block.itemsHtml]
    · exact (ihb hb).bind fun t ht => (ihitems hitems).bind fun u hu => .pure (ht.append hu)
    · exact hparagraph
    · exact hitem
  case noBlock =>
    intro tight unended h
    rw [Block.bodyHtml]
    exact .pure (.of_not_mem (by simp))
  case skipped =>
    intro tight unended name body bs ih h
    rw [Block.bodyHtml]
    exact ih h
  case tightParagraph =>
    intro unended c bs ih h
    obtain ⟨hc, hbs⟩ := List.forall_mem_append.1 h
    rw [Block.bodyHtml, if_pos rfl]
    exact (ih hbs).bind fun t ht => .pure ((isSettled_htmlAll c hc).append ht)
  case looseParagraph =>
    intro tight unended c bs htight ih h
    obtain ⟨hc, hbs⟩ := List.forall_mem_append.1 h
    rw [Block.bodyHtml, if_neg htight]
    have hfront := opensNoImage_append (opensNoImage_lineEnd unended) (show opensNoImage "<p>" by cbv)
    have hparagraph := (isSettled_htmlAll c hc).between hfront (show opensNoImage "</p>\n" by cbv)
    exact (ih hbs).bind fun t ht => .pure (hparagraph.append ht)
  case otherBlock =>
    intro tight unended b bs hnote hparagraph ihb ih h
    obtain ⟨hb, hbs⟩ := List.forall_mem_append.1 h
    have hend : IsSettled (lineEnd unended) :=
      settlesImages_of_opensNoImage (opensNoImage_lineEnd unended)
    rw [Block.bodyHtml]
    · exact (ihb hb).bind fun t ht => (ih hbs).bind fun u hu => .pure ((hend.append ht).append hu)
    · exact hnote
    · exact hparagraph

/-! ### Documents -/

theorem opensNoImage_intercalate {ts : List Text} (h : ∀ t ∈ ts, opensNoImage t) :
    opensNoImage (List.intercalate [' '] ts) := by
  induction ts with
  | nil => rfl
  | cons t ts ih =>
    cases ts with
    | nil => simpa using h t (by simp)
    | cons u ts =>
      rw [List.intercalate_cons_cons]
      exact opensNoImage_append (opensNoImage_append (h t (by simp)) (by rfl))
        (ih fun v hv => h v (List.mem_cons_of_mem t hv))

theorem opensNoImage_backReferences (number : Nat) (n : Note) :
    opensNoImage (backReferences number n) := by
  refine opensNoImage_intercalate fun t ht => ?_
  obtain ⟨k, -, rfl⟩ := List.mem_map.1 ht
  have hnumber := opensNoImage_decimal number
  have hsuffix : opensNoImage (if k = 0 then ([] : Text) else "-" ++ decimal (k + 1)) := by
    split
    · rfl
    · exact opensNoImage_append (by cbv) (opensNoImage_decimal _)
  have hmark : opensNoImage (if k = 0 then ([] : Text) else
      "<sup class=\"footnote-ref\">" ++ decimal (k + 1) ++ "</sup>") := by
    split
    · rfl
    · exact opensNoImage_between (opensNoImage_decimal _) (by cbv) (by cbv)
  have hstart := opensNoImage_between (opensNoImage_escapedTarget n.name)
    (show opensNoImage "<a href=\"#fnref-" by cbv) hsuffix
  have hindex := opensNoImage_between hnumber (opensNoImage_append hstart (show opensNoImage
    "\" class=\"footnote-backref\" data-footnote-backref data-footnote-backref-idx=\"" by cbv)) hsuffix
  have hlabel := opensNoImage_between hnumber (opensNoImage_append hindex
    (show opensNoImage "\" aria-label=\"Back to reference " by cbv)) hsuffix
  exact opensNoImage_between hmark (opensNoImage_append hlabel (by cbv)) (by cbv)

/-- The body of a note with the links at its end, and what stands behind it. -/
theorem isSettling_note (e : Extensions) (number : Nat) (n : Note)
    (h : ∀ t ∈ Block.rawHtmlAll n.body, IsSettled t) : IsSettling (n.html e number) := by
  have hlinks : IsSettled (backReferences number n) :=
    settlesImages_of_opensNoImage (opensNoImage_backReferences number n)
  have hfront := opensNoImage_between (opensNoImage_escapedTarget n.name)
    (show opensNoImage "<li id=\"fn-" by cbv) (show opensNoImage "\">" by cbv)
  have hbody : ∀ (body : List (Block (List Inline))) (ending : Text),
      (∀ t ∈ Block.rawHtmlAll body, IsSettled t) → IsSettled ending →
      IsSettling (do
        let inside ← Block.bodyHtml e false true body
        return "<li id=\"fn-" ++ escapedTarget n.name ++ "\">" ++ inside ++ ending ++ "</li>\n") :=
    fun body ending hbody hending => ((isSettling_blocks e).2.2 false true body hbody).bind fun t ht =>
      .pure ((((settlesImages_of_opensNoImage hfront).append ht).append hending).append
        (settlesImages_of_opensNoImage (by cbv)))
  rw [Note.html]
  cases hlast : n.body.getLast? with
  | none => exact hbody _ _ h (hlinks.append (.of_not_mem (by simp)))
  | some b =>
    cases b with
    | paragraph c =>
      refine hbody _ _ (fun t ht => ?_) (.of_not_mem (by simp))
      have hparts : n.body = n.body.dropLast ++ [.paragraph c] :=
        (List.dropLast_append_getLast? _ hlast).symm
      rw [hparts] at h
      simp only [Block.rawHtmlAll_append, Block.rawHtmlAll, Block.rawHtml, Inline.rawHtmlAll_append,
        Inline.rawHtmlAll, Inline.rawHtml, List.append_nil, List.nil_append, List.mem_append,
        List.mem_singleton] at h ht
      rcases ht with ht | ht | rfl
      · exact h t (.inl ht)
      · exact h t (.inr ht)
      · exact hlinks
    | _ => exact hbody _ _ h (hlinks.append (.of_not_mem (by simp)))

theorem isSettling_notesHtml (e : Extensions) (number : Nat) {notes : List Note}
    (h : ∀ n ∈ notes, ∀ t ∈ Block.rawHtmlAll n.body, IsSettled t) :
    IsSettling (notesHtml e number notes) := by
  induction notes generalizing number with
  | nil => exact .pure (.of_not_mem (by simp))
  | cons n ns ih =>
    rw [notesHtml]
    exact (isSettling_note e number n (h n (by simp))).bind fun t ht =>
      (ih (number + 1) fun m hm => h m (List.mem_cons_of_mem n hm)).bind fun u hu => .pure (ht.append hu)

theorem isSettled_documentHtml (e : Extensions) {body : List (Block (List Inline))} {notes : List Note}
    (hbody : ∀ t ∈ Block.rawHtmlAll body, IsSettled t)
    (hnotes : ∀ n ∈ notes, ∀ t ∈ Block.rawHtmlAll n.body, IsSettled t) :
    IsSettled (documentHtml e body notes) := by
  have hsection : ∀ t, IsSettled t → IsSettled (if notes.isEmpty then [] else
      ("<section class=\"footnotes\" data-footnotes>\n<ol>\n" ++ t ++ "</ol>\n</section>\n" : Text)) := by
    intro t ht
    split
    · exact .of_not_mem (by simp)
    · exact ht.between (by cbv) (by cbv)
  have hmain := (isSettling_blocks e).2.2 false false body hbody
  exact (hmain.bind fun t ht => (isSettling_notesHtml e 1 hnotes).bind fun u hu =>
    .pure (ht.append (hsection u hu))) []

/-- A source settles its images if the raw HTML that it passes on does. -/
theorem isSettled_toHtml {e : Extensions} {s : Text} (h : ∀ t ∈ rawHtml e s, IsSettled t) :
    IsSettled (toHtml e s) := by
  rw [rawHtml] at h
  rw [toHtml]
  generalize document e s = written at h ⊢
  obtain ⟨hbody, hnotes⟩ := List.forall_mem_append.1 h
  exact isSettled_documentHtml e hbody fun n hn t ht =>
    hnotes t (List.mem_flatMap.2 ⟨n, hn, ht⟩)

end Markdown

/-! ## Decks -/

namespace Deck
variable {d : Deck}

/-- The raw HTML that the document of a deck passes on. -/
def rawHtml (d : Deck) : List Text :=
  match d.dialect with
  | .markdown => Markdown.rawHtml (Markdown.Extensions.ofNames d.settings.markdownExtensions) d.text
  | .restructuredText => []

/-- A document settles its images if the raw HTML that it passes on does. -/
theorem isSettled_html (h : ∀ t ∈ d.rawHtml, Pass.IsSettled t) : Pass.IsSettled d.html := by
  cases hd : d.dialect with
  | markdown =>
    rw [rawHtml, hd] at h
    rw [html, hd]
    exact Markdown.isSettled_toHtml h
  | restructuredText =>
    rw [html, hd]
    exact Restructured.isSettled_toHtml d.text

end Deck

end Slideshow
