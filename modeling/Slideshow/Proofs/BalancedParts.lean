import Slideshow.Proofs.NodeReading

/-!
# Slides cut out of a forest

The header, the content and the notes of a slide are cut out of its fragment at the headings that are
found in the text, however deep these are nested. When the fragment is the HTML of a forest, each of
them closes the tags that it opens exactly if the notes heading stands outside all elements and the
heading that titles the slide holds no other heading.
-/
namespace Slideshow.Forest
open Text Markup Fragment

/-- Each part of a slide closes the tags that it opens, and no others. -/
structure AreBalanced (s : Slide) : Prop where
  title : ∀ title ∈ s.title, IsBalanced title
  header : ∀ header ∈ s.header, IsBalanced header
  content : IsBalanced s.content
  presenterNotes : ∀ notes ∈ s.presenterNotes, IsBalanced notes
  rawNotes : ∀ notes ∈ s.rawNotes, IsBalanced notes

/-- The nodes before the first notes heading outside all elements. -/
def shownNodes (ns : List Node) : List Node := ns.takeWhile (!·.isNotesHeading)

theorem shownNodes_append (forest : List Node) :
    shownNodes forest ++ forest.dropWhile (!·.isNotesHeading) = forest :=
  List.takeWhile_append_dropWhile

section Parts
variable {forest : List Node} (hforest : isWellFormed forest)
  (hmarks : ∀ n ∈ preorder forest, n.isMarked = false)
include hforest hmarks

/-- A notes heading outside all elements parts the nodes before it from those behind it. -/
theorem shown_of_isOutside (hout : ∀ n ∈ preorder (shownNodes forest), n.isNotesHeading = false) :
    Fragment.shown (html forest) = html (shownNodes forest) ∧
      ∀ notes ∈ Fragment.notes (html forest), IsBalanced notes := by
  have hparts := shownNodes_append forest
  rw [← hparts] at hforest hmarks
  rw [preorder_append] at hmarks
  obtain ⟨hshown, hrest⟩ := isWellFormed_append.1 hforest
  have hcut : cutAtNotes? (html forest) =
      (scan notesHeading? (html (forest.dropWhile (!·.isNotesHeading)))).map
        fun p => (html (shownNodes forest) ++ p.1, p.2) := by
    rw [← scan_html passes_notesHeading? _ _ hshown, ← html_append, hparts, cutAtNotes?_eq_scan]
    exact fun m hm => ⟨hmarks m (List.mem_append_left _ hm), by simp [hout m hm]⟩
  cases hd : forest.dropWhile (!·.isNotesHeading) with
  | nil =>
    rw [hd, html, scan, Option.map_none] at hcut
    have hall : shownNodes forest = forest := by simpa [hd] using hparts
    simp [Fragment.shown, Fragment.notes, hcut, hall]
  | cons n ns =>
    have hnotes : n.isNotesHeading := by
      have := List.head?_dropWhile_not (!·.isNotesHeading) forest
      simpa [hd] using this
    rw [hd] at hrest
    obtain ⟨hn, hns⟩ := isWellFormed_cons.1 hrest
    obtain ⟨hne, hread⟩ := notesHeading?_html hn hnotes (html ns)
    rw [hd, html, scan_of_read hne hread, Option.map_some, List.append_nil] at hcut
    refine ⟨by simp [Fragment.shown, hcut], fun notes hmem => ?_⟩
    obtain rfl : trim (html ns) = notes := by simpa [Fragment.notes, hcut] using hmem
    exact (isBalanced_html hns).trim

/-- A notes heading inside an element takes the close tag of that element to the notes. -/
theorem notes_of_isInside (hin : ∃ n ∈ preorder (shownNodes forest), n.isNotesHeading) :
    ∃ notes ∈ Fragment.notes (html forest), ¬IsBalanced notes := by
  have hparts := shownNodes_append forest
  generalize forest.dropWhile (!·.isNotesHeading) = rest at hparts
  rw [← hparts] at hforest hmarks
  rw [preorder_append] at hmarks
  obtain ⟨hshown, hrest⟩ := isWellFormed_append.1 hforest
  obtain ⟨n, hfirst⟩ := Option.isSome_iff_exists.1 (List.find?_isSome.2 hin)
  have hnotes : n.isNotesHeading := List.find?_some hfirst
  have hn := isWellFormed_of_mem_preorder _ hshown (List.mem_of_find?_eq_some hfirst)
  obtain ⟨depth, before, after, hat, houtside⟩ := exists_isReadAt passes_notesHeading?
    (shownNodes forest) hshown (fun m hm => hmarks m (List.mem_append_left _ hm))
    (by simpa using hfirst)
  have hdepth : 0 < depth := by
    refine Nat.pos_of_ne_zero fun hzero => ?_
    have := List.mem_takeWhile_imp (houtside hzero)
    simp [hnotes] at this
  obtain ⟨hne, hread⟩ := notesHeading?_html hn hnotes (after ++ html rest)
  have hcut : cutAtNotes? (html forest) = some (before, after ++ html rest) := by
    rw [cutAtNotes?_eq_scan, ← hparts, html_append, hat.scan, scan_of_read hne hread]
    simp
  refine ⟨trim (after ++ html rest), by simp [Fragment.notes, hcut], fun hbalanced => ?_⟩
  have hcount := (isBalanced_of_trim hbalanced).depthBehind? 0
  rw [hat.around.depthBehind?_after, if_pos hdepth] at hcount
  simp at hcount

/-- The title of a slide is read at the first heading of its forest, up to a close tag in it. -/
theorem exists_find?_html {n : Node} (hfirst : (preorder forest).find? Node.isTitle = some n) :
    ∃ depth before after digit attributes children, Around depth before after ∧
      n = .element ['h', digit] attributes children ∧ (headingDigit? digit).isSome ∧
      n.isWellFormed ∧ (∀ m ∈ preorder children, m.isMarked = false) ∧
      ∀ inner d rest,
        scan closing? (html children ++ (closed ['h', digit] ++ after)) = some (inner, d, rest) →
        Heading.find? (html forest) = some (before, ⟨digit, attributes, inner, d⟩, rest) := by
  have hmem := List.mem_of_find?_eq_some hfirst
  have hn := isWellFormed_of_mem_preorder _ hforest hmem
  have hchildren : ∀ m ∈ preorder n.children, m.isMarked = false := fun m hm =>
    hmarks m (preorder_children_subset _ hmem hm)
  obtain ⟨depth, before, after, hat, -⟩ := exists_isReadAt passes_read? forest hforest hmarks
    (by simpa using hfirst)
  have htitle : n.isTitle := List.find?_some hfirst
  cases n with
  | text content => simp [Node.isTitle] at htitle
  | comment body => simp [Node.isTitle] at htitle
  | void name attributes => simp [Node.isTitle] at htitle
  | element name attributes children =>
    obtain ⟨digit, hname⟩ := Option.isSome_iff_exists.1 htitle
    obtain ⟨rfl, hdigit⟩ := titleDigit?_eq_some_iff.1 hname
    obtain ⟨hletters, ha, -, -⟩ := isWellFormed_element.1 hn
    refine ⟨depth, before, after, digit, attributes, children, hat.around, rfl, hdigit, hn,
      hchildren, fun inner d rest hclosing => ?_⟩
    have hread := headingRead?_opened hletters ha (html children ++ (closed ['h', digit] ++ after))
    rw [hname, Option.bind_some, cutAtClosing?_eq_scan, hclosing, Option.map_some] at hread
    have hscan := hat.scan []
    rw [List.append_nil, List.append_nil, Node.html, List.append_assoc, List.append_assoc,
      scan_of_read (by simp [opened]) hread] at hscan
    rw [Heading.find?_eq_scan, hscan, Option.map_some, List.append_nil]

/-- A heading without headings inside it is taken out of the slide as a whole. -/
theorem areBalanced_ofShown (hplain : ∀ n ∈ (preorder forest).find? Node.isTitle,
    ∀ m ∈ preorder n.children, m.isTitle = false) : AreBalanced (Slide.ofShown (html forest)) := by
  cases hfirst : (preorder forest).find? Node.isTitle with
  | none =>
    have hpassed : ∀ m ∈ preorder forest, m.isMarked = false ∧ !m.isTitle := fun m hm =>
      ⟨hmarks m hm, by simpa using List.find?_eq_none.1 hfirst m hm⟩
    have hfind : Heading.find? (html forest) = none := by
      have := scan_html passes_read? [] forest hforest hpassed
      rwa [List.append_nil, scan, Option.map_none, ← Heading.find?_eq_scan] at this
    simp only [Slide.ofShown, hfind]
    exact ⟨by simp, by simp, (isBalanced_html hforest).trim, by simp, by simp⟩
  | some n =>
    obtain ⟨depth, before, after, digit, attributes, children, haround, rfl, hdigit, hn, hchildren,
      hfind⟩ := exists_find?_html hforest hmarks hfirst
    obtain ⟨hname, -, -, hc⟩ := isWellFormed_element.1 hn
    have hpassed : ∀ m ∈ preorder children, m.isMarked = false ∧ !m.isTitle := fun m hm =>
      ⟨hchildren m hm, by simpa using hplain _ hfirst m hm⟩
    have hclose : closing? (closed ['h', digit] ++ after) = some (digit, after) := by
      rw [closing?_closed hname, titleDigit?_eq_some_iff.2 ⟨rfl, hdigit⟩, Option.map_some]
    have hclosing : scan closing? (html children ++ (closed ['h', digit] ++ after)) =
        some (html children, digit, after) := by
      rw [scan_html passes_closing? _ children hc hpassed,
        scan_of_read (by simp [closed_eq]) hclose]
      simp
    have hheader : Heading.source ⟨digit, attributes, html children, digit⟩ =
        html [.element ['h', digit] attributes children] := by
      simp [Heading.source, html, Node.html, opened, closed]
    simp only [Slide.ofShown, hfind _ _ _ hclosing]
    refine ⟨?_, ?_, haround.isBalanced_joinContent, by simp, by simp⟩
    · rintro _ ⟨⟩
      exact (isBalanced_html hc).trim
    · rintro _ ⟨⟩
      rw [hheader]
      exact isBalanced_html (isWellFormed_cons.2 ⟨hn, rfl⟩)

/-- A heading with a heading inside it is cut behind the inner one. -/
theorem header_of_nested {n m : Node} (hfirst : (preorder forest).find? Node.isTitle = some n)
    (hm : m ∈ preorder n.children) (htitle : m.isTitle) :
    ∃ header ∈ (Slide.ofShown (html forest)).header, ¬IsBalanced header := by
  obtain ⟨_, before, after, digit, attributes, children, -, rfl, hdigit, hn, hchildren, hfind⟩ :=
    exists_find?_html hforest hmarks hfirst
  obtain ⟨hname, ha, he, hc⟩ := isWellFormed_element.1 hn
  obtain ⟨depth, inner, d, rest, hinner, hd, hclosing⟩ :=
    exists_scan_closing (closed ['h', digit] ++ after) children hc hchildren ⟨m, hm, htitle⟩
  have hheader : Heading.source ⟨digit, attributes, inner, d⟩ =
      opened ['h', digit] attributes ++ inner ++ closed ['h', d] := by
    simp [Heading.source, opened, closed]
  refine ⟨Heading.source ⟨digit, attributes, inner, d⟩,
    by rw [Slide.ofShown, hfind _ _ _ hclosing]; exact rfl, fun hbalanced => ?_⟩
  have hend : isName ['h', d] := by
    obtain ⟨_, hsome⟩ := Option.isSome_iff_exists.1 hd
    have := isAlphanum_of_headingDigit? hsome
    simpa [isName] using this
  -- two tags open before the close tag that ends the header
  have hcount := hbalanced.depthBehind? 0
  have hopens := ((opens_opened hname ha he).append hinner) 0 (closed ['h', d])
  rw [hheader, hopens, ← List.append_nil (closed ['h', d]), tokens_closed hend, depthBehind?,
    if_pos (by rfl), if_neg (by omega), tokens, depthBehind?, Option.some.injEq] at hcount
  omega

/-- The parts cut out of a fragment are balanced exactly if the first notes heading stands outside all
elements and the heading that titles the slide holds no other heading. -/
theorem areBalanced_ofFragment_iff (showNotes : Bool) :
    AreBalanced (Slide.ofFragment (html forest) showNotes) ↔
      (∀ n ∈ preorder (shownNodes forest), n.isNotesHeading = false) ∧
        ∀ n ∈ (preorder (shownNodes forest)).find? Node.isTitle,
          ∀ m ∈ preorder n.children, m.isTitle = false := by
  have hparts := shownNodes_append forest
  have hshown : isWellFormed (shownNodes forest) := by
    rw [← hparts] at hforest
    exact (isWellFormed_append.1 hforest).1
  have hunmarked : ∀ n ∈ preorder (shownNodes forest), n.isMarked = false := fun n hn =>
    hmarks n (by rw [← hparts, preorder_append]; exact List.mem_append_left _ hn)
  rw [Slide.ofFragment_eq]
  constructor
  · intro hbalanced
    have hout : ∀ n ∈ preorder (shownNodes forest), n.isNotesHeading = false := by
      by_contra hin
      simp only [not_forall, Bool.not_eq_false] at hin
      obtain ⟨n, hn, hnotes⟩ := hin
      obtain ⟨notes, hmem, hopen⟩ := notes_of_isInside hforest hmarks ⟨n, hn, hnotes⟩
      exact hopen (hbalanced.rawNotes notes hmem)
    refine ⟨hout, fun n hn m hm => ?_⟩
    rw [(shown_of_isOutside hforest hmarks hout).1] at hbalanced
    by_contra htitle
    obtain ⟨header, hmem, hopen⟩ :=
      header_of_nested hshown hunmarked hn hm (by simpa using htitle)
    exact hopen (hbalanced.header header hmem)
  · rintro ⟨hout, hplain⟩
    obtain ⟨heq, hnotes⟩ := shown_of_isOutside hforest hmarks hout
    have hslide := areBalanced_ofShown hshown hunmarked hplain
    rw [heq]
    refine ⟨hslide.title, hslide.header, hslide.content, fun notes hmem => ?_, hnotes⟩
    cases showNotes with
    | false => simp [Slide.withNotes] at hmem
    | true => exact hnotes notes hmem

end Parts

/-- A heading in a quotation, and notes behind it. -/
def quotedHeading : List Node :=
  [.element "blockquote" " cite=\"a\"" [.element "h2" [] [.text "Plan", .void "br" []], .text " one"],
    .element "h3" [] [.text "Presenter Notes"], .element "p" [] [.element "h1" [] [.text "aside"]]]

theorem areBalanced_quotedHeading :
    isWellFormed quotedHeading ∧ (∀ n ∈ preorder quotedHeading, n.isMarked = false) ∧
      AreBalanced (Slide.ofFragment (html quotedHeading) true) := by
  have hforest : isWellFormed quotedHeading := by cbv
  have hunmarked : (preorder quotedHeading).all (!·.isMarked) := by cbv
  have hmarks : ∀ n ∈ preorder quotedHeading, n.isMarked = false := fun n hn => by
    simpa using List.all_eq_true.1 hunmarked n hn
  have hout : (preorder (shownNodes quotedHeading)).all (!·.isNotesHeading) := by cbv
  have hplain : ((preorder (shownNodes quotedHeading)).find? Node.isTitle).all
      fun n => (preorder n.children).all (!·.isTitle) := by cbv
  refine ⟨hforest, hmarks, (areBalanced_ofFragment_iff hforest hmarks true).2
    ⟨fun n hn => by simpa using List.all_eq_true.1 hout n hn, fun n hn m hm => ?_⟩⟩
  rw [Option.mem_def.1 hn, Option.all_some] at hplain
  simpa using List.all_eq_true.1 hplain m hm

/-- A title, and a quotation with a notes heading in it. -/
def quotedNotes : List Node :=
  [.element "h1" [] [.text "T"], .element "blockquote" []
    [.element "h2" [] [.text "Presenter Notes"], .element "p" [] [.text "n"]]]

/-- Notes that begin inside a quotation take its close tag, and leave its open tag to the content. -/
theorem not_areBalanced_quotedNotes :
    html quotedNotes = "<h1>T</h1><blockquote><h2>Presenter Notes</h2><p>n</p></blockquote>" ∧
      isWellFormed quotedNotes ∧ (∀ n ∈ preorder quotedNotes, n.isMarked = false) ∧
      (Slide.ofFragment (html quotedNotes) true).content = "<blockquote>" ∧
      (Slide.ofFragment (html quotedNotes) true).presenterNotes = some "<p>n</p></blockquote>" ∧
      ¬IsBalanced "<blockquote>" ∧ ¬IsBalanced "<p>n</p></blockquote>" := by
  have hunmarked : (preorder quotedNotes).all (!·.isMarked) := by cbv
  have hname : isName "blockquote" := by cbv
  have hin : isInTag [] := by cbv
  have helement : isElement "blockquote" [] := by cbv
  have hnil : IsBalanced [] := isBalanced_text (by simp)
  have hp : IsBalanced "<p>n</p>" := ⟨[.element "p" [] [.text "n"]], by cbv, by cbv⟩
  refine ⟨by cbv, by cbv, fun n hn => by simpa using List.all_eq_true.1 hunmarked n hn, by cbv, by cbv,
    fun h => ?_, fun h => ?_⟩
  · have hopen : ("<blockquote>" : Text) = opened "blockquote" [] ++ [] := by cbv
    have hcount := h.depthBehind? 0
    rw [hopen, opens_opened hname hin helement, tokens, depthBehind?] at hcount
    simp at hcount
  · have hclose : ("<p>n</p></blockquote>" : Text) =
        ("<p>n</p>" : Text) ++ closed "blockquote" ++ [] ++ [] := by cbv
    have hat := Around.inside hname hin helement hnil hnil (.outside hnil hp)
    have hcount := h.depthBehind? 0
    rw [hclose, hat.depthBehind?_after, if_pos (by omega)] at hcount
    simp at hcount

end Slideshow.Forest
