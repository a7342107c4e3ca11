import Slideshow.Proofs.Sections
import Slideshow.Proofs.ForestSplitting
import Slideshow.Proofs.WrittenDocument

/-!
# Splitting a document of sections

A section of a level up to the split level starts a fragment, and the deeper sections behind it belong
to that fragment. The first section has the first adornment, so nothing stands in front of it.
-/
namespace Slideshow.Restructured
open Text Markup Fragment Forest

/-- The sections that start a slide, each with the deeper ones behind it. -/
def slideSections (adornments : List Char) (splitLevel : Nat) :
    List Section → List (Section × List Section)
  | [] => []
  | s :: ss =>
    if s.level adornments ≤ splitLevel then
      (s, ss.takeWhile (splitLevel < ·.level adornments)) :: slideSections adornments splitLevel ss
    else slideSections adornments splitLevel ss

theorem mem_of_mem_slideSections {adornments : List Char} {splitLevel : Nat} {ss : List Section}
    {p : Section × List Section} (h : p ∈ slideSections adornments splitLevel ss) :
    p.1 ∈ ss ∧ p.2 ⊆ ss := by
  induction ss with
  | nil => simp [slideSections] at h
  | cons s ss ih =>
    have hrest : p ∈ slideSections adornments splitLevel ss → p.1 ∈ s :: ss ∧ p.2 ⊆ s :: ss :=
      fun hp => ⟨List.mem_cons_of_mem s (ih hp).1, List.subset_cons_of_subset s (ih hp).2⟩
    rw [slideSections] at h
    split at h
    · rcases List.mem_cons.1 h with rfl | h
      · exact ⟨by simp, List.subset_cons_of_subset s (List.takeWhile_prefix _).subset⟩
      · exact hrest h
    · exact hrest h

theorem isWellFormed_of_mem_slideSections {adornments : List Char} {splitLevel : Nat}
    {ss : List Section} (h : ∀ s ∈ ss, s.isWellFormed) {p : Section × List Section}
    (hp : p ∈ slideSections adornments splitLevel ss) : ∀ s ∈ p.1 :: p.2, s.isWellFormed := by
  obtain ⟨hfirst, hdeeper⟩ := mem_of_mem_slideSections hp
  intro s hs
  rcases List.mem_cons.1 hs with rfl | hs
  · exact h _ hfirst
  · exact h s (hdeeper hs)

/-! ## Lines of tags -/

/-- A line between angle brackets. -/
def IsTagged (l : Text) : Prop := ∃ u, l = '<' :: (u ++ ['>'])

theorem IsTagged.trim_eq {l : Text} (h : IsTagged l) : trim l = l := by
  obtain ⟨u, rfl⟩ := h
  have hend : ('<' :: (u ++ ['>'])).getLast?.any isBlank = false := by
    rw [← List.cons_append, List.getLast?_concat]
    decide
  rw [trim, trimLeft, List.dropWhile_cons, if_neg (by simp [isBlank_bracket]),
    trimRight_eq_self hend]

theorem IsTagged.unlines {ls : List Text} (hne : ls ≠ []) (h : ∀ l ∈ ls, IsTagged l) :
    IsTagged (unlines ls) := by
  induction ls with
  | nil => exact absurd rfl hne
  | cons l ls ih =>
    have hl := h l (by simp)
    cases ls with
    | nil => simpa using hl
    | cons k ls =>
      obtain ⟨u, rfl⟩ := hl
      obtain ⟨v, hv⟩ := ih (by simp) fun m hm => h m (List.mem_cons_of_mem _ hm)
      exact ⟨u ++ '>' :: '\n' :: '<' :: v, by simp [unlines_cons, hv]⟩

theorem flatMap_break {ls : List Text} (hne : ls ≠ []) :
    ls.flatMap (· ++ ['\n']) = unlines ls ++ ['\n'] := by
  induction ls with
  | nil => exact absurd rfl hne
  | cons l ls ih =>
    cases ls with
    | nil => simp
    | cons k ls => rw [List.flatMap_cons, ih (by simp), unlines_cons, List.append_assoc,
        List.append_assoc, List.singleton_append, List.cons_append]

/-! ## The nodes of a section -/

/-- Unmarked text is text and nothing else. -/
theorem plainText?_inlineNodes {t : Text} (h : isPlainLine t) :
    plainText? (inlineNodes t) = some (escaped t) := by
  obtain ⟨_, _, -, -, -, -, -, hstar, hquote, -⟩ := isPlainLine_iff.1 h
  rw [inlineNodes, spans_plain hstar hquote]
  clear h hstar hquote
  induction t with
  | nil => rfl
  | cons c t ih => simp only [List.map_cons, Span.node, plainText?, ih, Option.map_some, escaped_cons]

theorem inlineHtml_isPlainLine {t : Text} (h : isPlainLine t) : inlineHtml t = escaped t := by
  obtain ⟨_, _, -, -, -, -, -, hstar, hquote, -⟩ := isPlainLine_iff.1 h
  exact inlineHtml_plain hstar hquote

theorem nodesOf_paragraphs (ts : List Text) :
    nodesOf (ts.map .paragraph) =
      ts.flatMap fun t => [.element "p" [] (inlineNodes t), .text "\n"] := by
  induction ts with
  | nil => rfl
  | cons t ts ih => rw [List.map_cons, nodesOf, ih, Block.node]; rfl

theorem htmlAll_paragraphs {ts : List Text} (h : ∀ t ∈ ts, isPlainLine t) :
    Block.htmlAll (ts.map .paragraph) = (ts.map paragraphHtml).flatMap (· ++ ['\n']) := by
  induction ts with
  | nil => rfl
  | cons t ts ih =>
    have hts := ih fun k hk => h k (List.mem_cons_of_mem t hk)
    rw [List.map_cons, Block.htmlAll, hts, Block.html, inlineHtml_isPlainLine (h t (by simp))]
    simp [paragraphHtml]

/-- Escaping makes no words that announce notes, for they hold nothing to escape. -/
theorem announcesNotes_escaped {t : Text} (h : announcesNotes t = false) :
    announcesNotes (escaped t) = false := by
  by_contra hyes
  rw [Bool.not_eq_false] at hyes
  have hno : '&' ∉ escaped t := fun hc => by
    rcases of_mem_announcesNotes hyes hc with hb | hb | hb
    · exact absurd hb (by decide)
    · exact absurd hb (by decide)
    · exact absurd hb (by decide)
  rw [escaped_eq_self hno, h] at hyes
  simp at hyes

namespace Section
variable (adornments : List Char) {s : Section}

theorem level_mem (s : Section) : s.level adornments ∈ [1, 2, 3, 4, 5, 6] :=
  levelOfRank_mem (Nat.succ_pos _)

/-- The node of the title of a section. -/
def titleNode (s : Section) : Node :=
  .element ("h" ++ decimal (s.level adornments)) [] (inlineNodes s.title)

def bodyNodes (s : Section) : List Node := .text "\n" :: nodesOf (s.paragraphs.map .paragraph)

def nodes (s : Section) : List Node := s.titleNode adornments :: s.bodyNodes

theorem nodesOf_blocks (s : Section) : nodesOf (s.blocks adornments) = s.nodes adornments := rfl

theorem headingLevel?_name (s : Section) :
    headingLevel? ("h" ++ decimal (s.level adornments)) = some (s.level adornments) := by
  have hall : [1, 2, 3, 4, 5, 6].all (fun k => headingLevel? ("h" ++ decimal k) = some k) := by cbv
  simpa using List.all_eq_true.1 hall _ (s.level_mem adornments)

theorem opensSlide_titleNode (h : s.isWellFormed) (splitLevel : Nat) :
    (s.titleNode adornments).opensSlide splitLevel = decide (s.level adornments ≤ splitLevel) := by
  obtain ⟨ht, hnotes, -, -⟩ := isWellFormed_iff.1 h
  rw [titleNode, Node.opensSlide, headingLevel?_name, plainText?_inlineNodes ht]
  simp [announcesNotes_escaped hnotes]

/-- Paragraphs start no slide. -/
theorem of_mem_bodyNodes {n : Node} (h : n ∈ s.bodyNodes) (splitLevel : Nat) :
    n.isRule = false ∧ n.opensSlide splitLevel = false := by
  have hp : headingLevel? "p" = none := by cbv
  rw [bodyNodes, nodesOf_paragraphs, List.mem_cons, List.mem_flatMap] at h
  rcases h with rfl | ⟨t, -, h⟩
  · exact ⟨rfl, rfl⟩
  · simp only [List.mem_cons, List.not_mem_nil, or_false] at h
    rcases h with rfl | rfl
    · exact ⟨rfl, by rw [Node.opensSlide, hp]; rfl⟩
    · exact ⟨rfl, rfl⟩

/-- The lines of the HTML of a section, each with its break. -/
theorem html_nodes (h : s.isWellFormed) :
    Forest.html (s.nodes adornments) = (s.html adornments).flatMap (· ++ ['\n']) := by
  obtain ⟨ht, -, -, hparagraphs⟩ := isWellFormed_iff.1 h
  rw [← nodesOf_blocks, html_nodesOf, blocks, Block.htmlAll, htmlAll_paragraphs hparagraphs,
    Block.html, inlineHtml_isPlainLine ht]
  simp [html, body, heading, level, levelOfRank]

theorem isTagged_html {l : Text} (h : l ∈ s.html adornments) : IsTagged l := by
  rw [html, List.mem_cons, body, List.mem_map] at h
  rcases h with rfl | ⟨t, -, rfl⟩
  · exact ⟨"h" ++ decimal (s.level adornments) ++ ">" ++ escaped s.title ++ "</h"
      ++ decimal (s.level adornments), by simp [heading]⟩
  · exact ⟨"p>" ++ escaped t ++ "</p", by simp [paragraphHtml]⟩

end Section

/-! ## The groups of the nodes -/

section Groups
variable (adornments : List Char) (splitLevel : Nat)

/-- The nodes of a slide. -/
def partNodes (p : Section × List Section) : List Node :=
  p.1.nodes adornments ++ p.2.flatMap (·.nodes adornments)

theorem partNodes_eq (p : Section × List Section) :
    partNodes adornments p = (p.1 :: p.2).flatMap (·.nodes adornments) := rfl

/-- The title of a section is no filler. -/
theorem isVacant_nodes (current : List Node) (s : Section) :
    (current ++ s.nodes adornments).all Node.isVacant = false := by
  simp [Section.nodes, Section.titleNode, Node.isVacant]

/-- A section up to the split level starts a group if the group under way is not vacant; a deeper one
joins that group. -/
theorem groups_nodes {s : Section} (h : s.isWellFormed) (current rest : List Node) :
    groups splitLevel current (s.nodes adornments ++ rest) =
      if s.level adornments ≤ splitLevel ∧ ¬current.all Node.isVacant then
        current :: groups splitLevel (s.nodes adornments) rest
      else groups splitLevel (current ++ s.nodes adornments) rest := by
  have hopens := Section.opensSlide_titleNode adornments h splitLevel
  have hquiet := fun n hn => Section.of_mem_bodyNodes (s := s) (n := n) hn splitLevel
  have hrule : (s.titleNode adornments).isRule = false := rfl
  rw [Section.nodes, List.cons_append, groups, if_neg (by simp [hrule]), hopens,
    groups_append hquiet, groups_append hquiet]
  simp

/-- Behind a group that is not vacant, deeper sections join it and the others start groups. -/
theorem groups_sections {ss : List Section} (h : ∀ s ∈ ss, s.isWellFormed) {current : List Node}
    (hcur : current.all Node.isVacant = false) :
    groups splitLevel current (ss.flatMap (·.nodes adornments)) =
      (current ++ (ss.takeWhile (splitLevel < ·.level adornments)).flatMap (·.nodes adornments)) ::
        (slideSections adornments splitLevel ss).map (partNodes adornments) := by
  induction ss generalizing current with
  | nil => simp [groups, slideSections]
  | cons s ss ih =>
    have hss := fun {cur} => @ih (fun k hk => h k (List.mem_cons_of_mem s hk)) cur
    rw [List.flatMap_cons, groups_nodes adornments splitLevel (h s (by simp)), slideSections,
      List.takeWhile_cons]
    by_cases hl : s.level adornments ≤ splitLevel
    · have hfront : (s.nodes adornments).all Node.isVacant = false := isVacant_nodes adornments [] s
      rw [if_pos ⟨hl, by simp [hcur]⟩, hss hfront, if_pos hl, if_neg (by simpa using hl)]
      simp [partNodes]
    · rw [if_neg fun hopens => hl hopens.1, hss (isVacant_nodes adornments current s), if_neg hl,
        if_pos (by simpa using hl)]
      simp

/-- The first section has the first adornment, so it starts the first slide. -/
theorem groups_document {s : Section} {ss : List Section} (h : ∀ k ∈ s :: ss, k.isWellFormed)
    (hlevel : s.level adornments ≤ splitLevel) :
    groups splitLevel [] ((s :: ss).flatMap (·.nodes adornments)) =
      (slideSections adornments splitLevel (s :: ss)).map (partNodes adornments) := by
  have hbehind := groups_sections adornments splitLevel
    (fun k hk => h k (List.mem_cons_of_mem s hk)) (isVacant_nodes adornments [] s)
  rw [List.flatMap_cons, groups_nodes adornments splitLevel (h s (by simp)), if_neg (by simp),
    hbehind, slideSections, if_pos hlevel]
  rfl

end Groups

/-! ## The fragments of the document -/

/-- The lines of a slide behind its heading. -/
def contentLines (adornments : List Char) (p : Section × List Section) : List Text :=
  p.1.body ++ p.2.flatMap (·.html adornments)

/-- The lines of a slide. -/
def slideLines (adornments : List Char) (p : Section × List Section) : List Text :=
  p.1.heading adornments :: contentLines adornments p

section Fragments
variable {adornments : List Char} {p : Section × List Section}

theorem slideLines_eq :
    slideLines adornments p = (p.1 :: p.2).flatMap (·.html adornments) := rfl

theorem isTagged_slideLines {l : Text} (h : l ∈ slideLines adornments p) : IsTagged l := by
  rw [slideLines_eq, List.mem_flatMap] at h
  obtain ⟨s, -, h⟩ := h
  exact Section.isTagged_html adornments h

/-- The lines of sections, each with its break. -/
theorem html_flatMap_nodes {ss : List Section} (h : ∀ s ∈ ss, s.isWellFormed) :
    Forest.html (ss.flatMap (·.nodes adornments)) =
      (ss.flatMap (·.html adornments)).flatMap (· ++ ['\n']) := by
  induction ss with
  | nil => rfl
  | cons s ss ih =>
    have hss := ih fun k hk => h k (List.mem_cons_of_mem s hk)
    rw [List.flatMap_cons, html_append, Section.html_nodes adornments (h s (by simp)), hss,
      List.flatMap_cons, List.flatMap_append]

theorem html_partNodes (h : ∀ s ∈ p.1 :: p.2, s.isWellFormed) :
    Forest.html (partNodes adornments p) = unlines (slideLines adornments p) ++ ['\n'] := by
  rw [partNodes_eq, html_flatMap_nodes h, ← slideLines_eq, flatMap_break (by simp [slideLines])]

/-- The HTML of a slide starts with a tag. -/
theorem isVacant_partNodes : Fragment.isVacant (Forest.html (partNodes adornments p)) = false := by
  have hname : isName ("h" ++ decimal (p.1.level adornments)) := by
    have hall : [1, 2, 3, 4, 5, 6].all (fun k => isName ("h" ++ decimal k)) := by cbv
    exact List.all_eq_true.1 hall _ (p.1.level_mem adornments)
  rw [partNodes, Section.nodes, Section.titleNode, List.cons_append, Forest.html, Node.html,
    List.append_assoc, isVacant_opened hname]

/-- A slide is a fragment without the break behind it. -/
theorem trim_partNodes (h : ∀ s ∈ p.1 :: p.2, s.isWellFormed) :
    trim (Forest.html (partNodes adornments p)) = unlines (slideLines adornments p) := by
  rw [html_partNodes h, trim_append_blank (by decide)]
  exact (IsTagged.unlines (by simp [slideLines]) fun l hl => isTagged_slideLines hl).trim_eq

end Fragments

theorem level_first (s : Section) (ss : List Section) : s.level (adornmentsOf (s :: ss)) = 1 := by
  simp [Section.level, adornmentsOf, List.eraseDups_cons]

theorem slideSections_ne_nil {ss : List Section} (hne : ss ≠ []) {splitLevel : Nat}
    (hsplit : 1 ≤ splitLevel) : slideSections (adornmentsOf ss) splitLevel ss ≠ [] := by
  obtain ⟨s, rest, rfl⟩ := List.exists_cons_of_ne_nil hne
  rw [slideSections, if_pos (Nat.le_trans (level_first s rest).le hsplit)]
  simp

/-- The nodes of a document of sections. -/
theorem nodesOf_printedSections {ss : List Section} (h : ∀ s ∈ ss, s.isWellFormed) :
    nodesOf (Block.ofSource (printedSections ss)) = ss.flatMap (·.nodes (adornmentsOf ss)) := by
  rw [ofSource_printedSections h]
  generalize adornmentsOf ss = as
  clear h
  induction ss with
  | nil => rfl
  | cons s ss ih =>
    rw [List.flatMap_cons, nodesOf_append, ih, List.flatMap_cons, Section.nodesOf_blocks]

/-- A document of sections is split into its slides. -/
theorem split_sections {ss : List Section} (hne : ss ≠ []) (h : ∀ s ∈ ss, s.isWellFormed)
    {splitLevel : Nat} (hsplit : 1 ≤ splitLevel) :
    Fragment.split (toHtml (printedSections ss)) splitLevel =
      (slideSections (adornmentsOf ss) splitLevel ss).map fun p =>
        unlines (slideLines (adornmentsOf ss) p) := by
  have hnodes := nodesOf_printedSections h
  have hwell : isWellFormed (nodesOf (Block.ofSource (printedSections ss))) :=
    isWellFormed_of_areQuoted areNames_elementNames _
      (areQuoted_nodesOf _ (areRead_blocks _ _ _ _))
  have hgroups : groups splitLevel [] (ss.flatMap (·.nodes (adornmentsOf ss))) =
      (slideSections (adornmentsOf ss) splitLevel ss).map (partNodes (adornmentsOf ss)) := by
    obtain ⟨s, rest, rfl⟩ := List.exists_cons_of_ne_nil hne
    exact groups_document _ splitLevel h (Nat.le_trans (level_first s rest).le hsplit)
  have hcut := @cut_html splitLevel [] _ rfl hwell
  rw [hnodes] at hwell
  rw [html_nodesOf, hnodes, hgroups, List.map_map, Forest.html] at hcut
  rw [toHtml, Fragment.split, hcut, List.filter_eq_self.2, List.map_map]
  · exact List.map_congr_left fun p hp => trim_partNodes (isWellFormed_of_mem_slideSections h hp)
  · intro f hf
    obtain ⟨p, -, rfl⟩ := List.mem_map.1 hf
    simp [isVacant_partNodes]

end Slideshow.Restructured
