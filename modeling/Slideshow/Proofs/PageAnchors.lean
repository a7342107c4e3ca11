import Slideshow.Deck.Render
import Slideshow.Proofs.EmittedPage
import Slideshow.Proofs.OutlineDepth
import Slideshow.Proofs.SectionSlides
import Slideshow.Proofs.SlideNumbers

/-!
# The anchors of a page

The slides of a deck, its outline and its page agree on the numbers of the slides: all have them from
one up in the order of the document. No entry of the outline is deeper than its level, and every link
of the page leads to one of its sections.
-/
namespace Slideshow
open Text Template
open Template.Node (emitAll?)

/-! ## Numbers -/

theorem Slide.map_number_numbered (slides : List Slide) :
    (Slide.numbered slides).map Slide.number = List.range' 1 slides.length := by
  refine List.ext_getElem (by simp [Slide.numbered]) fun i _ _ => ?_
  simp [Slide.numbered, Nat.add_comm]

theorem Text.decimal_injective : Function.Injective decimal := by
  intro m n h
  have hvalue : ∀ k, Nat.ofDigitChars 10 (decimal k) 0 = k := fun k =>
    Nat.ofDigitChars_toDigits (by decide) (by decide)
  rw [← hvalue m, ← hvalue n, h]

namespace Outline
open Node (entriesOf depthsOf)

theorem entriesOf_eq_flatMap (ns : List Node) : entriesOf ns = ns.flatMap Node.entries := by
  induction ns with
  | nil => rfl
  | cons n ns ih => rw [entriesOf, ih, List.flatMap_cons]

theorem mem_entriesOf_of_mem_entriesWithin {depth : Nat} {ns : List Node} {e : Entry}
    (h : e ∈ Page.entriesWithin depth ns) : e ∈ entriesOf ns := by
  induction depth generalizing ns with
  | zero => simp [Page.entriesWithin] at h
  | succ depth ih =>
    rw [Page.entriesWithin] at h
    obtain ⟨⟨f, children⟩, hn, he⟩ := List.mem_flatMap.1 h
    rw [entriesOf_eq_flatMap]
    refine List.mem_flatMap.2 ⟨⟨f, children⟩, hn, ?_⟩
    rw [Node.entries]
    rcases List.mem_cons.1 he with rfl | he
    · exact List.mem_cons_self
    · exact List.mem_cons_of_mem f (ih he)

section Slides
variable (deepest : Nat) (slides : List Slide)

theorem entriesOf_ofSlides :
    entriesOf (ofSlides deepest slides) = slides.map (entryOf deepest) := entriesOf_built _

/-- The outline has an entry for every slide, in the order of the slides. -/
theorem map_number_entriesOf_ofSlides :
    (entriesOf (ofSlides deepest slides)).map (·.number) = slides.map (·.number) := by
  rw [entriesOf_ofSlides, List.map_map]
  exact List.map_congr_left fun s _ => number_entryOf deepest s

variable {deepest slides} in
/-- The depth of an entry of an outline of slides is bounded by its level, and so by the deepest one. -/
theorem depth_le_of_ofSlides (h : ∀ s ∈ slides, ∀ level, s.level = some level → 1 ≤ level) :
    ∀ p ∈ depthsOf 1 (ofSlides deepest slides), p.1 ≤ p.2.level ∧ p.1 ≤ max 1 deepest := by
  have hlevel : ∀ e ∈ slides.map (entryOf deepest), 1 ≤ e.level ∧ e.level ≤ max 1 deepest := by
    intro e he
    obtain ⟨s, hs, rfl⟩ := List.mem_map.1 he
    exact level_entryOf deepest (h s hs)
  intro p hp
  have hdepth := depth_le_of_areAbove (Nat.le_refl 1) _
    (areAbove_ofEntries fun e he => (hlevel e he).1) p hp
  have hentry : p.2 ∈ entriesOf (ofSlides deepest slides) := by
    rw [← map_snd_depthsOf 1]
    exact List.mem_map_of_mem hp
  rw [entriesOf_ofSlides] at hentry
  exact ⟨hdepth, Nat.le_trans hdepth (hlevel p.2 hentry).2⟩

end Slides

end Outline

/-! ## The page of a deck -/

namespace Deck
variable {d : Deck} {store : Store} {slides : List Slide}

theorem exists_of_mem_mapM {α β : Type} {f : α → Outcome β} {as : List α} {bs : List β}
    (h : (as.mapM f).result = .ok bs) : ∀ b ∈ bs, ∃ a ∈ as, (f a).result = .ok b := by
  induction as generalizing bs with
  | nil =>
    obtain rfl : [] = bs := Except.ok.inj h
    simp
  | cons a as ih =>
    rw [List.mapM_cons] at h
    obtain ⟨b, hb, h⟩ := Outcome.bind_eq_ok_iff.1 h
    obtain ⟨rest, hrest, h⟩ := Outcome.bind_eq_ok_iff.1 h
    rw [← Except.ok.inj h]
    intro c hc
    rcases List.mem_cons.1 hc with rfl | hc
    · exact ⟨a, by simp, hb⟩
    · obtain ⟨e, he, hce⟩ := ih hrest c hc
      exact ⟨e, List.mem_cons_of_mem a he, hce⟩

theorem map_number_slides (h : (d.slides store).result = .ok slides) :
    slides.map (·.number) = List.range' 1 slides.length := by
  obtain ⟨made, -, rfl⟩ := of_slides h
  rw [Slide.map_number_numbered]
  simp [Slide.numbered]

/-- Of every slide something is left. -/
theorem shows_of_mem_slides (h : (d.slides store).result = .ok slides) :
    ∀ s ∈ slides, s.header.isSome ∨ s.content ≠ [] ∨ s.rawNotes.isSome := by
  obtain ⟨made, -, rfl⟩ := of_slides h
  intro s hs
  obtain ⟨t, ht, hst⟩ := Slide.exists_of_mem_numbered hs
  have hleft : t.isLeftOut = false := by simpa using List.of_mem_filter ht
  rw [hst]
  exact Slide.isLeftOut_eq_false_iff.1 hleft

/-- A slide with a level has one of a heading. -/
theorem one_le_level_of_slides (h : (d.slides store).result = .ok slides) :
    ∀ s ∈ slides, ∀ level, s.level = some level → 1 ≤ level := by
  obtain ⟨made, hmade, rfl⟩ := of_slides h
  intro s hs level hlevel
  obtain ⟨t, ht, hst⟩ := Slide.exists_of_mem_numbered hs
  obtain ⟨fragment, -, hfragment⟩ := exists_of_mem_mapM hmade t (List.mem_of_mem_filter ht)
  rw [hst] at hlevel
  exact Slide.one_le_level_of_ofFragment ((level_of_slideOf hfragment).symm.trans hlevel)

/-- The slides of a deck are those that its fragments make and of which something is left, numbered
from one up. Its outline has the same numbers in the same order, with no entry deeper than its level
or the deepest level. The page has one section for each number in order, and its links lead to them. -/
theorem numbers_agree (h : (d.slides store).result = .ok slides) :
    (∃ made, ((Fragment.split d.html d.settings.splitLevel).mapM
        (d.slideOf store (some d.source))).result = .ok made ∧
      slides = Slide.numbered (made.filter (!·.isLeftOut))) ∧
    slides.map (·.number) = List.range' 1 slides.length ∧
    (∀ s ∈ slides, s.header.isSome ∨ s.content ≠ [] ∨ s.rawNotes.isSome) ∧
    (Outline.Node.entriesOf (d.outline slides)).map (·.number) = List.range' 1 slides.length ∧
    (∀ p ∈ Outline.Node.depthsOf 1 (d.outline slides),
      p.1 ≤ p.2.level ∧ p.1 ≤ max 1 d.settings.maxTocLevel) ∧
    ∃ out, emitAll? ⟨[], (d.page slides).values⟩ Page.standard = some out ∧
      (d.page slides).render none = .ok (spelled out) ∧
      (d.settings.template = none → (d.render store).result = .ok (spelled out)) ∧
      valuesIn "section" "id" out =
        (List.range' 1 slides.length).map (fun i => some ("slide-" ++ decimal i)) ∧
      (valuesIn "section" "id" out).Nodup ∧
      ∀ link ∈ valuesIn "a" "href" out,
        ∃ id, some id ∈ valuesIn "section" "id" out ∧ link = some ("#" ++ id) := by
  have hnumbers := map_number_slides h
  have houtline := (Outline.map_number_entriesOf_ofSlides d.settings.maxTocLevel slides).trans hnumbers
  obtain ⟨out, hout, hsections, hlinks⟩ := Page.exists_emitAll?_standard (d.page slides)
  have hids : valuesIn "section" "id" out =
      (List.range' 1 slides.length).map fun i => some ("slide-" ++ decimal i) := by
    rw [hsections.valuesIn, ← hnumbers, List.map_map]
    rfl
  have hrender := Page.render_of_emitAll? hout
  refine ⟨of_slides h, hnumbers, shows_of_mem_slides h, houtline,
    Outline.depth_le_of_ofSlides (one_le_level_of_slides h), out, hout, hrender, ?_, hids, ?_, ?_⟩
  · intro htemplate
    rw [render, Outcome.bind_of_ok h, htemplate]
    exact hrender
  · rw [hids]
    refine List.Nodup.map ?_ List.nodup_range'
    intro i j hij
    exact decimal_injective (List.append_cancel_left (Option.some.inj hij))
  · rw [hlinks.valuesIn, hids]
    intro link hlink
    obtain ⟨e, he, rfl⟩ := List.mem_map.1 hlink
    have hnumber : e.number ∈ List.range' 1 slides.length := by
      rw [← houtline]
      exact List.mem_map_of_mem (Outline.mem_entriesOf_of_mem_entriesWithin he)
    exact ⟨_, List.mem_map_of_mem hnumber, by simp⟩

theorem numbers_agree_sampleDeck : (sampleDeck.slides sampleStore).result = .ok sampleSlides ∧
    sampleSlides.map (·.number) = [1, 2, 3] ∧
    (Outline.Node.entriesOf (sampleDeck.outline sampleSlides)).map (·.number) = [1, 2, 3] ∧
    (∀ p ∈ Outline.Node.depthsOf 1 (sampleDeck.outline sampleSlides), p.1 ≤ p.2.level ∧ p.1 ≤ 1) ∧
    ∃ out, (sampleDeck.render sampleStore).result = .ok (spelled out) ∧
      valuesIn "section" "id" out = [1, 2, 3].map (fun i => some ("slide-" ++ decimal i)) ∧
      ∀ link ∈ valuesIn "a" "href" out,
        ∃ id, some id ∈ valuesIn "section" "id" out ∧ link = some ("#" ++ id) := by
  have hslides : (sampleDeck.slides sampleStore).result = .ok sampleSlides := by
    rw [slides_sampleDeck]
    rfl
  obtain ⟨-, hnumbers, -, houtline, hdepth, out, -, -, hrender, hids, -, hlinks⟩ :=
    numbers_agree hslides
  exact ⟨hslides, hnumbers, houtline, hdepth, out, hrender rfl, hids, hlinks⟩

end Deck

end Slideshow
