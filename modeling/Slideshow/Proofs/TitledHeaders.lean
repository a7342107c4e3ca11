import Slideshow.Proofs.EmbeddedImages
import Slideshow.Proofs.PatternParts
import Slideshow.Proofs.ReassembledSlides
import Slideshow.Proofs.RepeatedPasses
import Slideshow.Proofs.SlideNumbers

/-!
# The title and the header of a slide

A heading gives a slide two fields: the header is the heading element, the title its inner markup. The
passes of a deck run on the header alone. So the title is what stood in the heading before the passes,
and the two say the same as long as the passes leave that text as it is.
-/
namespace Slideshow
open Text Markup

/-- The heading that a fragment is titled by is one heading element. -/
theorem Slide.header_ofFragment {fragment header : Text} {showNotes : Bool}
    (h : (Slide.ofFragment fragment showNotes).header = some header) :
    ∃ own, header = Heading.source own ∧ Heading.read? header = some (own, []) ∧
      (Slide.ofFragment fragment showNotes).title = some (trim own.inner) := by
  simp only [Slide.ofFragment] at h ⊢
  split at h
  · next before own after hfind =>
    obtain rfl : own.source = header := by simpa using h
    obtain ⟨u, -, hread, -⟩ := exists_of_scan ((Heading.find?_eq_scan _).symm.trans hfind)
    exact ⟨own, rfl, Heading.read?_eq_some_iff.2 ⟨by simp, (Heading.read?_eq_some_iff.1 hread).2⟩,
      by simp [Heading.title]⟩
  · simp at h

namespace Deck
variable {d : Deck} {store : Store} {source : Option Text} {fragment : Text} {s t : Slide}

theorem header_of_passHeader {header : Text} (h : (d.passHeader store source s).result = .ok t)
    (ht : t.header = some header) : t.title = s.title ∧
      ∃ own aside, s.header = some own ∧ (d.process store source own).result = .ok ⟨header, aside⟩ := by
  rw [passHeader] at h
  split at h
  · next hnone =>
    rw [← Except.ok.inj h, hnone] at ht
    simp at ht
  · next own hown =>
    obtain ⟨passed, hpassed, h⟩ := Outcome.bind_eq_ok_iff.1 h
    rw [← Except.ok.inj h] at ht ⊢
    obtain rfl : passed.content = header := by simpa using ht
    exact ⟨rfl, own, passed.sideData, hown, hpassed⟩

theorem header_of_passContent (h : (d.passContent store source s).result = .ok t) :
    t.header = s.header ∧ t.title = s.title := by
  rw [passContent] at h
  split at h
  · rw [← Except.ok.inj h]
    exact ⟨rfl, rfl⟩
  · obtain ⟨passed, -, h⟩ := Outcome.bind_eq_ok_iff.1 h
    rw [← Except.ok.inj h]
    exact ⟨rfl, rfl⟩

/-- The header of a slide is what the passes make of the heading, its title is that of the heading. -/
theorem header_of_slideOf {header : Text} (h : (d.slideOf store source fragment).result = .ok s)
    (hs : s.header = some header) : ∃ own aside,
      (Slide.ofFragment fragment d.settings.presenterNotes).header = some (Heading.source own) ∧
        Heading.read? own.source = some (own, []) ∧ s.title = some (trim own.inner) ∧
        (d.process store source own.source).result = .ok ⟨header, aside⟩ := by
  rw [slideOf] at h
  obtain ⟨headed, hheaded, h⟩ := Outcome.bind_eq_ok_iff.1 h
  obtain ⟨filled, hfilled, h⟩ := Outcome.bind_eq_ok_iff.1 h
  obtain ⟨hheader, htitle⟩ := header_of_passContent hfilled
  rw [← Except.ok.inj h] at hs ⊢
  have hs : headed.header = some header := hheader.symm.trans hs
  obtain ⟨hkept, own, aside, hown, hprocess⟩ := header_of_passHeader hheaded hs
  obtain ⟨heading, rfl, hread, hheading⟩ := Slide.header_ofFragment hown
  exact ⟨heading, aside, hown, hread, htitle.trans (hkept.trans hheading), hprocess⟩

/-- Where the header of a slide is one heading element, the title of the slide is that of the heading
before the passes. So it is the text of the header if and only if the passes have left that text as it
is, which the standard passes do to a heading without code and directives whose images are linked. -/
theorem title_of_slideOf {shown : Heading} (h : (d.slideOf store source fragment).result = .ok s)
    (hheader : s.header = some shown.source)
    (hone : Heading.read? shown.source = some (shown, [])) : ∃ own aside,
      (Slide.ofFragment fragment d.settings.presenterNotes).header = some (Heading.source own) ∧
      (d.process store source own.source).result = .ok ⟨shown.source, aside⟩ ∧
      s.title = some (trim own.inner) ∧
      (s.title = some (trim shown.inner) ↔ trim shown.inner = trim own.inner) ∧
      ∀ settings, d.pipeline = Pipeline.standard settings → settings.embed = false →
        occursIn "<pre" own.source = false → occursIn "<p>." own.source = false →
        (∀ directory, settings.relative = false →
          (Origin.mk store source).directory? = some directory →
            ∀ i ∈ Pass.Image.pattern.parts own.source, i.IsLinked directory) →
          s.title = some (trim shown.inner) := by
  obtain ⟨own, aside, hown, hread, htitle, hprocess⟩ := header_of_slideOf h hheader
  refine ⟨own, aside, hown, hprocess, htitle, by rw [htitle, Option.some.injEq, eq_comm], ?_⟩
  intro settings hpipeline hembed hcode hdirective hlinked
  have hlink := @Pass.run_linkImages_of_isLinked (settings.embed || settings.relative) ⟨store, source⟩
    own.source fun directory hkeep => hlinked directory (by simpa [hembed] using hkeep)
  have hpasses := run_standard_of_linked hembed hcode hlink hdirective
  rw [process, hpipeline, Pipeline.process, Pipeline.foldlM_step hpasses] at hprocess
  have hsource : own.source = shown.source := congrArg Passed.content (Except.ok.inj hprocess)
  rw [hsource, hone] at hread
  obtain ⟨rfl, -⟩ := Prod.mk.inj (Option.some.inj hread)
  exact htitle

/-- A deck beside an image, with the standard settings. -/
def linkedTalk : Deck where
  source := "talk.md"
  settings := {}
  dialect := .markdown
  text := []
  pipeline := Pipeline.standard {}

/-- A heading with the address of an image. -/
def pictured (address : Text) : Heading := ⟨'1', [], "A <img src=\"" ++ address ++ "\" />", '1'⟩

theorem process_pictured :
    linkedTalk.process (Pass.illustrated "dot.png").store (some "talk.md") (pictured "dot.png").source =
      pure ⟨(pictured "file:///deck/dot.png").source, []⟩ := by
  have hdirectory : (Pass.illustrated "dot.png").directory? = some ("/deck" : Text) := by cbv
  have hlink : Pass.Image.pattern.replace (fun i => (i.linked "/deck").spell)
      (pictured "dot.png").source = (pictured "file:///deck/dot.png").source := by
    rw [Pattern.replace, Pass.Image.pattern.split_eq_splitWithin 60 (by cbv)]
    cbv
  have hpre : occursIn "<pre" (pictured "dot.png").source = false := by cbv
  have hcode := run_code_of_not_occursIn hpre (Pass.illustrated "dot.png")
  have hlinked : (Pass.linkImages false).run (Pass.illustrated "dot.png") (pictured "dot.png").source =
      pure ⟨(pictured "file:///deck/dot.png").source, []⟩ := by
    simp only [Pass.linkImages, Bool.false_eq_true, if_false, hdirectory, hlink]
  have hembed : (Pass.embedImages false).run (Pass.illustrated "dot.png") (pictured "dot.png").source =
      pure ⟨(pictured "dot.png").source, []⟩ := rfl
  have hdot : occursIn "<p>." (pictured "file:///deck/dot.png").source = false := by cbv
  have hrest := run_directives hdot (Pass.illustrated "dot.png")
  have hpipeline : linkedTalk.pipeline = Pipeline.standard {} := rfl
  have horigin : Origin.mk (Pass.illustrated "dot.png").store (some "talk.md") =
      Pass.illustrated "dot.png" := rfl
  rw [process, hpipeline, horigin, Pipeline.process, Pipeline.passes_standard,
    Pipeline.foldlM_step_of_run hcode, Pipeline.foldlM_step_of_run hembed,
    Pipeline.foldlM_step_of_run hlinked]
  exact Pipeline.foldlM_step hrest

/-- The heading makes a slide, with a link in its header and without one in its title. -/
theorem slideOf_pictured :
    linkedTalk.slideOf (Pass.illustrated "dot.png").store (some "talk.md") (pictured "dot.png").source =
      pure { title := some (trim (pictured "dot.png").inner)
             level := some 1
             header := some (pictured "file:///deck/dot.png").source
             source := facts (Pass.illustrated "dot.png").store "talk.md" } := by
  have hparts : Slide.ofFragment (pictured "dot.png").source linkedTalk.settings.presenterNotes =
      { title := some (trim (pictured "dot.png").inner)
        level := some 1
        header := some (pictured "dot.png").source } := by cbv
  simp only [slideOf, hparts, passHeader, process_pictured, pure_bind]
  rfl

/-- The header of that slide is one heading element. -/
theorem read?_pictured : Heading.read? (pictured "file:///deck/dot.png").source =
    some (pictured "file:///deck/dot.png", []) := by cbv

theorem title_of_slideOf_pictured :
    ∃ s own, (linkedTalk.slideOf (Pass.illustrated "dot.png").store (some "talk.md")
        (pictured "dot.png").source).result = .ok s ∧
      s.header = some (pictured "file:///deck/dot.png").source ∧
      (Slide.ofFragment (pictured "dot.png").source true).header = some (Heading.source own) ∧
      s.title = some (trim own.inner) := by
  obtain ⟨own, aside, hown, -, htitle, -⟩ := title_of_slideOf
    (congrArg Outcome.result slideOf_pictured) rfl read?_pictured
  exact ⟨_, own, congrArg Outcome.result slideOf_pictured, rfl, hown, htitle⟩

/-- The title of that slide is not the text of its header. -/
theorem title_ne_of_pictured :
    ∃ s, (linkedTalk.slideOf (Pass.illustrated "dot.png").store (some "talk.md")
        (pictured "dot.png").source).result = .ok s ∧
      s.header = some (pictured "file:///deck/dot.png").source ∧
      Heading.read? (pictured "file:///deck/dot.png").source =
        some (pictured "file:///deck/dot.png", []) ∧
      s.title ≠ some (trim (pictured "file:///deck/dot.png").inner) := by
  refine ⟨_, congrArg Outcome.result slideOf_pictured, rfl, read?_pictured, ?_⟩
  have hne : trim (pictured "dot.png").inner ≠ trim (pictured "file:///deck/dot.png").inner := by
    decide +kernel
  exact fun h => hne (Option.some.inj h)

end Deck

end Slideshow
