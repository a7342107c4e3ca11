import Slideshow.Deck.Render
import Slideshow.Proofs.EmittedPage
import Slideshow.Proofs.PassCalls
import Slideshow.Proofs.SectionSlides
import Slideshow.Proofs.StoreChanges

/-!
# The first failure of a deck

A deck fails at the first call of a pass that fails. Nothing is reported after that, and nothing is
written. A deck that does not fail leaves its page at its destination and all else as it was.
-/
namespace Slideshow.Deck
variable (d : Deck) (store : Store)

/-- Some pass fails on what the passes before it have left of some text. -/
theorem exists_error_slides_iff :
    (∃ e, (d.slides store).result = .error e) ↔
      ∃ content ∈ d.passedTexts, ∃ before pass after passed e,
        d.pipeline.passes = before ++ pass :: after ∧
        (Pipeline.process ⟨before⟩ (d.origin store) content).result = .ok passed ∧
        (pass.run (d.origin store) passed.content).result = .error e := by
  have hslides : (∃ e, (d.slides store).result = .error e) ↔
      ∃ e, (Call.runAll (d.origin store) (d.calls store)).result = .error e := by
    constructor
    · rintro ⟨e, h⟩
      refine ⟨e, ?_⟩
      rw [(d.slides_eq_error_iff store).1
        (show d.slides store = ⟨(d.slides store).messages, .error e⟩ by rw [← h])]
    · rintro ⟨e, h⟩
      refine ⟨e, ?_⟩
      rw [(d.slides_eq_error_iff store).2
        (show Call.runAll _ _ = ⟨(Call.runAll _ _).messages, .error e⟩ by rw [← h])]
  rw [hslides, Call.exists_error_runAll_iff]
  simp only [calls, List.mem_flatMap, Pipeline.mem_callsOf_iff]
  constructor
  · rintro ⟨c, ⟨content, hcontent, before, after, passed, hpasses, hbefore, hc⟩, e, he⟩
    exact ⟨content, hcontent, before, c.pass, after, passed, e, hpasses, hbefore, by
      rw [hc]
      exact he⟩
  · rintro ⟨content, hcontent, before, pass, after, passed, e, hpasses, hbefore, he⟩
    exact ⟨⟨pass, passed.content⟩,
      ⟨content, hcontent, before, after, passed, hpasses, hbefore, rfl⟩, e, he⟩

/-- Without slides there is no page. -/
theorem render_of_error {messages : List Message} {e : Failure}
    (h : d.slides store = ⟨messages, .error e⟩) : d.render store = ⟨messages, .error e⟩ := by
  rw [render, h]
  rfl

/-- Without a page nothing is written. -/
theorem publish_of_error {messages : List Message} {e : Failure}
    (h : d.render store = ⟨messages, .error e⟩) :
    d.publish store = (store, ⟨messages, .error e⟩) := by
  rw [publish, h]

/-- A page that is published was rendered, and saved at its destination. -/
theorem of_publish {path : Text} (h : (d.publish store).2.result = .ok path) :
    path = d.settings.destination ∧ ∃ html, (d.render store).result = .ok html ∧
      store.save path (Utf8.encode html) = ((d.publish store).1, .ok ()) := by
  rw [publish] at h ⊢
  split at h
  · simp at h
  · next html hhtml =>
    rw [hhtml]
    dsimp only at h ⊢
    cases hsaved : (store.save d.settings.destination (Utf8.encode html)).2 with
    | error failure => simp [hsaved, Outcome.ofExcept, bind] at h
    | ok _ =>
      obtain rfl : d.settings.destination = path := by
        simpa [hsaved, Outcome.ofExcept, Outcome.report, bind, pure] using h
      exact ⟨rfl, html, rfl, by rw [← hsaved]⟩

/-- The slides of a deck fail if some pass fails on what the passes before it have left of a header or
a content. Then the failure is that of the first call that fails, the messages are those of the calls
up to it, and rendering and publishing fail in the same way and change nothing. If a deck is
published, its destination holds the rendered page, and all other files are as they were. -/
theorem fails_first_or_published :
    ((∃ e, (d.slides store).result = .error e) ↔
      ∃ content ∈ d.passedTexts, ∃ before pass after passed e,
        d.pipeline.passes = before ++ pass :: after ∧
        (Pipeline.process ⟨before⟩ (d.origin store) content).result = .ok passed ∧
        (pass.run (d.origin store) passed.content).result = .error e) ∧
    (∀ e, (d.slides store).result = .error e →
      (∃ before c after, d.calls store = before ++ c :: after ∧
        (∀ b ∈ before, ∃ passed, (b.run (d.origin store)).result = .ok passed) ∧
        (c.run (d.origin store)).result = .error e ∧
        (d.slides store).messages =
          (before ++ [c]).flatMap fun b => (b.run (d.origin store)).messages) ∧
      d.render store = ⟨(d.slides store).messages, .error e⟩ ∧
      d.publish store = (store, ⟨(d.slides store).messages, .error e⟩)) ∧
    ∀ path, (d.publish store).2.result = .ok path →
      path = d.settings.destination ∧ ∃ html, (d.render store).result = .ok html ∧
        (d.publish store).1.read path = .ok (Utf8.encode html) ∧
        ∀ other bytes, store.read other = .ok bytes →
          (d.publish store).1.read other = .ok bytes ∨
            (d.publish store).1.locate other = (d.publish store).1.locate path := by
  refine ⟨d.exists_error_slides_iff store, fun e he => ?_, fun path hpath => ?_⟩
  · have hslides : d.slides store = ⟨(d.slides store).messages, .error e⟩ := by rw [← he]
    have hrender := d.render_of_error store hslides
    exact ⟨Call.runAll_eq_error_iff.1 ((d.slides_eq_error_iff store).1 hslides), hrender,
      d.publish_of_error store hrender⟩
  · obtain ⟨hdestination, html, hhtml, hsave⟩ := d.of_publish store hpath
    obtain ⟨hread, hothers⟩ := Store.of_save hsave
    exact ⟨hdestination, html, hhtml, hread, hothers⟩

/-- A pass that reports every text and refuses those with a word. -/
def refusing (word : Text) : Pass where
  name := "refuse"
  run _ content := do
    Outcome.report .notice ("Read " ++ content)
    if Text.occursIn word content then Outcome.report .error ("Refused " ++ content)
    pure ⟨content, []⟩

/-- The sample with a pass that refuses the content of its second slide. -/
def refusedDeck : Deck := { sampleDeck with pipeline := ⟨[refusing "Three"]⟩ }

theorem slides_refusedDeck : refusedDeck.slides sampleStore = ⟨[
    ⟨.notice, "Read <h1>A &amp; B</h1>"⟩, ⟨.notice, "Read <p>One.</p>\n<p>Two</p>"⟩,
    ⟨.notice, "Read <h2>C</h2>"⟩, ⟨.notice, "Read <h3>D</h3>\n<p>Three</p>"⟩,
    ⟨.error, "Refused <h3>D</h3>\n<p>Three</p>"⟩],
    .error (.user "Refused <h3>D</h3>\n<p>Three</p>")⟩ := by
  have hwell : ∀ s ∈ sampleSections, s.isWellFormed := List.all_eq_true.1 (by cbv)
  have hfragments := @Restructured.split_sections sampleSections (by simp [sampleSections]) hwell
    refusedDeck.settings.splitLevel (by decide)
  have hhtml : refusedDeck.html =
      Restructured.toHtml (Restructured.printedSections sampleSections) := rfl
  rw [slides, hhtml, hfragments]
  cbv

theorem result_publish_sampleDeck :
    (sampleDeck.publish sampleStore).2.result = .ok "presentation.html" := by
  obtain ⟨out, hout, -⟩ := Page.exists_emitAll?_standard (sampleDeck.page sampleSlides)
  have hrender : (sampleDeck.render sampleStore).result = .ok (Template.spelled out) := by
    rw [render, slides_sampleDeck, pure_bind]
    exact Page.render_of_emitAll? hout
  have hsave : ∀ bytes, (sampleStore.save "presentation.html" bytes).2 = .ok () := fun bytes => by
    cbv
  rw [publish, hrender]
  dsimp only
  rw [show sampleDeck.settings.destination = "presentation.html" from rfl, hsave]
  rfl

/-- One sample fails at its fourth call and changes nothing, the other is published. -/
theorem fails_first_or_published_samples :
    (∃ e, (refusedDeck.slides sampleStore).result = .error e ∧
      (∃ before c after, refusedDeck.calls sampleStore = before ++ c :: after ∧
        (∀ b ∈ before, ∃ passed, (b.run (refusedDeck.origin sampleStore)).result = .ok passed) ∧
        (c.run (refusedDeck.origin sampleStore)).result = .error e) ∧
      refusedDeck.publish sampleStore =
        (sampleStore, ⟨(refusedDeck.slides sampleStore).messages, .error e⟩)) ∧
    (sampleDeck.publish sampleStore).2.result = .ok "presentation.html" ∧
    ∃ html, (sampleDeck.render sampleStore).result = .ok html ∧
      (sampleDeck.publish sampleStore).1.read "presentation.html" = .ok (Utf8.encode html) := by
  obtain ⟨-, hfails, -⟩ := fails_first_or_published refusedDeck sampleStore
  obtain ⟨-, -, hpublished⟩ := fails_first_or_published sampleDeck sampleStore
  have hresult : (refusedDeck.slides sampleStore).result =
      .error (.user "Refused <h3>D</h3>\n<p>Three</p>") := by rw [slides_refusedDeck]
  obtain ⟨⟨before, c, after, hcalls, hbefore, hc, -⟩, -, hunchanged⟩ := hfails _ hresult
  obtain ⟨-, html, hhtml, hread, -⟩ := hpublished _ result_publish_sampleDeck
  exact ⟨⟨_, hresult, ⟨before, c, after, hcalls, hbefore, hc⟩, hunchanged⟩,
    result_publish_sampleDeck, html, hhtml, hread⟩

end Slideshow.Deck
