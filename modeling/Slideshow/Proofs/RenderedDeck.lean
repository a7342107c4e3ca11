import Slideshow.Deck.Render
import Slideshow.Proofs.EmittedPage
import Slideshow.Proofs.PassCalls
import Slideshow.Proofs.SectionSlides

/-!
# Decks that can be rendered

What can be wrong with a deck is found when it is loaded. After that the standard passes only warn,
and the built-in page has a text for whatever it is filled with. So a loaded deck has its slides and
its page, also when passes and assets were added to it and when some of these additions failed.
-/
namespace Slideshow
open Text

/-! ## Actions that only warn -/

namespace Outcome
variable {α β : Type} {x : Outcome α}

/-- An action has a value, and all that it reports are warnings. -/
structure OnlyWarns (x : Outcome α) : Prop where
  value : ∃ a, x.result = .ok a
  warning : ∀ m ∈ x.messages, m.severity = .warning

namespace OnlyWarns

theorem pure (a : α) : OnlyWarns (Pure.pure a : Outcome α) where
  value := ⟨a, rfl⟩
  warning := by simp [Pure.pure]

theorem report (text : Text) : OnlyWarns (Outcome.report .warning text) where
  value := ⟨(), rfl⟩
  warning := by simp [Outcome.report]

theorem bind (h : OnlyWarns x) {f : α → Outcome β} (hf : ∀ a, OnlyWarns (f a)) :
    OnlyWarns (x >>= f) := by
  obtain ⟨a, ha⟩ := h.value
  rw [bind_of_ok ha]
  refine ⟨(hf a).value, fun m hm => ?_⟩
  rcases List.mem_append.1 hm with hm | hm
  · exact h.warning m hm
  · exact (hf a).warning m hm

theorem map (h : OnlyWarns x) (f : α → β) : OnlyWarns (f <$> x) := by
  rw [map_eq_pure_bind]
  exact h.bind fun a => .pure (f a)

theorem foldlM {ι : Type} {f : α → ι → Outcome α} {xs : List ι}
    (h : ∀ i ∈ xs, ∀ a, OnlyWarns (f a i)) (a : α) : OnlyWarns (xs.foldlM f a) := by
  induction xs generalizing a with
  | nil => exact .pure a
  | cons i xs ih =>
    rw [List.foldlM_cons]
    exact (h i (by simp) a).bind (ih fun j hj => h j (List.mem_cons_of_mem i hj))

theorem mapM {f : α → Outcome β} (h : ∀ a, OnlyWarns (f a)) (as : List α) :
    OnlyWarns (as.mapM f) := by
  induction as with
  | nil => exact .pure []
  | cons a as ih =>
    rw [List.mapM_cons]
    exact (h a).bind fun b => ih.bind fun bs => .pure (b :: bs)

end OnlyWarns

end Outcome

open Outcome (OnlyWarns)

/-! ## The standard passes -/

namespace Pass

/-- An image that cannot be put into the page is a warning. -/
theorem onlyWarns_embedded (origin : Origin) (i : Image) : OnlyWarns (i.embedded origin) := by
  rw [Image.embedded]
  split
  · exact .pure i
  · dsimp only
    split
    · exact (OnlyWarns.report _).bind fun _ => .pure i
    · split
      · exact (OnlyWarns.report _).bind fun _ => .pure i
      · exact .pure _

theorem onlyWarns_embedImages (embed : Bool) (origin : Origin) (content : Text) :
    OnlyWarns ((embedImages embed).run origin content) := by
  simp only [embedImages]
  split
  · refine (OnlyWarns.mapM (fun part => ?_) _).bind fun parts => .pure _
    cases part with
    | inl c => exact .pure [c]
    | inr i => exact (onlyWarns_embedded origin i).map _
  · exact .pure _

/-- No standard pass fails, whatever it is run on. -/
theorem onlyWarns_of_standard? {settings : Settings} {name : Text} {pass : Pass}
    (h : standard? settings name = some pass) (origin : Origin) (content : Text) :
    OnlyWarns (pass.run origin content) := by
  have hpass := List.mem_of_find?_eq_some h
  simp only [List.mem_cons, List.not_mem_nil, or_false] at hpass
  rcases hpass with rfl | rfl | rfl | rfl | rfl | rfl
  · exact .pure _
  · exact onlyWarns_embedImages settings.embed origin content
  · exact .pure _
  · exact .pure _
  · exact .pure _
  · exact .pure _

end Pass

namespace Pipeline

/-- All passes are standard passes. -/
def IsStandard (settings : Settings) (p : Pipeline) : Prop :=
  ∀ pass ∈ p.passes, ∃ name, Pass.standard? settings name = some pass

section Standard
variable {settings : Settings} {p q : Pipeline}

theorem isStandard_empty (settings : Settings) : IsStandard settings empty := by
  simp [IsStandard, empty]

theorem isStandard_standard (settings : Settings) : IsStandard settings (standard settings) := by
  intro pass hpass
  obtain ⟨name, -, hname⟩ := List.mem_filterMap.1 hpass
  exact ⟨name, hname⟩

theorem IsStandard.registerNamed {name : Text} (hp : IsStandard settings p)
    (h : p.registerNamed settings name = .ok q) : IsStandard settings q := by
  rw [Pipeline.registerNamed] at h
  split at h
  · simp at h
  · next pass hpass =>
    rw [register] at h
    split at h
    · simp at h
    · obtain rfl := Except.ok.inj h
      intro other hother
      rcases List.mem_append.1 hother with hother | hother
      · exact hp other hother
      · obtain rfl := List.mem_singleton.1 hother
        exact ⟨name, hpass⟩

private theorem IsStandard.foldlM_registerNamed {names : List Text} (hp : IsStandard settings p)
    (h : names.foldlM (Pipeline.registerNamed settings) p = .ok q) : IsStandard settings q := by
  induction names generalizing p with
  | nil =>
    obtain rfl := Except.ok.inj h
    exact hp
  | cons name names ih =>
    rw [List.foldlM_cons] at h
    cases hfirst : p.registerNamed settings name with
    | error e =>
      rw [hfirst] at h
      cases h
    | ok first =>
      rw [hfirst] at h
      exact ih (hp.registerNamed hfirst) h

theorem isStandard_of_ofSettings (h : ofSettings settings = .ok p) : IsStandard settings p := by
  rw [ofSettings] at h
  split at h
  · exact (isStandard_empty settings).foldlM_registerNamed h
  · obtain rfl := Except.ok.inj h
    exact isStandard_standard settings

theorem IsStandard.onlyWarns_process (h : IsStandard settings p) (origin : Origin)
    (content : Text) :
    OnlyWarns (p.process origin content) := by
  refine OnlyWarns.foldlM (fun pass hpass passed => ?_) _
  obtain ⟨name, hname⟩ := h pass hpass
  exact (Pass.onlyWarns_of_standard? hname origin passed.content).bind fun after => .pure _

end Standard

end Pipeline

/-! ## The slides of a deck -/

namespace Deck
variable {d : Deck}

section Standard
variable {settings : Settings} (h : d.pipeline.IsStandard settings) (store : Store)
include h

theorem onlyWarns_passHeader (source : Option Text) (s : Slide) :
    OnlyWarns (d.passHeader store source s) := by
  rw [passHeader]
  split
  · exact .pure s
  · exact (h.onlyWarns_process _ _).bind fun _ => .pure _

theorem onlyWarns_passContent (source : Option Text) (s : Slide) :
    OnlyWarns (d.passContent store source s) := by
  rw [passContent]
  split
  · exact .pure s
  · exact (h.onlyWarns_process _ _).bind fun _ => .pure _

theorem onlyWarns_slideOf (source : Option Text) (fragment : Text) :
    OnlyWarns (d.slideOf store source fragment) :=
  (onlyWarns_passHeader h store source _).bind fun _ =>
    (onlyWarns_passContent h store source _).bind fun _ => .pure _

theorem onlyWarns_slides : OnlyWarns (d.slides store) := by
  refine (OnlyWarns.foldlM (fun fragment _ slides => ?_) _).bind fun slides => ?_
  · exact (onlyWarns_slideOf h store _ fragment).map _
  · dsimp only
    split
    · exact (OnlyWarns.report _).bind fun _ => .pure slides
    · exact .pure slides

end Standard

/-! ## Loading and adding -/

/-- What a deck was loaded from. -/
theorem of_load {store : Store} {settings : Settings} {source : Text}
    (h : (load store settings source).result = .ok d) : ∃ dialect encoding pipeline bytes,
      store.requireFile source = .ok () ∧ Dialect.ofPath source = .ok dialect ∧
      settings.encoding.mapM Encoding.resolve = .ok encoding ∧
      Pipeline.ofSettings settings = .ok pipeline ∧ store.read source = .ok bytes ∧
      d = { source, settings, dialect, pipeline,
            text := (Encoding.decodeSource bytes encoding).text } := by
  rw [load] at h
  obtain ⟨_, hfile, h⟩ := Outcome.bind_eq_ok_iff.1 h
  obtain ⟨dialect, hdialect, h⟩ := Outcome.bind_eq_ok_iff.1 h
  obtain ⟨encoding, hencoding, h⟩ := Outcome.bind_eq_ok_iff.1 h
  obtain ⟨pipeline, hpipeline, h⟩ := Outcome.bind_eq_ok_iff.1 h
  obtain ⟨_, -, h⟩ := Outcome.bind_eq_ok_iff.1 h
  obtain ⟨bytes, hbytes, h⟩ := Outcome.bind_eq_ok_iff.1 h
  have hread : store.read source = .ok bytes := by
    cases hr : store.read source with
    | error fault => simp [Outcome.ofExcept, hr, Except.mapError] at hbytes
    | ok found => simpa [Outcome.ofExcept, hr, Except.mapError] using hbytes
  refine ⟨dialect, encoding, pipeline, bytes, hfile, hdialect, hencoding, hpipeline, hread, ?_⟩
  dsimp only at h
  split at h
  · obtain ⟨_, -, h⟩ := Outcome.bind_eq_ok_iff.1 h
    obtain ⟨_, -, h⟩ := Outcome.bind_eq_ok_iff.1 h
    exact (Except.ok.inj h).symm
  · obtain ⟨_, -, h⟩ := Outcome.bind_eq_ok_iff.1 h
    exact (Except.ok.inj h).symm

theorem isStandard_of_load {store : Store} {settings : Settings} {source : Text}
    (h : (load store settings source).result = .ok d) :
    d.settings = settings ∧ d.pipeline.IsStandard d.settings := by
  obtain ⟨_, _, _, _, -, -, -, hpipeline, -, rfl⟩ := of_load h
  exact ⟨rfl, Pipeline.isStandard_of_ofSettings hpipeline⟩

/-- A call that adds something to a deck: a standard pass by its name, or a file of the user that is
found in a store. -/
inductive Addition
  | pass (name : Text)
  | asset (store : Store) (kind : Asset.Kind) (path : Text)

def Addition.attempt (d : Deck) : Addition → Except Failure Deck
  | .pass name => d.registerNamed name
  | .asset store kind path => d.addAsset store kind path

/-- The deck after a call. One that fails leaves it as it was. -/
def adding (d : Deck) (a : Addition) : Deck := (a.attempt d).toOption.getD d

/-- Additions change neither the settings of a deck nor that its passes are standard ones. -/
theorem isStandard_adding (h : d.pipeline.IsStandard d.settings) (a : Addition) :
    (d.adding a).settings = d.settings ∧ (d.adding a).pipeline.IsStandard d.settings := by
  rw [adding]
  cases hd : a.attempt d with
  | error e => exact ⟨rfl, h⟩
  | ok after =>
    cases a with
    | pass name =>
      simp only [Addition.attempt, registerNamed] at hd
      cases hp : d.pipeline.registerNamed d.settings name with
      | error e => simp [hp, Except.map] at hd
      | ok p =>
        obtain rfl : { d with pipeline := p } = after := by simpa [hp, Except.map] using hd
        exact ⟨rfl, h.registerNamed hp⟩
    | asset store kind path =>
      simp only [Addition.attempt, addAsset] at hd
      cases hasset : Asset.load store kind path with
      | error e => simp [hasset, Except.map] at hd
      | ok asset =>
        simp only [hasset, Except.map, Except.ok.injEq] at hd
        cases kind with
        | css => exact hd ▸ ⟨rfl, h⟩
        | js => exact hd ▸ ⟨rfl, h⟩

theorem isStandard_foldl_adding (h : d.pipeline.IsStandard d.settings) (additions : List Addition) :
    (additions.foldl adding d).settings = d.settings ∧
      (additions.foldl adding d).pipeline.IsStandard d.settings := by
  induction additions generalizing d with
  | nil => exact ⟨rfl, h⟩
  | cons a additions ih =>
    obtain ⟨hsettings, hpipeline⟩ := isStandard_adding h a
    rw [← hsettings] at hpipeline ⊢
    exact ih hpipeline

end Deck

/-! ## The page -/

/-- The built-in page has a text, whatever it is filled with. -/
theorem Page.exists_render (p : Page) : ∃ html, p.render none = .ok html := by
  obtain ⟨out, hout, -⟩ := exists_emitAll?_standard p
  exact ⟨_, render_of_emitAll? hout⟩

namespace Deck

/-- A deck that was loaded with no template of its own has slides and a page after any additions, and
all that is reported on the way are warnings: no standard pass fails on any content, and the built-in
page has a text for anything that it is filled with. -/
theorem exists_render_of_load {store : Store} {settings : Settings} {source : Text} {d : Deck}
    (hload : (load store settings source).result = .ok d) (htemplate : settings.template = none) :
    (∀ (additions : List Addition) (store : Store), ∃ slides html,
      ((additions.foldl adding d).slides store).result = .ok slides ∧
      ((additions.foldl adding d).page slides).render none = .ok html ∧
      ((additions.foldl adding d).render store).result = .ok html ∧
      ∀ m ∈ ((additions.foldl adding d).render store).messages, m.severity = .warning) ∧
    (∀ settings name pass, Pass.standard? settings name = some pass →
      ∀ origin content, OnlyWarns (pass.run origin content)) ∧
    ∀ page : Page, ∃ html, page.render none = .ok html := by
  refine ⟨fun additions store => ?_, fun _ _ _ => Pass.onlyWarns_of_standard?, Page.exists_render⟩
  obtain ⟨hkept, hstandard⟩ := isStandard_of_load hload
  obtain ⟨hsettings, hstandard⟩ := isStandard_foldl_adding hstandard additions
  rw [hkept] at hsettings
  generalize additions.foldl adding _ = after at hsettings hstandard ⊢
  have hwarns := onlyWarns_slides hstandard store
  obtain ⟨slides, hslides⟩ := hwarns.value
  obtain ⟨html, hhtml⟩ := Page.exists_render (after.page slides)
  have hrender : after.render store = ⟨(after.slides store).messages, .ok html⟩ := by
    rw [render, Outcome.bind_of_ok hslides, hsettings, htemplate, hhtml]
    simp [Outcome.ofExcept]
  exact ⟨slides, html, hslides, hhtml, by rw [hrender], by rw [hrender]; exact hwarns.warning⟩

/-- A document with an image that is missing, and a style sheet beside it. -/
def illustratedStore : Store where
  home := ["w"]
  entries := [(["w"], .directory), (["w", "talk.rst"], .file (Utf8.encode ".. image:: lost.png\n")),
    (["w", "look.css"], .file (Utf8.encode "p \x7b\x7d"))]

/-- The deck of the sample with one pass of its own choice. -/
def illustratedDeck : Deck where
  source := "talk.rst"
  settings := { embed := true, passes := some ["fx"] }
  dialect := .restructuredText
  text := ".. image:: lost.png\n"
  pipeline := ⟨[Pass.effects]⟩

/-- Five additions, of which two succeed. -/
def illustratedAdditions : List Addition :=
  [.pass "fx", .pass "blink", .pass "embed_images", .asset illustratedStore .js "lost.js",
    .asset illustratedStore .css "look.css"]

theorem exists_render_illustrated :
    let after := illustratedAdditions.foldl adding illustratedDeck
    (load illustratedStore illustratedDeck.settings "talk.rst").result = .ok illustratedDeck ∧
      after.pipeline.names = ["fx", "embed_images"] ∧ after.userStyles.length = 1 ∧
      ∃ slides html, (after.slides illustratedStore).result = .ok slides ∧
        (after.page slides).render none = .ok html ∧
        (after.render illustratedStore).result = .ok html ∧
        ∀ m ∈ (after.render illustratedStore).messages, m.severity = .warning := by
  have hload : (load illustratedStore illustratedDeck.settings "talk.rst").result =
      .ok illustratedDeck := by
    have hread : illustratedStore.read "talk.rst" = .ok (Utf8.encode ".. image:: lost.png\n") := by
      cbv
    have htext : (Encoding.decodeSource (Utf8.encode ".. image:: lost.png\n") none).text =
        ".. image:: lost.png\n" := by cbv
    have hpipeline : Pipeline.ofSettings illustratedDeck.settings = .ok ⟨[Pass.effects]⟩ := by
      cbv
    rw [load_of_read (by cbv) rfl hpipeline hread, htext]
    rfl
  exact ⟨hload, by cbv, by cbv,
    (exists_render_of_load hload rfl).1 illustratedAdditions illustratedStore⟩

end Deck

end Slideshow
