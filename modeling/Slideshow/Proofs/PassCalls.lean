import Slideshow.Deck.Slides
import Slideshow.Proofs.UntouchedContent

/-!
# The calls of passes

A deck runs its passes on the header and the content of one fragment after the other. Each call of a
pass has a text of its own, which the calls before it have left. What the slides of a deck report and
whether they fail is what its calls report and whether one of them fails, and nothing else is.
-/
namespace Slideshow

/-! ## Actions in a row -/

namespace Outcome
variable {α β γ : Type}

theorem bind_of_error {x : Outcome α} {e : Failure} (h : x.result = .error e)
    (f : α → Outcome β) : x >>= f = ⟨x.messages, .error e⟩ := by
  obtain ⟨messages, result⟩ := x
  obtain rfl : result = .error e := h
  rfl

theorem bind_of_ok {x : Outcome α} {a : α} (h : x.result = .ok a) (f : α → Outcome β) :
    x >>= f = ⟨x.messages ++ (f a).messages, (f a).result⟩ := by
  obtain ⟨messages, result⟩ := x
  obtain rfl : result = .ok a := h
  rfl

theorem bind_eq_ok_iff {x : Outcome α} {f : α → Outcome β} {b : β} :
    (x >>= f).result = .ok b ↔ ∃ a, x.result = .ok a ∧ (f a).result = .ok b := by
  cases h : x.result with
  | error e => simp [bind_of_error h]
  | ok a => simp [bind_of_ok h]

/-- An action without its value. -/
def effect (x : Outcome α) : Outcome Unit := x >>= fun _ => pure ()

theorem effect_bind (x : Outcome α) (f : α → Outcome β) :
    effect (x >>= f) = x >>= fun a => effect (f a) := bind_assoc x f _

theorem effect_map (x : Outcome α) (g : α → β) : effect (g <$> x) = effect x := by
  rw [map_eq_pure_bind, effect_bind]
  rfl

theorem effect_eq_error_iff {x : Outcome α} {messages : List Message} {e : Failure} :
    effect x = ⟨messages, .error e⟩ ↔ x = ⟨messages, .error e⟩ := by
  obtain ⟨reported, error | a⟩ := x
  · simp [effect, Outcome.bind_of_error]
  · simp [effect, Outcome.bind_of_ok, pure]

end Outcome

open Outcome (effect effect_bind effect_map)

/-! ## Calls -/

/-- A pass and the text that it is run on. -/
structure Call where
  pass : Pass
  content : Text

namespace Call

def run (origin : Origin) (c : Call) : Outcome Passed := c.pass.run origin c.content

/-- Calls one after the other, up to the first that fails. -/
def runAll (origin : Origin) : List Call → Outcome Unit
  | [] => pure ()
  | c :: cs => c.run origin >>= fun _ => runAll origin cs

theorem runAll_append (origin : Origin) (cs ds : List Call) :
    runAll origin (cs ++ ds) = runAll origin cs >>= fun _ => runAll origin ds := by
  induction cs with
  | nil => rw [List.nil_append, runAll, pure_bind]
  | cons c cs ih => rw [List.cons_append, runAll, runAll, ih, bind_assoc]

/-- An action does nothing but some calls. -/
def Performs (origin : Origin) (cs : List Call) {α : Type} (x : Outcome α) : Prop :=
  effect x = runAll origin cs

namespace Performs
variable {origin : Origin} {cs ds : List Call} {α β : Type} {x : Outcome α}

theorem pure (a : α) : Performs origin [] (Pure.pure a : Outcome α) :=
  pure_bind (m := Outcome) a _

theorem map (h : Performs origin cs x) (g : α → β) : Performs origin cs (g <$> x) :=
  (effect_map x g).trans h

/-- The second action need only be described where the first one has a value. -/
theorem bind (hx : Performs origin cs x) {f : α → Outcome β}
    (hf : ∀ a, x.result = .ok a → Performs origin ds (f a)) :
    Performs origin (cs ++ ds) (x >>= f) := by
  rw [Performs, runAll_append, ← hx, effect_bind, effect, bind_assoc]
  simp only [pure_bind]
  cases hresult : x.result with
  | error e => rw [Outcome.bind_of_error hresult, Outcome.bind_of_error hresult]
  | ok a =>
    rw [Outcome.bind_of_ok hresult, Outcome.bind_of_ok hresult]
    exact congrArg (fun y : Outcome Unit => (⟨x.messages ++ y.messages, y.result⟩ : Outcome Unit))
      (hf a hresult)

end Performs

theorem runAll_of_first_error {origin : Origin} {before after : List Call} {c : Call} {e : Failure}
    (hbefore : ∀ b ∈ before, ∃ passed, (b.run origin).result = .ok passed)
    (hc : (c.run origin).result = .error e) :
    runAll origin (before ++ c :: after) =
      ⟨(before ++ [c]).flatMap fun b => (b.run origin).messages, .error e⟩ := by
  induction before with
  | nil =>
    rw [List.nil_append, runAll, Outcome.bind_of_error hc]
    simp
  | cons b before ih =>
    obtain ⟨passed, hb⟩ := hbefore b (by simp)
    rw [List.cons_append, runAll, Outcome.bind_of_ok hb,
      ih fun d hd => hbefore d (List.mem_cons_of_mem b hd)]
    rfl

theorem exists_first_error {origin : Origin} {cs : List Call} {e : Failure}
    (h : (runAll origin cs).result = .error e) :
    ∃ before c after, cs = before ++ c :: after ∧
      (∀ b ∈ before, ∃ passed, (b.run origin).result = .ok passed) ∧
      (c.run origin).result = .error e := by
  induction cs with
  | nil => cases h
  | cons b cs ih =>
    rw [runAll] at h
    cases hb : (b.run origin).result with
    | error failure =>
      rw [Outcome.bind_of_error hb] at h
      obtain rfl : failure = e := Except.error.inj h
      exact ⟨[], b, cs, rfl, by simp, hb⟩
    | ok passed =>
      rw [Outcome.bind_of_ok hb] at h
      obtain ⟨before, c, after, rfl, hbefore, hc⟩ := ih h
      exact ⟨b :: before, c, after, rfl, List.forall_mem_cons.2 ⟨⟨passed, hb⟩, hbefore⟩, hc⟩

/-- Calls in a row fail at the first one that fails. They have reported the messages of the calls up
to it, and those of no other. -/
theorem runAll_eq_error_iff {origin : Origin} {cs : List Call} {messages : List Message}
    {e : Failure} : runAll origin cs = ⟨messages, .error e⟩ ↔
      ∃ before c after, cs = before ++ c :: after ∧
        (∀ b ∈ before, ∃ passed, (b.run origin).result = .ok passed) ∧
        (c.run origin).result = .error e ∧
        messages = (before ++ [c]).flatMap fun b => (b.run origin).messages := by
  constructor
  · intro h
    obtain ⟨before, c, after, rfl, hbefore, hc⟩ := exists_first_error (congrArg Outcome.result h)
    rw [runAll_of_first_error hbefore hc, Outcome.mk.injEq] at h
    exact ⟨before, c, after, rfl, hbefore, hc, h.1.symm⟩
  · rintro ⟨before, c, after, rfl, hbefore, hc, rfl⟩
    exact runAll_of_first_error hbefore hc

/-- Calls in a row fail if one of them does. -/
theorem exists_error_runAll_iff {origin : Origin} {cs : List Call} :
    (∃ e, (runAll origin cs).result = .error e) ↔
      ∃ c ∈ cs, ∃ e, (c.run origin).result = .error e := by
  induction cs with
  | nil =>
    constructor
    · rintro ⟨e, ⟨⟩⟩
    · rintro ⟨c, hc, -⟩
      simp at hc
  | cons b cs ih =>
    rw [runAll]
    cases hb : (b.run origin).result with
    | error failure =>
      rw [Outcome.bind_of_error hb]
      exact ⟨fun _ => ⟨b, by simp, failure, hb⟩, fun _ => ⟨failure, rfl⟩⟩
    | ok passed =>
      rw [Outcome.bind_of_ok hb, ih]
      simp [hb]

end Call

open Call (Performs)

/-! ## The calls of a pipeline -/

namespace Pipeline

/-- The calls of some passes on a text, each on what the one before it has left, up to the first
that fails. -/
def callsOf (origin : Origin) : List Pass → Text → List Call
  | [], _ => []
  | pass :: passes, content =>
    ⟨pass, content⟩ :: match (pass.run origin content).result with
      | .ok passed => callsOf origin passes passed.content
      | .error _ => []

theorem performs_foldlM_step (origin : Origin) (passes : List Pass) (passed : Passed) :
    Performs origin (callsOf origin passes passed.content)
      (passes.foldlM (step origin) passed) := by
  induction passes generalizing passed with
  | nil => exact Performs.pure passed
  | cons pass passes ih =>
    have hpass : Performs origin [⟨pass, passed.content⟩] (step origin passed pass) := by
      rw [Performs, step, effect_bind]
      rfl
    rw [List.foldlM_cons, callsOf]
    refine hpass.bind ?_
    intro next hnext
    obtain ⟨after, hrun, hnext⟩ := Outcome.bind_eq_ok_iff.1 hnext
    rw [hrun, ← Except.ok.inj hnext]
    exact ih _

theorem performs_process (p : Pipeline) (origin : Origin) (content : Text) :
    Performs origin (callsOf origin p.passes content) (p.process origin content) :=
  performs_foldlM_step origin p.passes ⟨content, []⟩

private theorem foldlM_step_cons {origin : Origin} {pass : Pass} {passes : List Pass}
    {content : Text} {aside : List Text} {passed : Passed} :
    ((pass :: passes).foldlM (step origin) ⟨content, aside⟩).result = .ok passed ↔
      ∃ first, (pass.run origin content).result = .ok first ∧
        (passes.foldlM (step origin) ⟨first.content, aside ++ first.sideData⟩).result =
          .ok passed := by
  rw [List.foldlM_cons, step, bind_assoc, Outcome.bind_eq_ok_iff]
  simp only [pure_bind]

/-- A call is a pass with the text that the passes before it have left. -/
theorem mem_callsOf_iff {origin : Origin} {passes : List Pass} {content : Text} {c : Call} :
    c ∈ callsOf origin passes content ↔ ∃ before after passed, passes = before ++ c.pass :: after ∧
      (process ⟨before⟩ origin content).result = .ok passed ∧ passed.content = c.content := by
  suffices h : ∀ aside, c ∈ callsOf origin passes content ↔
      ∃ before after passed, passes = before ++ c.pass :: after ∧
        (before.foldlM (step origin) ⟨content, aside⟩).result = .ok passed ∧
          passed.content = c.content from h []
  induction passes generalizing content with
  | nil => simp [callsOf]
  | cons pass passes ih =>
    intro aside
    rw [callsOf, List.mem_cons]
    constructor
    · rintro (rfl | hc)
      · exact ⟨[], passes, ⟨content, aside⟩, rfl, rfl, rfl⟩
      · split at hc
        · next first hfirst =>
          obtain ⟨before, after, passed, rfl, hbefore, hcontent⟩ :=
            (ih (aside ++ first.sideData)).1 hc
          exact ⟨pass :: before, after, passed, rfl, foldlM_step_cons.2 ⟨first, hfirst, hbefore⟩,
            hcontent⟩
        · simp at hc
    · rintro ⟨before, after, passed, hpasses, hbefore, hcontent⟩
      cases before with
      | nil =>
        obtain ⟨rfl, rfl⟩ := List.cons.inj hpasses
        obtain rfl : (⟨content, aside⟩ : Passed) = passed := Except.ok.inj hbefore
        subst hcontent
        exact .inl rfl
      | cons first before =>
        obtain ⟨rfl, rfl⟩ := List.cons.inj hpasses
        obtain ⟨next, hnext, hrest⟩ := foldlM_step_cons.1 hbefore
        right
        rw [hnext]
        exact (ih _).2 ⟨before, after, passed, rfl, hrest, hcontent⟩

end Pipeline

/-! ## The calls of a deck -/

/-- What the passes are run on for a slide: its header and its content, as far as it has them. -/
def Slide.passedTexts (s : Slide) : List Text :=
  s.header.toList ++ if s.content = [] then [] else [s.content]

namespace Deck
variable (d : Deck) (store : Store)

/-- What the passes of a deck are run on, in the order of the document. -/
def passedTexts : List Text :=
  (Fragment.split d.html d.settings.splitLevel).flatMap fun fragment =>
    (Slide.ofFragment fragment d.settings.presenterNotes).passedTexts

/-- Where the content of the slides of a deck comes from. -/
def origin : Origin := ⟨store, some d.source⟩

def calls : List Call :=
  d.passedTexts.flatMap (Pipeline.callsOf (d.origin store) d.pipeline.passes)

theorem performs_passHeader (s : Slide) :
    Performs (d.origin store)
      (s.header.toList.flatMap (Pipeline.callsOf (d.origin store) d.pipeline.passes))
      (d.passHeader store (some d.source) s) := by
  rw [passHeader]
  split
  · next h =>
    rw [h]
    exact Performs.pure s
  · next header h =>
    rw [h, Option.toList_some, List.flatMap_singleton]
    exact (d.pipeline.performs_process (d.origin store) header).map _

theorem performs_passContent (s : Slide) :
    Performs (d.origin store)
      ((if s.content = [] then [] else [s.content]).flatMap
        (Pipeline.callsOf (d.origin store) d.pipeline.passes))
      (d.passContent store (some d.source) s) := by
  rw [passContent]
  split
  · exact Performs.pure s
  · rw [List.flatMap_singleton]
    exact (d.pipeline.performs_process (d.origin store) s.content).map _

/-- The passes on the header leave the content as it is. -/
theorem content_of_passHeader {source : Option Text} {s t : Slide}
    (h : (d.passHeader store source s).result = .ok t) : t.content = s.content := by
  rw [passHeader] at h
  split at h
  · obtain rfl := Except.ok.inj h
    rfl
  · obtain ⟨passed, -, h⟩ := Outcome.bind_eq_ok_iff.1 h
    rw [← Except.ok.inj h]

theorem performs_slideOf (fragment : Text) :
    Performs (d.origin store)
      ((Slide.ofFragment fragment d.settings.presenterNotes).passedTexts.flatMap
        (Pipeline.callsOf (d.origin store) d.pipeline.passes))
      (d.slideOf store (some d.source) fragment) := by
  rw [Slide.passedTexts, List.flatMap_append, slideOf]
  refine (d.performs_passHeader store _).bind fun s hs => ?_
  rw [← d.content_of_passHeader store hs]
  exact (d.performs_passContent store (s.addClasses d.settings.defaultClasses)).map _

theorem performs_foldlM_place (fragments : List Text) (slides : List Slide) :
    Performs (d.origin store)
      ((fragments.flatMap fun fragment =>
        (Slide.ofFragment fragment d.settings.presenterNotes).passedTexts).flatMap
          (Pipeline.callsOf (d.origin store) d.pipeline.passes))
      (fragments.foldlM
        (fun slides fragment => place slides <$> d.slideOf store (some d.source) fragment) slides) := by
  induction fragments generalizing slides with
  | nil => exact Performs.pure slides
  | cons fragment fragments ih =>
    rw [List.foldlM_cons, List.flatMap_cons, List.flatMap_append]
    exact ((d.performs_slideOf store fragment).map _).bind fun next _ => ih next

/-- After the calls only a warning can follow, so the slides of a deck fail where its calls fail. -/
theorem slides_eq_error_iff {messages : List Message} {e : Failure} :
    d.slides store = ⟨messages, .error e⟩ ↔
      Call.runAll (d.origin store) (d.calls store) = ⟨messages, .error e⟩ := by
  have hperforms := d.performs_foldlM_place store (Fragment.split d.html d.settings.splitLevel) []
  rw [Performs] at hperforms
  rw [calls, passedTexts, ← hperforms, Outcome.effect_eq_error_iff, slides]
  generalize ((Fragment.split d.html d.settings.splitLevel).foldlM (m := Outcome) _ []) = made
  cases hmade : made.result with
  | error error =>
    rw [Outcome.bind_of_error hmade, ← hmade]
  | ok slides =>
    rw [Outcome.bind_of_ok hmade]
    constructor
    · intro h
      have hresult := congrArg Outcome.result h
      dsimp only at hresult
      split at hresult <;> simp [Outcome.report, pure, bind] at hresult
    · rintro rfl
      simp at hmade

end Deck

end Slideshow
