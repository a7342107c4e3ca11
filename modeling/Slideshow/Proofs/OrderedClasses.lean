import Slideshow.Proofs.ClassAttributes
import Slideshow.Proofs.SectionSlides

/-!
# The order of classes

Classes join a slide one after the other, each unless it is there already. What comes of many batches
is told at once: the classes there were, and behind them the new names of all batches, each where it
first stands. A slide is made with two batches, the default classes and what the passes set aside for
its content; what they set aside for its header is lost.
-/
namespace Slideshow
open Text

namespace Slide

theorem addClasses_addClasses (s : Slide) (names more : List Text) :
    (s.addClasses names).addClasses more = s.addClasses (names ++ more) := by
  simp only [addClasses, List.foldl_append]

/-- Batches of classes are as good as one. -/
theorem foldl_addClasses (batches : List (List Text)) (s : Slide) :
    batches.foldl addClasses s = s.addClasses batches.flatten := by
  induction batches generalizing s with
  | nil => rfl
  | cons names batches ih =>
    rw [List.foldl_cons, ih, List.flatten_cons, addClasses_addClasses]

theorem addClasses_eq (s : Slide) (names : List Text) :
    s.addClasses names = { s with classes := s.classes ++
      (names.filter fun c => c ≠ [] ∧ c ∉ s.classes).eraseDups } := by
  have hnew : (names.filter (· ≠ [])).foldl Restructured.met s.classes =
      s.classes ++ (names.filter fun c => c ≠ [] ∧ c ∉ s.classes).eraseDups := by
    rw [Restructured.foldl_met, List.filter_filter]
    congr 2
    refine List.filter_congr fun c _ => ?_
    simp [Bool.and_comm]
  rw [addClasses, foldl_insertClass_met, hnew]

/-- Names that are there already, or empty, change nothing. -/
theorem addClasses_eq_self {s : Slide} {names : List Text}
    (h : ∀ c ∈ names, c = [] ∨ c ∈ s.classes) : s.addClasses names = s := by
  have hnone : (names.filter fun c => c ≠ [] ∧ c ∉ s.classes) = [] := by
    refine List.filter_eq_nil_iff.2 fun c hc => ?_
    rcases h c hc with hc | hc <;> simp [hc]
  rw [addClasses_eq, hnone, List.eraseDups_nil, List.append_nil]

/-- What was added is there. -/
theorem mem_classes_addClasses {names : List Text} {c : Text} (hc : c ∈ names) (hne : c ≠ [])
    (s : Slide) : c ∈ (s.addClasses names).classes := by
  rw [addClasses_eq]
  by_cases hold : c ∈ s.classes <;> simp [hc, hne, hold]

end Slide

/-! ## What the passes set aside -/

/-- What a call of a pass sets aside, nothing if it fails. -/
def Call.sideData (origin : Origin) (c : Call) : List Text :=
  match (c.run origin).result with
  | .ok passed => passed.sideData
  | .error _ => []

namespace Pipeline

/-- Passes that do not fail are called one after the other, and what they set aside is put in this
order. -/
private theorem sideData_of_foldlM {origin : Origin} {passes : List Pass} {before passed : Passed}
    (h : (passes.foldlM (step origin) before).result = .ok passed) :
    (callsOf origin passes before.content).map (·.pass) = passes ∧
      passed.sideData = before.sideData ++
        (callsOf origin passes before.content).flatMap (Call.sideData origin) := by
  induction passes generalizing before with
  | nil =>
    obtain rfl : before = passed := Except.ok.inj h
    simp [callsOf]
  | cons pass passes ih =>
    rw [List.foldlM_cons, Outcome.bind_eq_ok_iff] at h
    obtain ⟨between, hstep, h⟩ := h
    obtain ⟨after, hrun, hstep⟩ := Outcome.bind_eq_ok_iff.1 hstep
    obtain rfl : (⟨after.content, before.sideData ++ after.sideData⟩ : Passed) = between :=
      Except.ok.inj hstep
    obtain ⟨hcalls, hside⟩ := ih h
    have hfirst : Call.sideData origin ⟨pass, before.content⟩ = after.sideData := by
      simp only [Call.sideData, Call.run, hrun]
    rw [callsOf, hrun, hside]
    simp only [List.map_cons, hcalls, List.flatMap_cons, hfirst, List.append_assoc, and_self]

theorem sideData_of_process {p : Pipeline} {origin : Origin} {content : Text} {passed : Passed}
    (h : (p.process origin content).result = .ok passed) :
    (callsOf origin p.passes content).map (·.pass) = p.passes ∧
      passed.sideData = (callsOf origin p.passes content).flatMap (Call.sideData origin) := by
  simpa using sideData_of_foldlM h

end Pipeline

namespace Deck
variable {d : Deck} {store : Store} {source : Option Text} {fragment : Text} {s t : Slide}

/-- The passes as they are called on some content, which are none if there is no content. -/
def callsOn (d : Deck) (origin : Origin) (content : Text) : List Call :=
  if content = [] then [] else Pipeline.callsOf origin d.pipeline.passes content

theorem classes_of_passContent (h : (d.passContent store source s).result = .ok t) :
    (d.callsOn ⟨store, source⟩ s.content).map (·.pass) =
        (if s.content = [] then [] else d.pipeline.passes) ∧
      t.classes = (s.addClasses
        ((d.callsOn ⟨store, source⟩ s.content).flatMap (Call.sideData ⟨store, source⟩))).classes := by
  rw [passContent] at h
  rw [callsOn]
  split at h
  · next hnone =>
    rw [← Except.ok.inj h, if_pos hnone, if_pos hnone]
    exact ⟨rfl, rfl⟩
  · next hsome =>
    obtain ⟨passed, hpassed, h⟩ := Outcome.bind_eq_ok_iff.1 h
    obtain ⟨hcalls, hside⟩ := Pipeline.sideData_of_process hpassed
    rw [← Except.ok.inj h, if_neg hsome, if_neg hsome, ← hside]
    exact ⟨hcalls, rfl⟩

/-- The classes of a slide are the default ones and what the passes set aside for its content, in two
batches. -/
theorem classes_of_slideOf (h : (d.slideOf store source fragment).result = .ok s) :
    let content := (Slide.ofFragment fragment d.settings.presenterNotes).content
    (d.callsOn ⟨store, source⟩ content).map (·.pass) =
        (if content = [] then [] else d.pipeline.passes) ∧
      s.classes = ((d.settings.defaultClasses ++
        (d.callsOn ⟨store, source⟩ content).flatMap (Call.sideData ⟨store, source⟩)).filter
          (· ≠ [])).eraseDups := by
  intro content
  rw [slideOf] at h
  obtain ⟨headed, hheaded, h⟩ := Outcome.bind_eq_ok_iff.1 h
  obtain ⟨filled, hfilled, h⟩ := Outcome.bind_eq_ok_iff.1 h
  have hnone : headed.classes = [] := by
    rw [classes_of_passHeader hheaded, Slide.classes_ofFragment]
  have hcontent : headed.content = content := d.content_of_passHeader store hheaded
  obtain ⟨hcalls, hclasses⟩ := classes_of_passContent hfilled
  have hkept : (headed.addClasses d.settings.defaultClasses).content = content := hcontent
  rw [hkept] at hcalls hclasses
  refine ⟨hcalls, ?_⟩
  have hs : s.classes = filled.classes := by rw [← Except.ok.inj h]
  rw [hs, hclasses, Slide.addClasses_addClasses, Slide.addClasses, hnone, Slide.foldl_insertClass]

/-- The classes of a slide are an ordered set. Batches of classes leave the classes that were there and
append the new ones, each once and where it first stands in all batches together; adding any of them
again changes nothing. So a slide that is made has the default classes and then what the passes set
aside for its content in the order of their registration, each once, and nothing of what they set
aside for its header. -/
theorem classes_in_order :
    (∀ (s : Slide) (batches : List (List Text)),
      batches.foldl Slide.addClasses s = { s with classes := s.classes ++
        (batches.flatten.filter fun c => c ≠ [] ∧ c ∉ s.classes).eraseDups } ∧
      ∀ names, (∀ c ∈ names, c ∈ batches.flatten) →
        (batches.foldl Slide.addClasses s).addClasses names = batches.foldl Slide.addClasses s) ∧
    ∀ (d : Deck) (store : Store) (source : Option Text) (fragment : Text) (s : Slide),
      (d.slideOf store source fragment).result = .ok s →
        let content := (Slide.ofFragment fragment d.settings.presenterNotes).content
        let calls := d.callsOn ⟨store, source⟩ content
        calls.map (·.pass) = (if content = [] then [] else d.pipeline.passes) ∧
          s.classes = ((d.settings.defaultClasses ++
            calls.flatMap (Call.sideData ⟨store, source⟩)).filter (· ≠ [])).eraseDups := by
  refine ⟨fun s batches => ?_, fun d store source fragment s h => classes_of_slideOf h⟩
  rw [Slide.foldl_addClasses]
  refine ⟨s.addClasses_eq batches.flatten, fun names hnames => ?_⟩
  refine Slide.addClasses_eq_self fun c hc => ?_
  by_cases hne : c = []
  · exact .inl hne
  · exact .inr (Slide.mem_classes_addClasses (hnames c hc) hne s)

/-- A pass that leaves the content as it is and sets aside a word and the content. -/
def echo (name word : Text) : Pass := ⟨name, fun _ content => pure ⟨content, [word, content]⟩⟩

/-- A deck with two such passes. -/
def echoedTalk : Deck where
  source := "talk.md"
  settings := { defaultClasses := ["wide", "", "wide"] }
  dialect := .markdown
  text := []
  pipeline := ⟨[echo "first" "told", echo "second" "wide"]⟩

/-- The header of this slide is set aside, too, but does not become a class. -/
theorem classes_in_order_echoedTalk :
    ([["wide", ""], ["new", "wide"]] : List (List Text)).foldl Slide.addClasses
        { classes := ["new", ""] } = { classes := ["new", "", "wide"] } ∧
      ∃ s, (echoedTalk.slideOf ⟨[], []⟩ none "<h1>A</h1>b").result = .ok s ∧
        s.header = some ("<h1>A</h1>" : Text) ∧ s.classes = ["wide", "told", "b"] := by
  have hmade : (echoedTalk.slideOf ⟨[], []⟩ none "<h1>A</h1>b").result = .ok
      { title := some "A"
        level := some 1
        header := some "<h1>A</h1>"
        content := "b"
        classes := ["wide", "told", "b"] } := by cbv
  obtain ⟨-, hclasses⟩ := classes_in_order.2 echoedTalk ⟨[], []⟩ none "<h1>A</h1>b" _ hmade
  refine ⟨(classes_in_order.1 _ _).1.trans (by cbv), _, hmade, rfl, hclasses.trans ?_⟩
  cbv

end Deck

end Slideshow
