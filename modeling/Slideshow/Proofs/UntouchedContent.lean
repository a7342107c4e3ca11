import Slideshow.Pass.Standard

/-!
# Content that no pass touches

The standard passes look for code blocks, images and paragraphs that start with a dot. Content with
none of these goes through all of them as it is, and nothing is set aside.
-/
namespace Slideshow
open Text

/-- Parts that all start with an affix are found only where the affix occurs. -/
theorem Pattern.parts_eq_nil {α : Type} (p : Pattern α) {affix content : Text}
    (hp : ∀ a, affix <+: p.spell a) (h : Text.occursIn affix content = false) :
    p.parts content = [] := by
  rw [List.eq_nil_iff_forall_not_mem]
  intro a ha
  obtain ⟨x, hx, hright⟩ := List.mem_filterMap.1 ha
  obtain rfl : x = .inr a := by simpa using hright
  obtain ⟨before, after, hsplit⟩ := List.append_of_mem hx
  obtain ⟨rest, hrest⟩ := hp a
  have hspell := p.replace_spell content
  rw [Pattern.replace, hsplit, List.flatMap_append, List.flatMap_cons, Pattern.image,
    ← hrest] at hspell
  have hyes : Text.occursIn affix content :=
    occursIn_iff.2 ⟨before.flatMap (Pattern.image p.spell),
      rest ++ after.flatMap (Pattern.image p.spell), by simpa using hspell.symm⟩
  simp [h] at hyes

/-- A pass that yields something hands it to those behind it. -/
theorem Pipeline.foldlM_step_of_run {origin : Origin} {pass : Pass} {before after : Passed}
    (h : pass.run origin before.content = pure after) (passes : List Pass) :
    (pass :: passes).foldlM (step origin) before =
      passes.foldlM (step origin) ⟨after.content, before.sideData ++ after.sideData⟩ := by
  rw [List.foldlM_cons, step, h]
  rfl

/-- Passes that leave some content as it is do so one after the other. -/
theorem Pipeline.foldlM_step {origin : Origin} {content : Text} {aside : List Text}
    {passes : List Pass} (h : ∀ pass ∈ passes, pass.run origin content = pure ⟨content, []⟩) :
    passes.foldlM (Pipeline.step origin) ⟨content, aside⟩ = pure ⟨content, aside⟩ := by
  induction passes with
  | nil => rfl
  | cons pass passes ih =>
    rw [@foldlM_step_of_run _ _ ⟨content, aside⟩ _ (h pass (by simp)), List.append_nil]
    exact ih fun p hp => h p (List.mem_cons_of_mem pass hp)

theorem Pipeline.passes_standard (settings : Settings) : (Pipeline.standard settings).passes =
    [Pass.code, Pass.embedImages settings.embed, Pass.linkImages (settings.embed || settings.relative),
      Pass.effects, Pass.notes, Pass.qrCodes] := by
  simp [Pipeline.standard, Pass.standardNames, Pass.standard?, Pass.code, Pass.embedImages,
    Pass.linkImages, Pass.effects, Pass.notes, Pass.qrCodes]

structure IsUntouched (content : Text) : Prop where
  code : occursIn "<pre" content = false
  image : occursIn "<img" content = false
  directive : occursIn "<p>." content = false

section NoDirective
variable {content : Text} (h : occursIn "<p>." content = false)
include h

theorem directive_parts (keyword : Text) (multiline lineBreak : Bool) :
    (Pass.Directive.pattern keyword multiline lineBreak).parts content = [] :=
  Pattern.parts_eq_nil _ (fun d => ⟨keyword ++ ":" ++ d.gap ++ d.text ++ "</p>" ++ d.ending, by
    simp [Pass.Directive.pattern, Pass.Directive.spell]⟩) h

theorem qrCode_parts : Pass.QrCode.pattern.parts content = [] :=
  Pattern.parts_eq_nil _ (fun q => ⟨"qr:" ++ q.gap ++ q.size ++ "|" ++ q.data ++ "</p>", by
    simp [Pass.QrCode.pattern, Pass.QrCode.spell]⟩) h

/-- Content without directives goes through the passes that look for them. -/
theorem run_directives (origin : Origin) :
    ∀ pass ∈ [Pass.effects, Pass.notes, Pass.qrCodes], pass.run origin content = pure ⟨content, []⟩ := by
  have hnotes : Pass.notesPattern.parts content = [] := directive_parts h _ _ _
  have heffects : Pass.effectsPattern.parts content = [] := directive_parts h _ _ _
  intro pass hpass
  simp only [List.mem_cons, List.not_mem_nil, or_false] at hpass
  rcases hpass with rfl | rfl | rfl
  · simp [Pass.effects, heffects, Pattern.replace_of_parts_eq_nil]
  · simp [Pass.notes, hnotes, Pattern.replace_of_parts_eq_nil, Pattern.occursIn]
  · simp [Pass.qrCodes, qrCode_parts h, Pattern.replace_of_parts_eq_nil, Pattern.occursIn]

end NoDirective

theorem image_parts {content : Text} (h : occursIn "<img" content = false) :
    Pass.Image.pattern.parts content = [] :=
  Pattern.parts_eq_nil _ (fun i => ⟨i.opening ++ "src=\"" ++ i.address ++ "\"", by
    simp [Pass.Image.pattern, Pass.Image.spell]⟩) h

theorem run_code_of_not_occursIn {content : Text} (h : occursIn "<pre" content = false) (origin : Origin) :
    Pass.code.run origin content = pure ⟨content, []⟩ := by
  simp only [Pass.code, h, Bool.false_eq_true, if_false]

theorem run_linkImages_of_not_occursIn {content : Text} (h : occursIn "<img" content = false)
    (keep : Bool) (origin : Origin) :
    (Pass.linkImages keep).run origin content = pure ⟨content, []⟩ := by
  simp only [Pass.linkImages, Pattern.replace_of_parts_eq_nil _ (image_parts h)]
  split <;> rfl

/-- Behind the pass that marks code, content without directives goes through the standard passes if its
images do. -/
theorem run_behind_code {keep : Bool} {origin : Origin} {content : Text}
    (hlink : (Pass.linkImages keep).run origin content = pure ⟨content, []⟩)
    (hdirective : occursIn "<p>." content = false) :
    ∀ pass ∈ [Pass.embedImages false, Pass.linkImages keep, Pass.effects, Pass.notes, Pass.qrCodes],
      pass.run origin content = pure ⟨content, []⟩ := by
  rw [List.forall_mem_cons, List.forall_mem_cons]
  exact ⟨rfl, hlink, run_directives hdirective origin⟩

theorem run_standard_of_linked {settings : Settings} (hembed : settings.embed = false) {origin : Origin}
    {content : Text} (hcode : occursIn "<pre" content = false)
    (hlink : (Pass.linkImages (settings.embed || settings.relative)).run origin content =
      pure ⟨content, []⟩) (hdirective : occursIn "<p>." content = false) :
    ∀ pass ∈ (Pipeline.standard settings).passes, pass.run origin content = pure ⟨content, []⟩ := by
  rw [hembed] at hlink
  rw [Pipeline.passes_standard, hembed, List.forall_mem_cons]
  exact ⟨run_code_of_not_occursIn hcode origin, run_behind_code hlink hdirective⟩

section Untouched
variable {content : Text} (h : IsUntouched content)
include h

theorem run_standard {settings : Settings} (hembed : settings.embed = false) (origin : Origin) :
    ∀ pass ∈ (Pipeline.standard settings).passes, pass.run origin content = pure ⟨content, []⟩ :=
  run_standard_of_linked hembed h.code (run_linkImages_of_not_occursIn h.image _ origin) h.directive

/-- All standard passes leave the content as it is. -/
theorem process_standard {settings : Settings} (hembed : settings.embed = false) (origin : Origin) :
    (Pipeline.standard settings).process origin content = pure ⟨content, []⟩ :=
  Pipeline.foldlM_step (run_standard h hembed origin)

end Untouched

end Slideshow
