import Slideshow.Proofs.TextPasses

/-!
# Notes that go over a line

A paragraph that starts with the notes directive is a note. The pass for notes marks a note that is
one line and passes over a note that goes on behind a line break, so that its directive is shown; all
other paragraphs are left as they are, whatever lines they have.
-/
namespace Slideshow.Pass
open Text Forest

/-- The note of a paragraph that starts with the notes directive: what follows the directive and one
blank behind it. -/
def note? (t : Text) : Option Text := (dropAffix? ".notes:" t).map fun s => s.drop (gap s).length

/-- The note of a paragraph, if it is one line. -/
def lineNote? (t : Text) : Option Text := (note? t).filter fun note => '\n' ∉ note

/-- A paragraph on a line of its own, marked if it is read as a note. -/
def notedHtml (note : Option Text) (t : Text) : Text :=
  match note with
  | some note => "<p class=\"notes\">" ++ note ++ "</p>\n"
  | none => "<p>" ++ t ++ "</p>\n"

/-- A text that may stand between the tags of a paragraph. -/
def isParagraphText (t : Text) : Bool := !occursIn "<p>" t && !occursIn "</p>" t

/-- The directive at the front of a paragraph, if its note is one line. -/
def directive? (t : Text) : Option Directive :=
  (dropAffix? ".notes:" t).bind fun s =>
    if '\n' ∈ s.drop (gap s).length then none else some ⟨gap s, s.drop (gap s).length, []⟩

theorem map_text_directive? (t : Text) : (directive? t).map Directive.text = lineNote? t := by
  rw [directive?, lineNote?, note?]
  cases dropAffix? ".notes:" t with
  | none => rfl
  | some s => by_cases h : '\n' ∈ s.drop (gap s).length <;> simp [h, Option.filter_some]

/-! ## One paragraph -/

section Paragraph
variable {t : Text} (h : isParagraphText t)
include h

theorem not_occursIn_of_isParagraphText :
    occursIn "<p>" t = false ∧ occursIn "</p>" t = false := by
  simpa [isParagraphText] using h

/-- The directive of a paragraph is read within the paragraph. -/
theorem read?_notedHtml (r : Text) : notesPattern.read? (notedHtml none t ++ r) =
    (directive? t).map fun d => (d, "\n" ++ r) := by
  have hclose := (not_occursIn_of_isParagraphText h).2
  have hfront : notedHtml none t ++ r =
      "<p>" ++ (t ++ '<' :: (['/', 'p', '>'] ++ ("\n" ++ r))) := by simp [notedHtml]
  have hkey : ("<p>." ++ "notes" ++ ":" : Text) = "<p>" ++ ".notes:" := by simp
  have hdirective : ∀ u : Text,
      dropAffix? ("<p>" ++ ".notes:" : Text) ("<p>" ++ u) = dropAffix? ".notes:" u := by
    simp [dropAffix?]
  rw [hfront, notesPattern, directive?]
  simp only [Directive.pattern, hkey, hdirective, Option.bind_eq_bind]
  rw [dropAffix?_append_cons (by simp)]
  cases hnotes : dropAffix? ".notes:" t with
  | none => rfl
  | some s =>
    have hs : s <:+ t := ⟨".notes:", (dropAffix?_eq_some_iff.1 hnotes).symm⟩
    have hnote : s.drop (gap s).length <:+: t :=
      ((List.drop_suffix (gap s).length s).trans hs).isInfix
    have hno : occursIn ['<', '/', 'p', '>'] (s.drop (gap s).length) = false := by
      rw [Bool.eq_false_iff]
      intro hyes
      have hmono := occursIn_mono hnote hyes
      simp [hmono] at hclose
    have hgap : ∀ u, gap (s ++ '<' :: u) = gap s := by
      cases s with
      | nil => simp [gap, isBlank_bracket]
      | cons c s => simp [gap]
    simp only [Option.map_some, Option.bind_some, hgap,
      List.drop_append_of_le_length (length_gap_le s)]
    rw [body?, show ("</p>" : Text) = '<' :: ['/', 'p', '>'] by simp, cutAt?_append_key hno (by simp)]
    by_cases hline : '\n' ∈ s.drop (gap s).length <;>
      simp [hline, dropAffix?, Option.filter_some]

/-- Behind its open tag a paragraph starts no directive. -/
theorem atBrackets_inside (front : Text) (hfront : '<' ∉ front) :
    AtBrackets (dropAffix? ('<' :: "p>.notes:") · = none) (front ++ t ++ "</p>\n") := by
  have hopen : occursIn ('<' :: "p>.notes:") t = false := by
    have hp := (not_occursIn_of_isParagraphText h).1
    rw [Bool.eq_false_iff] at hp ⊢
    intro hyes
    obtain ⟨before, after, rfl⟩ := occursIn_iff.1 hyes
    exact hp (occursIn_iff.2 ⟨before, ".notes:" ++ after, by simp⟩)
  have hend : AtBrackets (dropAffix? ('<' :: "p>.notes:") · = none) ('<' :: "/p>\n") :=
    .bracket (.of_not_mem (by simp)) (by simp [dropAffix?])
  have hsplit : (front ++ t ++ "</p>\n" : Text) = front ++ (t ++ '<' :: "/p>\n") := by simp
  rw [hsplit]
  exact .append (.of_not_mem hfront) (atBrackets_append_cons hopen (by simp) hend)

theorem splits_notedHtml : ∃ rest, notesPattern.Splits (notedHtml none t) (directive? t) rest ∧
    notedHtml (lineNote? t) t = ((directive? t).map fun d =>
      ("<p class=\"notes\">" ++ d.text ++ "</p>" : Text)).getD [] ++ rest := by
  have hstarts : notesPattern.StartsWith ('<' :: "p>.notes:") :=
    startsWith_directive (by simp) false false
  have hread := read?_notedHtml h
  rw [← map_text_directive?]
  cases hd : directive? t with
  | some d =>
    simp only [hd, Option.map_some] at hread
    exact ⟨"\n", .of_read? hread (splits_lineBreak hstarts), by simp [notedHtml]⟩
  | none =>
    have hhtml : notedHtml none t = '<' :: ("p>" ++ t ++ "</p>\n") := by simp [notedHtml]
    simp only [hd, Option.map_none] at hread
    rw [hhtml] at hread
    refine ⟨notedHtml none t, ?_, by simp⟩
    rw [hhtml]
    exact .cons hread (.of_atBrackets hstarts (atBrackets_inside h "p>" (by simp)))

/-- A paragraph whose note is one line, or that is none, starts no directive when it is passed. -/
theorem atBrackets_notedHtml (hline : ∀ note ∈ note? t, '\n' ∉ note) :
    AtBrackets (dropAffix? ('<' :: "p>.notes:") · = none) (notedHtml (lineNote? t) t) := by
  cases hnote : note? t with
  | some note =>
    have hone : lineNote? t = some note := by
      rw [lineNote?, hnote, Option.filter_some, if_pos (by simpa using hline note hnote)]
    obtain ⟨s, hs, rfl⟩ := Option.map_eq_some_iff.1 hnote
    have hinfix : s.drop (gap s).length <:+: t :=
      ((List.drop_suffix _ _).trans ⟨_, (dropAffix?_eq_some_iff.1 hs).symm⟩).isInfix
    have htext : isParagraphText (s.drop (gap s).length) := by
      obtain ⟨hp, hclose⟩ := not_occursIn_of_isParagraphText h
      simp only [isParagraphText, Bool.and_eq_true, Bool.not_eq_true', Bool.eq_false_iff] at hp hclose ⊢
      exact ⟨fun hyes => hp (occursIn_mono hinfix hyes), fun hyes => hclose (occursIn_mono hinfix hyes)⟩
    have hhtml : notedHtml (some (s.drop (gap s).length)) t =
        '<' :: ("p class=\"notes\">" ++ s.drop (gap s).length ++ "</p>\n") := by simp [notedHtml]
    rw [hone, hhtml]
    exact .bracket (atBrackets_inside htext _ (by simp)) (by simp [dropAffix?])
  | none =>
    have hone : lineNote? t = none := by rw [lineNote?, hnote, Option.filter_none]
    have hhtml : notedHtml none t = '<' :: ("p>" ++ t ++ "</p>\n") := by simp [notedHtml]
    have hno : dropAffix? ['.', 'n', 'o', 't', 'e', 's', ':'] t = none := by
      simpa [note?] using hnote
    rw [hone, hhtml]
    refine .bracket (atBrackets_inside h "p>" (by simp)) fun tail => ?_
    simp [dropAffix?, dropAffix?_append_cons, hno]

end Paragraph

/-! ## Paragraphs one after the other -/

variable {texts : List Text} (h : ∀ t ∈ texts, isParagraphText t) (origin : Origin)
include h

/-- Notes of one line are marked, and all else is left as it is. -/
theorem run_notes_eq : notes.run origin (texts.flatMap (notedHtml none)) =
    pure ⟨texts.flatMap fun t => notedHtml (lineNote? t) t,
      if texts.any fun t => (lineNote? t).isSome then ["has_notes"] else []⟩ := by
  choose! rest hsplits hhtml using fun (t : Text) (ht : isParagraphText t) => splits_notedHtml ht
  have hall : ∀ t ∈ texts, notesPattern.Splits (notedHtml none t) (directive? t) (rest t) :=
    fun t ht => hsplits t (h t ht)
  have hcontent : notesPattern.replace (fun d => "<p class=\"notes\">" ++ d.text ++ "</p>")
      (texts.flatMap (notedHtml none)) = texts.flatMap fun t => notedHtml (lineNote? t) t := by
    rw [Pattern.Splits.replace_flatMap hall]
    exact List.flatMap_congr fun t ht => (hhtml t (h t ht)).symm
  have hany : notesPattern.occursIn (texts.flatMap (notedHtml none)) =
      texts.any fun t => (lineNote? t).isSome := by
    rw [Pattern.occursIn, Pattern.Splits.parts_flatMap hall, Bool.eq_iff_iff]
    simp [← map_text_directive?, Option.isSome_iff_ne_none]
  simp only [notes, hcontent, hany]

/-- Of some paragraphs the notes are marked and all others left alone. This marks every note, and
leaves no paragraph with the directive, exactly if each of the notes is one line. -/
theorem run_notes_paragraphs : notes.run origin (texts.flatMap (notedHtml none)) =
      pure ⟨texts.flatMap fun t => notedHtml (lineNote? t) t,
        if texts.any fun t => (lineNote? t).isSome then ["has_notes"] else []⟩ ∧
    ((∀ t ∈ texts, ∀ note ∈ note? t, '\n' ∉ note) ↔
      notes.run origin (texts.flatMap (notedHtml none)) =
          pure ⟨texts.flatMap fun t => notedHtml (note? t) t,
            if texts.any fun t => (note? t).isSome then ["has_notes"] else []⟩ ∧
        occursIn "<p>.notes:" (texts.flatMap fun t => notedHtml (note? t) t) = false) := by
  have hrun := run_notes_eq h origin
  refine ⟨hrun, fun hlines => ?_, fun ⟨hmarked, hnone⟩ t ht note hnote hbreak => ?_⟩
  · have hsame : ∀ t ∈ texts, lineNote? t = note? t := by
      intro t ht
      cases hnote : note? t with
      | none => rw [lineNote?, hnote, Option.filter_none]
      | some note =>
        rw [lineNote?, hnote, Option.filter_some, if_pos (by simpa using hlines t ht note hnote)]
    have hcontent : (texts.flatMap fun t => notedHtml (lineNote? t) t) =
        texts.flatMap fun t => notedHtml (note? t) t :=
      List.flatMap_congr fun t ht => by rw [hsame t ht]
    have hany : (texts.any fun t => (lineNote? t).isSome) = texts.any fun t => (note? t).isSome := by
      rw [Bool.eq_iff_iff, List.any_eq_true, List.any_eq_true]
      exact exists_congr fun t => and_congr_right fun ht => by rw [hsame t ht]
    have hbrackets := atBrackets_flatMap fun t ht => atBrackets_notedHtml (h t ht) (hlines t ht)
    exact ⟨by rw [hrun, hcontent, hany], by simpa [hcontent] using occursIn_eq_false_of_atBrackets hbrackets⟩
  · -- A note that goes over a line is still a paragraph with the directive.
    have hcontent : (texts.flatMap fun t => notedHtml (lineNote? t) t) =
        texts.flatMap fun t => notedHtml (note? t) t :=
      (Passed.mk.inj (Except.ok.inj (congrArg Outcome.result (hrun.symm.trans hmarked)))).1
    have hpassed : lineNote? t = none := by
      rw [lineNote?, hnote, Option.filter_some, if_neg (by simpa using hbreak)]
    obtain ⟨s, hs, -⟩ := Option.map_eq_some_iff.1 hnote
    have hshown : occursIn "<p>.notes:" (notedHtml (lineNote? t) t) := by
      rw [hpassed, dropAffix?_eq_some_iff.1 hs]
      exact occursIn_iff.2 ⟨[], s ++ "</p>\n", by simp [notedHtml]⟩
    rw [← hcontent, List.flatMap_def] at hnone
    have hyes := occursIn_mono (List.infix_of_mem_flatten
      (List.mem_map_of_mem (f := fun t => notedHtml (lineNote? t) t) ht)) hshown
    exact Bool.false_ne_true (hnone.symm.trans hyes)

omit h

/-- A paragraph of two lines, and notes of one and of two lines. -/
def wrappedParagraphs : List Text := ["a\nb", ".notes:\nc", ".notes: d\ne"]

theorem run_notes_wrappedParagraphs : (∀ t ∈ wrappedParagraphs, isParagraphText t) ∧
    notes.run ⟨⟨[], []⟩, none⟩ "<p>a\nb</p>\n<p>.notes:\nc</p>\n<p>.notes: d\ne</p>\n" =
      pure ⟨"<p>a\nb</p>\n<p class=\"notes\">c</p>\n<p>.notes: d\ne</p>\n", ["has_notes"]⟩ := by
  have h : ∀ t ∈ wrappedParagraphs, isParagraphText t := List.all_eq_true.1 (by cbv)
  refine ⟨h, Eq.trans ?_ (((run_notes_paragraphs h ⟨⟨[], []⟩, none⟩).1).trans ?_)⟩
  · exact congrArg (notes.run ⟨⟨[], []⟩, none⟩) (by cbv)
  · exact congrArg pure (by cbv)

/-- A note of two lines is a note, but it is shown with its directive. -/
theorem not_marked_of_wrappedNote : isParagraphText ".notes: a\nb" ∧
    note? ".notes: a\nb" = some "a\nb" ∧
    notes.run ⟨⟨[], []⟩, none⟩ "<p>.notes: a\nb</p>\n" = pure ⟨"<p>.notes: a\nb</p>\n", []⟩ ∧
    notes.run ⟨⟨[], []⟩, none⟩ "<p>.notes: a\nb</p>\n" ≠
      pure ⟨"<p class=\"notes\">a\nb</p>\n", ["has_notes"]⟩ := by
  have h : ∀ t ∈ ([".notes: a\nb"] : List Text), isParagraphText t := List.all_eq_true.1 (by cbv)
  have hrun : notes.run ⟨⟨[], []⟩, none⟩ "<p>.notes: a\nb</p>\n" =
      pure ⟨"<p>.notes: a\nb</p>\n", []⟩ := by
    refine Eq.trans ?_ ((run_notes_eq h ⟨⟨[], []⟩, none⟩).trans ?_)
    · exact congrArg (notes.run ⟨⟨[], []⟩, none⟩) (by cbv)
    · exact congrArg pure (by cbv)
  refine ⟨by cbv, by cbv, hrun, fun hmarked => ?_⟩
  have haside := (Passed.mk.inj (Except.ok.inj (congrArg Outcome.result (hrun.symm.trans hmarked)))).2
  simp at haside

end Slideshow.Pass
