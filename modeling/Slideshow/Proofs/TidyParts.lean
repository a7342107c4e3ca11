import Slideshow.Proofs.PatternParts
import Slideshow.Proofs.TidyMarkup

/-!
# Parts of tidy markup

A pattern looks for its parts with no regard to nesting. Here it is followed through tidy markup piece
by piece. If the markup behind the place of each part goes on as it did behind the part, it stays tidy
when the parts are replaced. Paragraphs of QR codes, which are looked at last, keep their text.
-/
namespace Slideshow
open Text Forest Fragment

/-! ## Paragraphs -/

/-- No paragraph begins in another, and what image tags hold is of some kind. -/
def proper (P : Text → Prop) (names : List Text) (name inside : Text) : Prop :=
  (name = "p" → ("p" : Text) ∉ names) ∧ (name = "img" → P inside)

theorem proper_mono {P P' : Text → Prop} (hP : ∀ inside, P inside → P' inside) (names : List Text)
    (name inside : Text) (h : proper P names name inside) : proper P' names name inside :=
  ⟨h.1, fun he => hP inside (h.2 he)⟩

theorem isTidyTag_paragraph {attributes : Text} (h : AreTidyAttributes attributes) :
    IsTidyTag "p" attributes := .of_attributes (by cbv) h

theorem push_paragraph (names : List Text) : push names "p" = ("p" : Text) :: names :=
  if_neg (of_decide_eq_true (by cbv))

theorem paragraph_eq : ("<p>" : Text) = opened "p" [] := by simp [opened]

/-- A tag that does not open a bare paragraph. -/
theorem atBrackets_opened {name inside : Text} (h : IsTidyTag name inside)
    (hne : ¬(name = "p" ∧ inside = [])) :
    AtBrackets (dropAffix? "<p>" · = none) (opened name inside) := by
  have hcons : opened name inside = '<' :: (name ++ inside ++ ['>']) := by simp [opened]
  have hname : '<' ∉ name := not_mem_name h.isName_name rfl
  rw [hcons]
  refine .bracket (.of_not_mem (by simp [hname, h.bracket_not_mem])) fun tail => ?_
  rw [← hcons, Option.eq_none_iff_forall_ne_some]
  intro rest hrest
  rw [dropAffix?_eq_some_iff, paragraph_eq] at hrest
  obtain ⟨rfl, rfl, -⟩ := opened_inj h (isTidyTag_paragraph .nil) hrest
  exact hne ⟨rfl, rfl⟩

theorem atBrackets_closed {name : Text} (hn : isName name) :
    AtBrackets (dropAffix? "<p>" · = none) (closed name) := by
  rw [closed_eq]
  exact .bracket (.of_not_mem (by simp [not_mem_name hn (c := '<') rfl])) fun tail => by
    simp [dropAffix?]

section Paragraphs
variable {P : Text → Prop} {names step behind : List Text} {s t : Text}

theorem moves_paragraph {attributes : Text} (h : AreTidyAttributes attributes)
    (hnames : ("p" : Text) ∉ names) :
    Moves (proper P) names (opened "p" attributes) (("p" : Text) :: names) := by
  rw [← push_paragraph]
  exact .opened (isTidyTag_paragraph h) ⟨fun _ => hnames, fun he => absurd he (by simp)⟩

theorem moves_close : Moves (proper P) (("p" : Text) :: names) (closed "p") names := .closed (by cbv)

/-- In a paragraph, up to its end, no other begins. -/
theorem runs_paragraph {inner : List Text} (hinner : ("p" : Text) ∉ inner)
    (h : Runs (proper P) (inner ++ ("p" : Text) :: names) s step) (hs : Text.occursIn "</p>" s = false) :
    ∃ inner', step = inner' ++ ("p" : Text) :: names ∧ ("p" : Text) ∉ inner' ∧
      AtBrackets (dropAffix? "<p>" · = none) s := by
  generalize hstack : inner ++ ("p" : Text) :: names = stack at h
  induction h generalizing inner with
  | nil => exact ⟨inner, hstack.symm, hinner, .of_not_mem (by simp)⟩
  | @cons stack next step piece s hpiece _ ih =>
    have hrest : Text.occursIn "</p>" s = false := by
      rw [Bool.eq_false_iff] at hs ⊢
      exact fun hyes => hs (occursIn_mono (List.suffix_append piece s).isInfix hyes)
    cases hpiece with
    | letter hopen hclose =>
      obtain ⟨inner', hstep, hmem, hplain⟩ := ih hinner hrest hstack
      exact ⟨inner', hstep, hmem, .append (.of_not_mem (by simpa using Ne.symm hopen)) hplain⟩
    | @opened _ name inside htag hok =>
      subst hstack
      have hname : name ≠ "p" := fun he => hok.1 he (by simp)
      have hplain := atBrackets_opened htag fun he => hname he.1
      have hpush : ∃ inner', inner' ++ ("p" : Text) :: names = push (inner ++ ("p" : Text) :: names) name ∧
          ("p" : Text) ∉ inner' := by
        rw [push]
        split
        · exact ⟨inner, rfl, hinner⟩
        · exact ⟨name :: inner, rfl, fun hmem => (List.mem_cons.1 hmem).elim (Ne.symm hname) hinner⟩
      obtain ⟨inner', hnext, hmem⟩ := hpush
      obtain ⟨inner'', hstep, hmem', hplain'⟩ := ih hmem hrest hnext
      exact ⟨inner'', hstep, hmem', hplain.append hplain'⟩
    | @closed _ name hn =>
      cases inner with
      | nil =>
        obtain ⟨rfl, rfl⟩ := List.cons.inj hstack
        have hyes : Text.occursIn "</p>" (closed "p" ++ s) := occursIn_iff.2 ⟨[], s, by simp [closed]⟩
        exact absurd (hs.symm.trans hyes) (by decide)
      | cons first inner =>
        obtain ⟨rfl, rfl⟩ := List.cons.inj hstack
        obtain ⟨inner', hstep, hmem, hplain⟩ :=
          ih (fun hmem => hinner (List.mem_cons_of_mem _ hmem)) hrest rfl
        exact ⟨inner', hstep, hmem, (atBrackets_closed hn).append hplain⟩

/-- A paragraph ends at the first close tag of a paragraph. -/
theorem runs_of_paragraph (h : Runs (proper P) (("p" : Text) :: names) (s ++ (closed "p" ++ t)) behind)
    (hs : Text.occursIn "</p>" s = false) :
    Runs (proper P) (("p" : Text) :: names) s (("p" : Text) :: names) ∧ Runs (proper P) names t behind ∧
      AtBrackets (dropAffix? "<p>" · = none) s := by
  rw [closed_eq, List.cons_append] at h
  obtain ⟨step, htext, hclose⟩ := h.exists_at_bracket
  rw [← List.cons_append, ← closed_eq] at hclose
  obtain ⟨inner, hstep, hinner, hplain⟩ := @runs_paragraph P names step s [] (by simp) htext hs
  obtain ⟨after, hafter, hrest⟩ := hclose.of_closed (by cbv)
  rw [hstep] at hafter
  cases inner with
  | nil =>
    obtain rfl := (List.cons.inj hafter).2
    rw [hstep] at htext
    exact ⟨htext, hrest, hplain⟩
  | cons name inner => exact absurd (by rw [(List.cons.inj hafter).1]; simp) hinner

end Paragraphs

/-! ## Parts in tidy markup -/

/-- A text in the place of a part, up to the end of a tag that the part has begun. -/
structure Fits (P : Text → Prop) (names step : List Text) (place more : Text) : Prop where
  bracket_not_mem : '<' ∉ more
  runs : Runs (proper P) names (place ++ more) step
  plain : AtBrackets (dropAffix? "<p>" · = none) (place ++ more)
  head : ("p" : Text) ∈ names → place.head? = some '<'

/-- Behind the places of the parts of some kind the markup goes on as behind the parts. -/
def KeepsTidy {α : Type} (P P' : Text → Prop) (p : Pattern α) (f : α → Text) (Q : α → Prop) : Prop :=
  ∀ {a : α} {rest : Text} {names behind : List Text}, Q a → p.read? (p.spell a ++ rest) = some (a, rest) →
    Runs (proper P) names (p.spell a ++ rest) behind → ∃ more after step,
      rest = more ++ after ∧ Runs (proper P) step after behind ∧ Fits P' names step (f a) more

/-- A paragraph that starts like a QR code has text only, without double quotes. -/
def IsPlainChart (s : Text) : Prop :=
  ∀ x rest, s = "<p>.qr:" ++ (x ++ '<' :: rest) → '<' ∉ x → '"' ∉ x ∧ ∃ after, rest = "/p>" ++ after

def HasPlainCharts (s : Text) : Prop :=
  ∀ before after, s = before ++ '<' :: after → IsPlainChart ('<' :: after)

theorem isPlainChart_of_dropAffix? {s : Text} (h : dropAffix? "<p>" s = none) : IsPlainChart s := by
  rintro x rest rfl -
  have hsome : dropAffix? "<p>" ("<p>.qr:" ++ (x ++ '<' :: rest)) = some (".qr:" ++ (x ++ '<' :: rest)) :=
    dropAffix?_eq_some_iff.2 (by simp)
  exact absurd (h.symm.trans hsome) (by simp)

namespace HasPlainCharts
variable {s t : Text}

theorem right (h : HasPlainCharts (s ++ t)) : HasPlainCharts t :=
  fun before after he => h (s ++ before) after (by rw [he, List.append_assoc])

theorem of_not_mem (h : '<' ∉ s) : HasPlainCharts s := by
  rintro before after rfl
  simp at h

theorem cons {c : Char} (h : c = '<' → IsPlainChart (c :: s)) (hs : HasPlainCharts s) :
    HasPlainCharts (c :: s) := by
  intro before after he
  cases before with
  | nil =>
    obtain ⟨rfl, rfl⟩ := List.cons.inj he
    exact h rfl
  | cons d before => exact hs before after (List.cons.inj he).2

theorem append (hs : AtBrackets (dropAffix? "<p>" · = none) s) (ht : HasPlainCharts t) :
    HasPlainCharts (s ++ t) := by
  intro before after he
  rcases List.append_eq_append_iff.1 he with ⟨more, rfl, hmore⟩ | ⟨more, rfl, hmore⟩
  · exact ht more after hmore
  · cases more with
    | nil => exact ht [] after hmore.symm
    | cons c more =>
      obtain ⟨rfl, rfl⟩ := List.cons.inj hmore
      exact isPlainChart_of_dropAffix? (hs before more rfl t)

end HasPlainCharts

section Parts
variable {α : Type} {p : Pattern α} {key : Text} (hp : p.StartsWith ('<' :: key)) {f : α → Text}

include hp

/-- Up to its first angle bracket a text is left as it is, if no part vanishes there. -/
theorem Pattern.StartsWith.of_replace_eq {s x rest : Text} (hx : '<' ∉ x)
    (h : p.replace f s = x ++ '<' :: rest)
    (hhead : ∀ w v a r, s = w ++ v → '<' ∉ w → p.read? v = some (a, r) → (f a).head? = some '<') :
    ∃ v, s = x ++ '<' :: v ∧ (p.read? ('<' :: v) = none → rest = p.replace f v) := by
  by_cases hs : '<' ∈ s
  · obtain ⟨w, v, rfl, hw⟩ := List.eq_append_cons_of_mem hs
    rw [hp.replace_append hw] at h
    cases hread : p.read? ('<' :: v) with
    | none =>
      rw [replace_of_read?_eq_none hread] at h
      obtain ⟨rfl, -, hrest⟩ := append_cons_inj hw hx h
      exact ⟨v, rfl, fun _ => hrest.symm⟩
    | some read =>
      obtain ⟨a, r⟩ := read
      obtain ⟨z, hz⟩ := List.head?_eq_some_iff.1 (hhead w _ a r rfl hw hread)
      rw [replace_of_read? hread, hz, List.cons_append] at h
      obtain ⟨rfl, -, -⟩ := append_cons_inj hw hx h
      exact ⟨v, rfl, fun hnone => by simp [hread] at hnone⟩
  · have hkept := hp.replace_append (f := f) hs []
    rw [List.append_nil, replace_nil, List.append_nil, h] at hkept
    exact absurd (by simp [← hkept]) hs

variable {P P' : Text → Prop} {Q : α → Prop} (hP : ∀ inside, P inside → P' inside)
  (hkey : ∀ t, dropAffix? key ('/' :: t) = none)  (hpart : KeepsTidy P P' p f Q)
include hpart

omit hp in
theorem Forest.Runs.head_of_read? {names behind : List Text} {s v r : Text} {a : α} (ha : Q a)
    (h : Runs (proper P) (("p" : Text) :: names) (s ++ v) behind) (hs : '<' ∉ s)
    (hread : p.read? v = some (a, r)) : (f a).head? = some '<' := by
  obtain ⟨-, hv⟩ := h.of_letters hs
  rw [p.eq_append_of_read? hread] at hv hread
  obtain ⟨more, after, step, -, -, hfits⟩ := hpart ha hread hv
  exact hfits.head (by simp)

include hkey

/-- A tag that stays, in front of markup whose parts are replaced. -/
theorem isPlainChart_append_replace {names step behind : List Text} {piece s : Text}
    (hpiece : Moves (proper P) names piece step) (h : Runs (proper P) step s behind)
    (hQ : ∀ a ∈ p.parts s, Q a) (hchart : IsPlainChart (piece ++ s)) :
    IsPlainChart (piece ++ p.replace f s) := by
  intro x rest he hx
  have hparagraph : ("<p>.qr:" ++ (x ++ '<' :: rest) : Text) =
      opened "p" [] ++ (".qr:" ++ x ++ '<' :: rest) := by simp [opened]
  have hfront : '<' ∉ (".qr:" ++ x : Text) := by simp [hx]
  rw [hparagraph] at he
  cases hpiece with
  | letter hopen => exact absurd he (letter_ne_opened hopen)
  | closed hn => exact absurd he.symm (opened_ne_closed (isTidyTag_paragraph .nil) hn)
  | opened htag =>
    obtain ⟨rfl, rfl, hfront'⟩ := opened_inj htag (isTidyTag_paragraph .nil) he
    rw [push_paragraph] at h
    obtain ⟨v, rfl, hrest⟩ := hp.of_replace_eq hfront hfront' fun w v a r hs hw hread => by
      rw [hs] at h hQ
      rw [hp.parts_append hw, Pattern.parts_of_read? hread] at hQ
      exact h.head_of_read? hpart (hQ a (by simp)) hw hread
    obtain ⟨hquote, after, rfl⟩ := hchart x v (by simp [opened]) hx
    have hnone : p.read? ('<' :: ("/p>" ++ after)) = none := hp _ (by simp [dropAffix?, hkey])
    rw [hrest hnone, hp.replace_append (by simp)]
    exact ⟨hquote, _, rfl⟩

include hP

/-- The induction is on the length of the markup: behind a part it goes on at the end of a tag. -/
theorem Forest.Runs.replace {s : Text} {names behind : List Text} (h : Runs (proper P) names s behind)
    (hQ : ∀ a ∈ p.parts s, Q a) : Runs (proper P') names (p.replace f s) behind ∧
      (HasPlainCharts s → HasPlainCharts (p.replace f s)) := by
  induction hlength : s.length using Nat.strong_induction_on generalizing s names with
  | _ n ih =>
    subst hlength
    cases s with
    | nil =>
      rw [Pattern.replace_nil, h.eq_of_nil]
      exact ⟨.nil, id⟩
    | cons c s =>
      cases hread : p.read? (c :: s) with
      | some read =>
        obtain ⟨a, rest⟩ := read
        have hspell := p.eq_append_of_read? hread
        rw [Pattern.parts_of_read? hread] at hQ
        rw [hspell] at h
        obtain ⟨more, after, step, rfl, hafter, hfits⟩ := hpart (hQ a (by simp)) (hspell ▸ hread) h
        have hlength := congrArg List.length hspell
        have hpos := List.length_pos_iff.2 (p.spell_ne_nil a)
        simp only [List.length_append] at hlength
        rw [hp.parts_append hfits.bracket_not_mem] at hQ
        obtain ⟨hruns, hcharts⟩ := ih after.length (by omega) hafter
          (fun b hb => hQ b (List.mem_cons_of_mem a hb)) rfl
        rw [Pattern.replace_of_read? hread, hp.replace_append hfits.bracket_not_mem, ← List.append_assoc]
        refine ⟨hfits.runs.append hruns, fun hs => .append hfits.plain (hcharts ?_)⟩
        rw [hspell, ← List.append_assoc] at hs
        exact hs.right
      | none =>
        obtain ⟨piece, rest, step, he, hpiece, hrest⟩ := h.exists_moves
        obtain ⟨d, inside, rfl, hinside⟩ := hpiece.exists_cons
        rw [List.cons_append] at he
        obtain ⟨rfl, rfl⟩ := List.cons.inj he
        rw [Pattern.parts_of_read?_eq_none hread, hp.parts_append hinside] at hQ
        obtain ⟨hruns, hcharts⟩ := ih rest.length (by simp) hrest hQ rfl
        rw [Pattern.replace_of_read?_eq_none hread, hp.replace_append hinside, ← List.cons_append]
        refine ⟨.cons (hpiece.mono (proper_mono hP)) hruns, fun hs => .cons (fun he => ?_) ?_⟩
        · subst he
          exact isPlainChart_append_replace hp hkey hpart hpiece hrest hQ (hs [] _ rfl)
        · exact .append (.of_not_mem hinside) (hcharts (HasPlainCharts.right (s := _ :: inside) hs))

end Parts

/-- Content that is tidy and keeps to the rules that the passes rely on. -/
structure Forest.IsProper (P : Text → Prop) (s : Text) : Prop where
  runs : Runs (proper P) [] s []
  charts : HasPlainCharts s

namespace Forest.IsProper
variable {P P' : Text → Prop} {s : Text}

theorem mono (hP : ∀ inside, P inside → P' inside) (h : IsProper P s) : IsProper P' s :=
  ⟨h.runs.mono (proper_mono hP), h.charts⟩

theorem replace {α : Type} {p : Pattern α} {key : Text} (hp : p.StartsWith ('<' :: key))
    (hkey : ∀ t, dropAffix? key ('/' :: t) = none) (hP : ∀ inside, P inside → P' inside) {f : α → Text}
    {Q : α → Prop} (hpart : KeepsTidy P P' p f Q) (h : IsProper P s) (hQ : ∀ a ∈ p.parts s, Q a) :
    IsProper P' (p.replace f s) := by
  obtain ⟨hruns, hcharts⟩ := h.runs.replace hp hP hkey hpart hQ
  exact ⟨hruns, hcharts h.charts⟩

end Forest.IsProper

end Slideshow
