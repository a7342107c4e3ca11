import Slideshow.Restructured.Line
import Slideshow.Restructured.Block

/-! # Reading reStructuredText

Blocks are read from the front of a list of lines. A nested body is read from lines that lost
their margin, so its weight, the number of its characters and lines, is smaller than that of the
lines it was cut from; this is why reading ends.
-/
namespace Slideshow.Restructured
open Text

/-- The number of characters and lines. -/
def weight : List Text → Nat
  | [] => 0
  | l :: ls => l.length + 1 + weight ls

@[simp] theorem weight_nil : weight [] = 0 := rfl

@[simp] theorem weight_cons (l : Text) (ls : List Text) :
    weight (l :: ls) = l.length + 1 + weight ls := rfl

def weights : List (List Text) → Nat
  | [] => 0
  | ls :: items => weight ls + weights items

@[simp] theorem weights_nil : weights [] = 0 := rfl

@[simp] theorem weights_cons (ls : List Text) (items : List (List Text)) :
    weights (ls :: items) = weight ls + weights items := rfl

theorem weight_le_weights {item : List Text} {items : List (List Text)} (h : item ∈ items) :
    weight item ≤ weights items := by
  induction items with
  | nil => simp at h
  | cons other items ih =>
    rcases List.mem_cons.1 h with rfl | h
    · simp
    · have := ih h
      simp
      omega

theorem weight_le_of_sublist {ls ms : List Text} (h : ls.Sublist ms) : weight ls ≤ weight ms := by
  induction h with
  | slnil => simp
  | cons _ _ ih => simp; omega
  | cons_cons _ _ ih => simp; omega

theorem weight_map_drop_le (n : Nat) (ls : List Text) :
    weight (ls.map (·.drop n)) ≤ weight ls := by
  induction ls with
  | nil => simp
  | cons l ls ih => simp; omega

theorem weight_map_drop_lt {n : Nat} {l : Text} {ls : List Text} (hn : 0 < n) (hl : l ≠ [])
    (h : l ∈ ls) : weight (ls.map (·.drop n)) < weight ls := by
  induction ls with
  | nil => simp at h
  | cons k ls ih =>
    have := List.length_pos_iff.2 hl
    rcases List.mem_cons.1 h with rfl | h
    · have := weight_map_drop_le n ls
      simp
      omega
    · have := ih h
      simp
      omega

/-- A line of an indented block. -/
def isInside (line : Text) : Bool := line = [] || 0 < indent line

/-- The lines up to the last that is not blank. -/
def withoutBlankEnd (ls : List Text) : List Text := (ls.reverse.dropWhile (· = [])).reverse

theorem withoutBlankEnd_initial (ls : List Text) : withoutBlankEnd ls <+: ls := by
  simpa [withoutBlankEnd] using
    (List.dropWhile_suffix (fun l : Text => decide (l = [])) (l := ls.reverse)).reverse

theorem mem_withoutBlankEnd {l : Text} {ls : List Text} (hl : l ≠ []) (h : l ∈ ls) :
    l ∈ withoutBlankEnd ls := by
  rw [withoutBlankEnd, List.mem_reverse]
  have e := List.takeWhile_append_dropWhile (l := ls.reverse) (p := fun l => decide (l = []))
  rw [← List.mem_reverse, ← e, List.mem_append] at h
  rcases h with h | h
  · exact absurd (by simpa using List.all_eq_true.1 List.all_takeWhile l h) hl
  · exact h

theorem withoutBlankEnd_concat (ls : List Text) (l : Text) :
    withoutBlankEnd (ls ++ [l]) = if l = [] then withoutBlankEnd ls else ls ++ [l] := by
  rw [withoutBlankEnd, List.reverse_concat, List.dropWhile_cons]
  split <;> simp_all [withoutBlankEnd]

/-- The smallest indent of the lines that are not blank. -/
def margin (ls : List Text) : Nat := ((ls.filter (· ≠ [])).map indent).min?.getD 0

theorem margin_pos {l : Text} {ls : List Text} (inside : ∀ l ∈ ls, isInside l) (hl : l ≠ [])
    (h : l ∈ ls) : 0 < margin ls := by
  have hm : indent l ∈ (ls.filter (· ≠ [])).map indent :=
    List.mem_map.2 ⟨l, by simp [h, hl], rfl⟩
  unfold margin
  cases hmin : ((ls.filter (· ≠ [])).map indent).min? with
  | none => simp [List.min?_eq_none_iff] at hmin; exact absurd (hmin l h) hl
  | some n =>
    obtain ⟨k, hk, rfl⟩ := List.mem_map.1 (List.min?_eq_some_iff.1 hmin).1
    simp only [List.mem_filter, decide_eq_true_eq] at hk
    simpa [isInside, hk.2] using inside k hk.1

theorem margin_le {l : Text} {ls : List Text} (h : l ∈ ls) (hl : l ≠ []) :
    margin ls ≤ indent l := by
  have hm : indent l ∈ (ls.filter (· ≠ [])).map indent :=
    List.mem_map.2 ⟨l, by simp [h, hl], rfl⟩
  unfold margin
  cases hmin : ((ls.filter (· ≠ [])).map indent).min? with
  | none =>
    rw [List.min?_eq_none_iff] at hmin
    rw [hmin] at hm
    simp at hm
  | some n => exact (List.min?_eq_some_iff.1 hmin).2 _ hm

/-- The indented block at the front, without its margin and the blank lines at its end. -/
def indented (ls : List Text) : List Text :=
  let block := withoutBlankEnd (ls.takeWhile isInside)
  block.map (·.drop (margin block))

/-- The lines behind the indented block. -/
def afterIndented (ls : List Text) : List Text := ls.dropWhile isInside

theorem weight_indented_le (ls : List Text) : weight (indented ls) ≤ weight ls :=
  Nat.le_trans (weight_map_drop_le _ _) (weight_le_of_sublist
    ((withoutBlankEnd_initial _).sublist.trans ( List.takeWhile_prefix _).sublist))

theorem weight_indented_lt {line : Text} (rest : List Text) (h : 0 < indent line) :
    weight (indented (line :: rest)) < weight (line :: rest) := by
  have hl : line ≠ [] := by rintro rfl; simp [indent] at h
  have hin : isInside line := by simp [isInside, h]
  have hm : line ∈ withoutBlankEnd ((line :: rest).takeWhile isInside) :=
    mem_withoutBlankEnd hl (by simp [hin])
  refine Nat.lt_of_lt_of_le (weight_map_drop_lt (margin_pos ?_ hl hm) hl hm) (weight_le_of_sublist
    ((withoutBlankEnd_initial _).sublist.trans ( List.takeWhile_prefix _).sublist))
  intro k hk
  exact List.all_eq_true.1 List.all_takeWhile k ((withoutBlankEnd_initial _).subset hk)

theorem weight_afterIndented_le (ls : List Text) : weight (afterIndented ls) ≤ weight ls :=
  weight_le_of_sublist (List.dropWhile_suffix _).sublist

theorem weight_afterIndented_lt {line : Text} (rest : List Text) (h : 0 < indent line) :
    weight (afterIndented (line :: rest)) < weight (line :: rest) := by
  have hin : isInside line := by simp [isInside, h]
  have := weight_afterIndented_le rest
  simp only [afterIndented, List.dropWhile_cons, hin, if_true, weight_cons] at this ⊢
  omega

/-- Whether the last line in front of the remaining ones is blank. -/
def endsBlank (all remaining : List Text) : Bool :=
  (all.take (all.length - remaining.length)).getLast? = some []

/-- Whether the first line belongs to an item of a width. A blank line does if the next line that
is not blank does. -/
def continues (width : Nat) (l : Text) (ls : List Text) : Bool :=
  ((l :: ls).find? (· ≠ [])).any (width ≤ indent ·)

/-- The lines that continue an item of a width, without that margin, and the lines after them. -/
def continuation (width : Nat) : List Text → List Text × List Text
  | [] => ([], [])
  | l :: ls =>
    if continues width l ls then
      let (more, rest) := continuation width ls
      (l.drop width :: more, rest)
    else ([], l :: ls)

theorem weight_continuation (width : Nat) (ls : List Text) :
    weight (continuation width ls).1 + weight (continuation width ls).2 ≤ weight ls := by
  induction ls with
  | nil => simp [continuation]
  | cons l ls ih =>
    by_cases h : continues width l ls
    · simp only [continuation, h, if_true, weight_cons, List.length_drop]
      omega
    · simp [continuation, h]

theorem marker?_content_length {line : Text} {m : Marker} (h : marker? line = some m) :
    m.content.length < line.length := by
  obtain ⟨front, rfl, hne, -⟩ := exists_front_of_marker? h
  have := List.length_pos_iff.2 hne
  rw [List.length_append]
  omega

/-- The items of a list, each as its lines, and the lines after the list. -/
def itemsOf (bullet : Option Char) (lines : List Text) : List (List Text) × List Text :=
  match lines with
  | [] => ([], [])
  | line :: rest =>
    match marker? line with
    | none => ([], line :: rest)
    | some m =>
      if m.bullet = bullet then
        let item := continuation m.width rest
        let after := itemsOf bullet (item.2.dropWhile (· = []))
        ((m.content :: item.1) :: after.1, after.2)
      else ([], line :: rest)
termination_by weight lines
decreasing_by
  have h₁ := weight_continuation m.width rest
  have h₂ := weight_le_of_sublist
    (List.dropWhile_suffix (fun l : Text => decide (l = [])) (l := (continuation m.width rest).2)).sublist
  simp only [weight_cons]
  omega

theorem weight_itemsOf (bullet : Option Char) (lines : List Text) :
    weights (itemsOf bullet lines).1 + weight (itemsOf bullet lines).2 ≤ weight lines := by
  fun_induction itemsOf bullet lines with
  | case1 => simp
  | case2 => simp
  | case3 line rest m hm hb item after ih =>
    have h₁ := weight_continuation m.width rest
    have h₂ := weight_le_of_sublist
      (List.dropWhile_suffix (fun l : Text => decide (l = [])) (l := item.2)).sublist
    have h₃ := marker?_content_length hm
    simp only [weights_cons, weight_cons]
    simp only [item, after] at *
    omega
  | case4 => simp

theorem weight_itemsOf_lt {line : Text} {m : Marker} (rest : List Text)
    (h : marker? line = some m) :
    weights (itemsOf m.bullet (line :: rest)).1
      + weight (itemsOf m.bullet (line :: rest)).2 < weight (line :: rest) := by
  have h₁ := weight_continuation m.width rest
  have h₂ := weight_le_of_sublist (List.dropWhile_suffix (fun l : Text => decide (l = []))
    (l := (continuation m.width rest).2)).sublist
  have h₃ := marker?_content_length h
  have h₄ := weight_itemsOf m.bullet
    ((continuation m.width rest).2.dropWhile fun l => decide (l = []))
  rw [itemsOf]
  simp only [h, if_true, weights_cons, weight_cons]
  omega

/-- A paragraph's text, and whether it announces a literal block by two colons at its end. -/
def paragraphOf (ls : List Text) : Text × Bool :=
  let text := unlines (ls.map trim)
  match dropEnding? "::" text with
  | none => (text, false)
  | some text =>
    if text = trimRight text then (text ++ ":", true) else (trimRight text, true)

theorem Directive.of?_sublist {text : Text} {body : List Text} {d : Directive}
    (h : Directive.of? text body = some d) :
    d.argument.Sublist text ∧ d.content.Sublist body := by
  simp only [Directive.of?, Option.bind_eq_bind, Option.bind_eq_some_iff] at h
  obtain ⟨first, -, h⟩ := h
  split at h
  · simp at h
  simp only [Option.bind_eq_some_iff] at h
  obtain ⟨argument, ha, h⟩ := h
  rw [dropAffix?_eq_some_iff] at ha
  obtain rfl := Option.some.inj h
  constructor
  · have hname : (text.dropWhile fun c => isWord c || decide (c = '-')).Sublist text :=
      (List.dropWhile_suffix _).sublist
    rw [ha] at hname
    exact ((trimRight_initial _).sublist.trans (List.dropWhile_suffix isBlank).sublist).trans
      ((List.sublist_append_right _ argument).trans hname)
  · exact (List.dropWhile_suffix _).sublist.trans (List.drop_sublist _ _)

theorem Directive.of?_weight {text : Text} {body : List Text} {d : Directive}
    (h : Directive.of? text body = some d) :
    d.argument.length ≤ text.length ∧ weight d.content ≤ weight body :=
  ⟨(Directive.of?_sublist h).1.length_le, weight_le_of_sublist (Directive.of?_sublist h).2⟩
def imageNames : List Text := ["image", "figure"]

def codeNames : List Text := ["code", "code-block", "sourcecode"]

def admonitionNames : List Text :=
  ["note", "warning", "tip", "important", "attention", "caution", "hint"]

/-- An admonition's argument is the first line of its body. -/
def Directive.body (d : Directive) : List Text :=
  if d.name ∈ admonitionNames && d.argument ≠ [] then d.argument :: d.content else d.content

/-- The image that a directive names; its argument stands in for a missing description. -/
def Directive.image (d : Directive) : Block :=
  .image d.argument (((d.options.find? (·.1 = ("alt" : Text))).map (·.2)).getD d.argument)

theorem Directive.weight_body_lt {text line : Text} {rest : List Text} {d : Directive}
    (hl : dropAffix? ".. " line = some text) (h : Directive.of? text (indented rest) = some d) :
    weight d.body < weight (line :: rest) := by
  have h₁ := Directive.of?_weight h
  have h₂ := weight_indented_le rest
  rw [dropAffix?_eq_some_iff] at hl
  have h₃ := congrArg List.length hl
  have : 0 < (".. " : Text).length := by simp
  simp only [List.length_append] at h₃
  unfold Directive.body
  split <;> simp only [weight_cons] <;> omega

theorem Opening.of_eq_title {fresh : Bool} {line text : Text} {rest after : List Text}
    {style : Style} (h : Opening.of fresh line rest = .title style text after) :
    weight after < weight (line :: rest) := by
  simp only [Opening.of] at h
  split at h
  · next s t r ht =>
    simp only [Opening.title.injEq] at h
    obtain ⟨rfl, rfl, rfl⟩ := h
    simp only [Option.orElse_eq_orElse, Option.orElse_eq_or, Option.or_eq_some_iff] at ht
    rcases ht with ht | ⟨-, ht⟩
    · unfold overlinedTitle? at ht
      split at ht
      · split at ht
        · simp only [Option.some.injEq, Prod.mk.injEq] at ht
          obtain ⟨-, -, rfl⟩ := ht
          simp only [weight_cons]
          omega
        · simp at ht
      · simp at ht
    · unfold underlinedTitle? at ht
      split at ht
      · split at ht
        · simp only [Option.some.injEq, Prod.mk.injEq] at ht
          obtain ⟨-, -, rfl⟩ := ht
          simp only [weight_cons]
          omega
        · simp at ht
      · simp at ht
  · repeat (split at h <;> try simp at h)

theorem Opening.of_eq_markup {fresh : Bool} {line text : Text} {rest : List Text}
    (h : Opening.of fresh line rest = .markup text) : dropAffix? ".. " line = some text := by
  simp only [Opening.of] at h
  repeat (split at h <;> try simp_all)

theorem Opening.of_eq_quote {fresh : Bool} {line : Text} {rest : List Text}
    (h : Opening.of fresh line rest = .quote) : 0 < indent line := by
  simp only [Opening.of] at h
  repeat (split at h <;> try simp_all)
  all_goals omega

theorem Opening.of_eq_list {fresh : Bool} {line : Text} {rest : List Text} {bullet : Option Char}
    (h : Opening.of fresh line rest = .list bullet) :
    ∃ m, marker? line = some m ∧ m.bullet = bullet := by
  simp only [Opening.of] at h
  repeat (split at h <;> try simp_all)

mutual

/-- The blocks of some lines and the styles known after them. `styles` are the title styles met
before, `literal` says that a literal block was announced, and `fresh` that no text stands right
above. -/
def blocks (styles : List Style) (literal fresh : Bool) (lines : List Text) :
    List Style × List Block :=
  match lines with
  | [] => (styles, [])
  | line :: rest =>
    if line = [] then blocks styles literal true rest
    else if _literal : literal = true ∧ 0 < indent line then
      let after := afterIndented (line :: rest)
      (blocks styles false (endsBlank (line :: rest) after) after).map id
        (.literal (indented (line :: rest)) :: ·)
    else match _opening : Opening.of fresh line rest with
    | .title style text after =>
      let (rank, styles) := rankOf styles style
      (blocks styles false false after).map id (.title rank text :: ·)
    | .transition => (blocks styles false false rest).map id (.transition :: ·)
    | .markup text =>
      let after := afterIndented rest
      let (styles, made) :=
        match _directive : Directive.of? text (indented rest) with
        | none => (styles, [])
        | some d =>
          if d.name ∈ imageNames then (styles, [d.image])
          else if d.name ∈ codeNames then (styles, [.code d.argument d.content])
          else
            let (styles, body) := blocks styles false true d.body
            (styles, [if d.name ∈ admonitionNames then .admonition d.name body
              else .container d.name body])
      (blocks styles false (endsBlank (line :: rest) after) after).map id (made ++ ·)
    | .quote =>
      let (styles, body) := blocks styles false true (indented (line :: rest))
      let after := afterIndented (line :: rest)
      (blocks styles false (endsBlank (line :: rest) after) after).map id (.quote body :: ·)
    | .list bullet =>
      let split := itemsOf bullet (line :: rest)
      let (styles, items) := bodies styles split.1
      (blocks styles false (endsBlank (line :: rest) split.2) split.2).map id
        (.list bullet.isNone items :: ·)
    | .paragraph =>
      let (text, literal) := paragraphOf (line :: rest.takeWhile (· ≠ []))
      (blocks styles literal false (rest.dropWhile (· ≠ []))).map id (.paragraph text :: ·)
termination_by (weight lines, 0)
decreasing_by
  all_goals apply Prod.Lex.left
  · simp
  · exact weight_afterIndented_lt rest _literal.2
  · exact Opening.of_eq_title _opening
  · simp
  · exact Directive.weight_body_lt (Opening.of_eq_markup _opening) _directive
  · have := weight_afterIndented_le rest
    simp only [weight_cons]
    omega
  · exact weight_indented_lt rest (Opening.of_eq_quote _opening)
  · exact weight_afterIndented_lt rest (Opening.of_eq_quote _opening)
  · obtain ⟨m, hm, rfl⟩ := Opening.of_eq_list _opening
    have := weight_itemsOf_lt rest hm
    omega
  · obtain ⟨m, hm, rfl⟩ := Opening.of_eq_list _opening
    have := weight_itemsOf_lt rest hm
    omega
  · have := weight_le_of_sublist
      (List.dropWhile_suffix (fun l : Text => decide (l ≠ [])) (l := rest)).sublist
    simp only [weight_cons]
    omega

/-- The blocks of each of several bodies, read one after the other. -/
def bodies (styles : List Style) (items : List (List Text)) : List Style × List (List Block) :=
  match items with
  | [] => (styles, [])
  | item :: items =>
    let (styles, body) := blocks styles false true item
    (bodies styles items).map id (body :: ·)
termination_by (weights items, items.length + 1)
decreasing_by
  · by_cases h : weight item < weights (item :: items)
    · exact Prod.Lex.left _ _ h
    · have : weight item = weights (item :: items) := by
        simp only [weights_cons] at h ⊢
        omega
      rw [this]
      exact Prod.Lex.right _ (by simp)
  · by_cases h : weights items < weights (item :: items)
    · exact Prod.Lex.left _ _ h
    · have : weights items = weights (item :: items) := by
        simp only [weights_cons] at h ⊢
        omega
      rw [this]
      exact Prod.Lex.right _ (by simp)

end

/-- The blocks of a document. -/
def Block.ofSource (source : Text) : List Block := (blocks [] false true (linesOf source)).2

/-- A document as HTML. -/
def toHtml (source : Text) : Text := Block.htmlAll (Block.ofSource source)

end Slideshow.Restructured
