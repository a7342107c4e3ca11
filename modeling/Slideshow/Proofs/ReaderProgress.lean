import Slideshow.Proofs.IndexedReader
import Mathlib

/-!
# The reader of blocks ends

The reader by index takes one turn after the other. A turn always has a result, it leaves an index
that is larger and not behind the last line, and the bodies it hands back to the reader hold fewer
bytes than the lines they were cut from. So with enough turns the reader comes to the end of every
source, and what it made is what the reader of lists makes.
-/
namespace Slideshow.Restructured
open Text

/-! ## What is read again is shorter -/

/-- The number of bytes of some lines. -/
def size (lines : List Text) : Nat := byteLength lines.flatten

/-- The characters of a body stand in the lines in their order, and another one in front of them. -/
def IsCutFrom (body lines : List Text) : Prop :=
  ∃ c : Char, (c :: body.flatten).Sublist lines.flatten

section Cut
variable {body lines : List Text}

theorem IsCutFrom.size_lt (h : IsCutFrom body lines) : size body < size lines := by
  obtain ⟨c, h⟩ := h
  have hle := byteLength_le_of_sublist h
  have hpos := c.utf8Size_pos
  rw [byteLength_cons] at hle
  rw [size, size]
  omega

theorem IsCutFrom.of_drop {i : Nat} (h : IsCutFrom body (lines.drop i)) : IsCutFrom body lines := by
  obtain ⟨c, h⟩ := h
  exact ⟨c, h.trans (List.drop_sublist i lines).flatten⟩

theorem flatten_map_drop_sublist (n : Nat) (ls : List Text) :
    (ls.map (·.drop n)).flatten.Sublist ls.flatten := by
  induction ls with
  | nil => exact List.Sublist.refl []
  | cons l ls ih => exact (List.drop_sublist n l).append ih

theorem flatten_indented_sublist (ls : List Text) : (indented ls).flatten.Sublist ls.flatten :=
  (flatten_map_drop_sublist _ _).trans
    ((withoutBlankEnd_initial _).sublist.trans (List.takeWhile_prefix _).sublist).flatten

/-- The first line of a quote loses a space at least. -/
theorem isCutFrom_indented {line : Text} (rest : List Text) (h : 0 < indent line) :
    IsCutFrom (indented (line :: rest)) (line :: rest) := by
  have hl : line ≠ [] := by
    rintro rfl
    simp [indent] at h
  have hin : isInside line := by simp [isInside, h]
  have hprefix : withoutBlankEnd ((line :: rest).takeWhile isInside) <+: line :: rest :=
    (withoutBlankEnd_initial _).trans (List.takeWhile_prefix _)
  have hmem : line ∈ withoutBlankEnd ((line :: rest).takeWhile isInside) :=
    mem_withoutBlankEnd hl (by simp [hin])
  have hmargin : 0 < margin (withoutBlankEnd ((line :: rest).takeWhile isInside)) :=
    margin_pos (fun k hk => List.all_eq_true.1 List.all_takeWhile k
      ((withoutBlankEnd_initial _).subset hk)) hl hmem
  rw [indented]
  generalize withoutBlankEnd ((line :: rest).takeWhile isInside) = block at hprefix hmem hmargin
  obtain ⟨c, text, rfl⟩ := List.exists_cons_of_ne_nil hl
  obtain ⟨first, block, rfl⟩ := List.exists_cons_of_ne_nil (List.ne_nil_of_mem hmem)
  obtain ⟨rfl, hblock⟩ := List.cons_prefix_cons.1 hprefix
  obtain ⟨n, hn⟩ := Nat.exists_eq_add_one.2 hmargin
  refine ⟨c, ?_⟩
  simp only [hn, List.map_cons, List.drop_succ_cons, List.flatten_cons, List.cons_append]
  exact ((List.drop_sublist n text).append
    ((flatten_map_drop_sublist _ block).trans hblock.sublist.flatten)).cons_cons c

theorem flatten_continuation_sublist (width : Nat) (ls : List Text) :
    ((continuation width ls).1.flatten ++ (continuation width ls).2.flatten).Sublist
      ls.flatten := by
  induction ls with
  | nil => exact List.Sublist.refl []
  | cons l ls ih =>
    rw [continuation]
    split
    · rw [List.flatten_cons, List.flatten_cons, List.append_assoc]
      exact (List.drop_sublist width l).append ih
    · exact List.Sublist.refl _

/-- An item loses its marker. -/
theorem isCutFrom_of_mem_itemsOf {bullet : Option Char} {item : List Text}
    (h : item ∈ (itemsOf bullet lines).1) : IsCutFrom item lines := by
  fun_induction itemsOf bullet lines with
  | case1 => simp at h
  | case2 => simp at h
  | case3 line rest m hm hb found after ih =>
    have hcontinued := flatten_continuation_sublist m.width rest
    rcases List.mem_cons.1 h with rfl | h
    · obtain ⟨front, hline, hne, -⟩ := exists_front_of_marker? hm
      obtain ⟨c, front, rfl⟩ := List.exists_cons_of_ne_nil hne
      refine ⟨c, ?_⟩
      rw [List.flatten_cons, List.flatten_cons, hline, List.cons_append, List.cons_append]
      refine List.Sublist.cons_cons c ?_
      exact (List.sublist_append_right front m.content).append
        ((List.sublist_append_left _ _).trans hcontinued)
    · obtain ⟨c, hcut⟩ := ih h
      refine ⟨c, hcut.trans ?_⟩
      have hleft : (found.2.dropWhile (· = [])).flatten.Sublist found.2.flatten :=
        (List.dropWhile_suffix _).sublist.flatten
      exact (hleft.trans ((List.sublist_append_right _ _).trans hcontinued)).trans
        (List.sublist_append_right line rest.flatten)
  | case4 => simp at h

/-- The body of a directive loses the dots in front of the directive. -/
theorem isCutFrom_directive {text line : Text} {rest : List Text} {d : Directive}
    (hline : dropAffix? ".. " line = some text)
    (h : Directive.of? text (indented rest) = some d) : IsCutFrom d.body (line :: rest) := by
  obtain ⟨hargument, hcontent⟩ := Directive.of?_sublist h
  have hbehind := hcontent.flatten.trans (flatten_indented_sublist rest)
  have hbody : d.body.flatten.Sublist (text ++ rest.flatten) := by
    unfold Directive.body
    split
    · exact hargument.append hbehind
    · exact hbehind.trans (List.sublist_append_right text _)
  have hdots : (".. " : Text) = '.' :: ['.', ' '] := by simp
  rw [dropAffix?_eq_some_iff, hdots] at hline
  refine ⟨'.', ?_⟩
  rw [List.flatten_cons, hline, List.cons_append, List.cons_append, List.append_assoc]
  exact (hbody.trans (List.sublist_append_right ['.', ' '] _)).cons_cons '.'

end Cut

/-! ## Progress -/

/-- What a turn from an index comes to: the index grows and stays within the lines, what is read
again is shorter, and the blocks are those of the reader of lists. -/
structure IsTurn (lines : List Text) (i : Nat) (literal : Bool) (t : Turn) : Prop where
  lt : i < t.next
  le_length : t.next ≤ lines.length
  isCutFrom : ∀ body ∈ t.made.nested, IsCutFrom body (lines.drop i)
  weight_lt : ∀ body ∈ t.made.nested, weight body < weight (lines.drop i)
  reads : ∀ styles, ∃ made, t.made.read? blocksOf styles = some made ∧
    blocks styles literal (isFresh lines i) (lines.drop i) =
      let more := blocks made.1 t.literal (isFresh lines t.next) (lines.drop t.next)
      (more.1, made.2 ++ more.2)

section Progress
variable {lines rest : List Text} {i : Nat} {line : Text} {literal : Bool}

/-- A turn that leaves the lines behind some that it took. -/
theorem IsTurn.of_reaches {next : Nat} {left : List Text} {made : Made} {announced : Bool}
    (hreach : Reaches lines i next left) (hlt : weight left < weight (lines.drop i))
    (hcut : ∀ body ∈ made.nested,
      IsCutFrom body (lines.drop i) ∧ weight body < weight (lines.drop i))
    (hreads : ∀ styles, ∃ r, made.read? blocksOf styles = some r ∧
      blocks styles literal (isFresh lines i) (lines.drop i) =
        let more := blocks r.1 announced (endsBlank (lines.drop i) left) left
        (more.1, r.2 ++ more.2)) :
    IsTurn lines i literal ⟨made, next, announced⟩ where
  lt := hreach.lt hlt
  le_length := hreach.le_length
  isCutFrom body hbody := (hcut body hbody).1
  weight_lt body hbody := (hcut body hbody).2
  reads styles := by
    obtain ⟨r, hr, hblocks⟩ := hreads styles
    refine ⟨r, hr, ?_⟩
    rw [hblocks, isFresh_of_reaches hreach (hreach.lt hlt), hreach.drop_eq]

theorem endsBlank_dropWhile (ls : List Text) : endsBlank ls (ls.dropWhile (· ≠ [])) = false := by
  have hsplit := List.takeWhile_append_dropWhile (l := ls) (p := (· ≠ []))
  have hlength := congrArg List.length hsplit
  have htaken : ls.take (ls.length - (ls.dropWhile (· ≠ [])).length) = ls.takeWhile (· ≠ []) := by
    conv => lhs; arg 2; rw [← hsplit]
    rw [List.length_append] at hlength
    exact List.take_left' (by omega)
  rw [endsBlank, htaken]
  refine decide_eq_false fun hlast => ?_
  have hmem := List.all_eq_true.1 List.all_takeWhile _ (List.mem_of_getLast? hlast)
  simp at hmem

theorem isTurn_blank (hdrop : lines.drop i = [] :: rest) :
    IsTurn lines i literal ⟨.ready [], i + 1, literal⟩ where
  lt := Nat.lt_succ_self i
  le_length := (drop_eq_cons hdrop).1
  isCutFrom body hbody := by simp [Made.nested] at hbody
  weight_lt body hbody := by simp [Made.nested] at hbody
  reads styles := by
    obtain ⟨-, hline, hrest⟩ := drop_eq_cons hdrop
    refine ⟨_, rfl, ?_⟩
    simp only [hdrop, blocks_blank, isFresh_succ hline, hrest]
    rfl

theorem isTurn_literal {next : Nat} (hdrop : lines.drop i = line :: rest) (hl : line ≠ [])
    (h : literal = true ∧ 0 < indent line)
    (hreach : Reaches lines i next (afterIndented (lines.drop i))) :
    IsTurn lines i literal ⟨.ready [.literal (indented (lines.drop i))], next, false⟩ := by
  refine .of_reaches hreach ?_ (by simp [Made.nested]) fun styles => ⟨_, rfl, ?_⟩
  · rw [hdrop]
    exact weight_afterIndented_lt rest h.2
  · rw [hdrop, blocks_literal hl h]
    rfl

section Opened
variable (hdrop : lines.drop i = line :: rest) (hl : line ≠ [])
  (hn : ¬(literal = true ∧ 0 < indent line))
include hdrop hl hn

theorem isTurn_title {style : Style} {text : Text} {next : Nat}
    (ho : Opening.of (isFresh lines i) line rest = .title style text (lines.drop next))
    (hnext : i < next ∧ next ≤ lines.length ∧ isFresh lines next = false) :
    IsTurn lines i literal ⟨.title style text, next, false⟩ where
  lt := hnext.1
  le_length := hnext.2.1
  isCutFrom body hbody := by simp [Made.nested] at hbody
  weight_lt body hbody := by simp [Made.nested] at hbody
  reads styles := by
    refine ⟨_, rfl, ?_⟩
    rw [hdrop, blocks_title hl hn ho]
    simp only [hnext.2.2]
    rfl

theorem isTurn_transition (ho : Opening.of (isFresh lines i) line rest = .transition) :
    IsTurn lines i literal ⟨.ready [.transition], i + 1, false⟩ where
  lt := Nat.lt_succ_self i
  le_length := (drop_eq_cons hdrop).1
  isCutFrom body hbody := by simp [Made.nested] at hbody
  weight_lt body hbody := by simp [Made.nested] at hbody
  reads styles := by
    obtain ⟨-, hline, hrest⟩ := drop_eq_cons hdrop
    refine ⟨_, rfl, ?_⟩
    rw [hdrop, blocks_transition hl hn ho]
    simp only [isFresh_succ hline, hl, hrest]
    rfl

theorem isTurn_markup {text : Text} {next : Nat}
    (ho : Opening.of (isFresh lines i) line rest = .markup text)
    (hreach : Reaches lines (i + 1) next (afterIndented rest)) :
    IsTurn lines i literal ⟨.directive (Directive.of? text (indented rest)), next, false⟩ := by
  have hmarkup := Opening.of_eq_markup ho
  refine .of_reaches (hreach.of_le (Nat.le_succ i)) ?_ (fun body hbody => ?_)
    fun styles => ⟨_, read?_directive styles _, ?_⟩
  · have := weight_afterIndented_le rest
    rw [hdrop, weight_cons]
    omega
  · rw [hdrop]
    cases hd : Directive.of? text (indented rest) with
    | none => simp [hd, Made.nested] at hbody
    | some d =>
      rw [hd, Made.nested] at hbody
      split at hbody
      · simp at hbody
      · obtain rfl := List.mem_singleton.1 hbody
        exact ⟨isCutFrom_directive hmarkup hd, Directive.weight_body_lt hmarkup hd⟩
  · rw [hdrop, blocks_markup hl hn ho]

theorem isTurn_quote {next : Nat} (ho : Opening.of (isFresh lines i) line rest = .quote)
    (hreach : Reaches lines i next (afterIndented (lines.drop i))) :
    IsTurn lines i literal ⟨.quote (indented (lines.drop i)), next, false⟩ := by
  have hpos := Opening.of_eq_quote ho
  rw [hdrop] at hreach ⊢
  refine .of_reaches hreach ?_ (fun body hbody => ?_) fun styles => ⟨_, rfl, ?_⟩
  · rw [hdrop]
    exact weight_afterIndented_lt rest hpos
  · obtain rfl := List.mem_singleton.1 hbody
    rw [hdrop]
    exact ⟨isCutFrom_indented rest hpos, weight_indented_lt rest hpos⟩
  · rw [hdrop, blocks_quote hl hn ho]
    rfl

theorem isTurn_list {bullet : Option Char} {next : Nat}
    (ho : Opening.of (isFresh lines i) line rest = .list bullet)
    (hreach : Reaches lines i next (itemsOf bullet (lines.drop i)).2) :
    IsTurn lines i literal
      ⟨.list bullet.isNone (itemsOf bullet (lines.drop i)).1, next, false⟩ := by
  obtain ⟨m, hm, rfl⟩ := Opening.of_eq_list ho
  have hlt := weight_itemsOf_lt rest hm
  rw [hdrop] at hreach ⊢
  refine .of_reaches hreach ?_ (fun body hbody => ?_)
    fun styles => ⟨_, congrArg (Option.map _) (readItems?_blocksOf styles _), ?_⟩
  · rw [hdrop]
    omega
  · rw [hdrop]
    have hle : weight body ≤ weights (itemsOf m.bullet (line :: rest)).1 := weight_le_weights hbody
    exact ⟨isCutFrom_of_mem_itemsOf hbody, by omega⟩
  · rw [hdrop, blocks_list hl hn ho]
    rfl

theorem isTurn_paragraph (ho : Opening.of (isFresh lines i) line rest = .paragraph) :
    IsTurn lines i literal
      ⟨.ready [.paragraph (paragraphOf (line :: rest.takeWhile (· ≠ []))).1],
        skipWhile (· ≠ []) lines i, (paragraphOf (line :: rest.takeWhile (· ≠ []))).2⟩ := by
  have hreach := reaches_skipWhile (· ≠ []) (Nat.le_of_lt (drop_eq_cons hdrop).1)
  have hends := endsBlank_dropWhile (line :: rest)
  rw [hdrop] at hreach
  simp only [List.dropWhile_cons, ne_eq, hl, not_false_eq_true, decide_true, if_true] at hreach hends
  refine .of_reaches hreach ?_ (by simp [Made.nested]) fun styles => ⟨_, rfl, ?_⟩
  · have := weight_le_of_sublist
      (List.dropWhile_suffix (fun l : Text => decide (l ≠ [])) (l := rest)).sublist
    rw [hdrop, weight_cons]
    simp only [ne_eq] at this
    omega
  · rw [hdrop, blocks_paragraph hl hn ho, hends]
    rfl

/-- Each opening is met by the turn for it. -/
theorem opened?_eq_some : ∃ t, opened? lines i line = some t ∧ IsTurn lines i literal t := by
  obtain ⟨hi, hline, hrest⟩ := drop_eq_cons hdrop
  obtain ⟨found, hfound, htitle, hbehind⟩ := titleAt?_eq_some hdrop
  rw [opened?, hfound]
  cases found with
  | some t =>
    obtain ⟨style, text, next⟩ := t
    have ho : Opening.of (isFresh lines i) line rest = .title style text (lines.drop next) := by
      simp only [Opening.of, htitle, Option.map_some]
    exact ⟨_, rfl, isTurn_title hdrop hl hn ho (hbehind _ rfl)⟩
  | none =>
    simp only [Option.map_none] at htitle
    simp only [Option.bind_eq_bind, Option.bind_some, transitionAt?_eq_some hdrop]
    split
    · next ht =>
      have ho : Opening.of (isFresh lines i) line rest = .transition := by
        simp only [Opening.of, htitle, ht, if_true]
      exact ⟨_, rfl, isTurn_transition hdrop hl hn ho⟩
    next ht =>
    cases hmarkup : dropAffix? ".. " line with
    | some text =>
      have ho : Opening.of (isFresh lines i) line rest = .markup text := by
        simp only [Opening.of, htitle, ht, Bool.false_eq_true, if_false, hmarkup]
      obtain ⟨next, hbody, hreach⟩ := indentedAt?_eq_some hi
      rw [hrest] at hbody hreach
      simp only [hbody, directiveAt?_eq_some, Option.bind_some]
      exact ⟨_, rfl, isTurn_markup hdrop hl hn ho hreach⟩
    | none =>
      by_cases hpos : 0 < indent line
      · have ho : Opening.of (isFresh lines i) line rest = .quote := by
          simp only [Opening.of, htitle, ht, Bool.false_eq_true, if_false, hmarkup, hpos, if_true]
        obtain ⟨next, hbody, hreach⟩ := indentedAt?_eq_some (Nat.le_of_lt hi)
        simp only [hpos, if_true, hbody, Option.bind_some]
        exact ⟨_, rfl, isTurn_quote hdrop hl hn ho hreach⟩
      simp only [hpos, if_false, markerAt?_eq_some, Option.bind_some]
      cases hm : marker? line with
      | some m =>
        have ho : Opening.of (isFresh lines i) line rest = .list m.bullet := by
          simp only [Opening.of, htitle, ht, Bool.false_eq_true, if_false, hmarkup, hpos, hm]
        obtain ⟨next, hitems, hreach⟩ :=
          itemsAt?_eq_some m.bullet (Nat.le_of_lt hi)
            (show lines.length - i < lines.length + 1 by omega)
        simp only [Option.map_some, hitems, Option.bind_some]
        exact ⟨_, rfl, isTurn_list hdrop hl hn ho hreach⟩
      | none =>
        have ho : Opening.of (isFresh lines i) line rest = .paragraph := by
          simp only [Opening.of, htitle, ht, Bool.false_eq_true, if_false, hmarkup, hpos, hm]
        have hslice : slice? lines i (skipWhile (· ≠ []) lines i) =
            some (line :: rest.takeWhile (· ≠ [])) := by
          rw [slice?_skipWhile _ (Nat.le_of_lt hi), hdrop, List.takeWhile_cons,
            if_pos (by simpa using hl)]
        simp only [Option.map_none, hslice, paragraphAt?_eq_some, Option.bind_some]
        exact ⟨_, rfl, isTurn_paragraph hdrop hl hn ho⟩

end Opened

theorem turn?_eq_some (hi : i < lines.length) (literal : Bool) :
    ∃ t, turn? lines i literal = some t ∧ IsTurn lines i literal t := by
  obtain ⟨line, rest, hdrop⟩ : ∃ line rest, lines.drop i = line :: rest :=
    ⟨_, _, List.drop_eq_getElem_cons hi⟩
  have hline := (drop_eq_cons hdrop).2.1
  simp only [turn?, hline, Option.bind_eq_bind, Option.bind_some]
  split
  · next hl =>
    subst hl
    exact ⟨_, rfl, isTurn_blank hdrop⟩
  · next hl =>
    split
    · next hliteral =>
      obtain ⟨next, hblock, hreach⟩ := indentedAt?_eq_some (Nat.le_of_lt hi)
      rw [hblock]
      exact ⟨_, rfl, isTurn_literal hdrop hl hliteral hreach⟩
    · next hn => exact opened?_eq_some hdrop hl hn

end Progress

/-- The styles and the blocks from an index on, in so many turns. -/
def read? : Nat → List Style → List Text → Nat → Bool → Option (List Style × List Block)
  | 0, _, _, _, _ => none
  | turns + 1, styles, lines, i, literal =>
    if lines.length ≤ i then some (styles, [])
    else do
      let turn ← turn? lines i literal
      let made ← turn.made.read? (fun styles body => read? turns styles body 0 false) styles
      let more ← read? turns made.1 lines turn.next turn.literal
      some (more.1, made.2 ++ more.2)

theorem weight_drop_lt {lines : List Text} {i next : Nat} (hi : i < lines.length) (h : i < next) :
    weight (lines.drop next) < weight (lines.drop i) := by
  have hrest : lines.drop next = (lines.drop (i + 1)).drop (next - (i + 1)) := by
    rw [List.drop_drop]
    congr 1
    omega
  have hle := weight_le_of_sublist (List.drop_sublist (next - (i + 1)) (lines.drop (i + 1)))
  rw [hrest, List.drop_eq_getElem_cons hi, weight_cons]
  omega

/-- By induction on the turns: a turn leaves less weight to the next one, and its bodies weigh less
than the lines that they were cut from. -/
theorem read?_eq_some {turns : Nat} {lines : List Text} {i : Nat} (styles : List Style)
    (literal : Bool) (h : weight (lines.drop i) < turns) :
    read? turns styles lines i literal =
      some (blocks styles literal (isFresh lines i) (lines.drop i)) := by
  induction turns generalizing styles lines i literal with
  | zero => omega
  | succ turns ih =>
    rw [read?]
    split
    · next hend => rw [List.drop_eq_nil_of_le hend, blocks_nil]
    · next hend =>
      have hi := Nat.lt_of_not_le hend
      obtain ⟨t, ht, hturn⟩ := turn?_eq_some hi literal
      obtain ⟨made, hmade, hblocks⟩ := hturn.reads styles
      have hbodies : t.made.read? (fun styles body => read? turns styles body 0 false) styles =
          some made := by
        rw [← hmade]
        refine Made.read?_congr (fun body hbody styles => ?_) styles
        have hweight := hturn.weight_lt body hbody
        exact ih styles false (show weight (body.drop 0) < turns by rw [List.drop_zero]; omega)
      have hleft := weight_drop_lt hi hturn.lt
      have hrest : read? turns made.1 lines t.next t.literal =
          some (blocks made.1 t.literal (isFresh lines t.next) (lines.drop t.next)) :=
        ih made.1 t.literal (by omega)
      simp only [ht, hbodies, hrest, hblocks, Option.bind_eq_bind, Option.bind_some]

/-- The HTML of a document, read in so many turns. -/
def toHtmlAt? (turns : Nat) (source : Text) : Option Text :=
  (read? turns [] (linesOf source) 0 false).map fun r => Block.htmlAll r.2

/-- Every cut and every look at a line has a result, wherever the reader comes. The index grows with
each item of a list and with each turn and stays within the lines, and a body that is read again has
fewer bytes than the lines around it. So each source is read to its end, in no more turns than it has
characters and lines, and its HTML is that of the reader of lists. -/
theorem reader_progress :
    (∀ lines start, start ≤ lines.length → ∃ next,
      indentedAt? lines start = some (indented (lines.drop start), next) ∧
        start ≤ next ∧ next ≤ lines.length) ∧
    (∀ text body, directiveAt? text body = some (Directive.of? text body)) ∧
    (∀ bullet lines i, ∃ found, itemAt? bullet lines i = some found ∧
      ∀ item next, found = some (item, next) →
        i < next ∧ next ≤ lines.length ∧ size item < size lines) ∧
    (∀ lines i literal, i < lines.length → ∃ t, turn? lines i literal = some t ∧
      i < t.next ∧ t.next ≤ lines.length ∧ ∀ body ∈ t.made.nested, size body < size lines) ∧
    ∀ source turns, weight (linesOf source) < turns →
      toHtmlAt? turns source = some (toHtml source) := by
  refine ⟨fun lines start h => ?_, directiveAt?_eq_some, fun bullet lines i => ?_,
    fun lines i literal hi => ?_, fun source turns h => ?_⟩
  · obtain ⟨next, hblock, hreach⟩ := indentedAt?_eq_some h
    exact ⟨next, hblock, hreach.le, hreach.le_length⟩
  · rcases itemAt?_cases bullet lines i with ⟨hnone, -⟩ | ⟨item, next, left, hitem, hreach, hitems⟩
    · exact ⟨none, hnone, by simp⟩
    · refine ⟨_, hitem, ?_⟩
      rintro found last h
      obtain ⟨rfl, rfl⟩ := Prod.mk.inj (Option.some.inj h)
      have hmem : item ∈ (itemsOf bullet (lines.drop i)).1 := by simp [hitems]
      exact ⟨hreach.le, hreach.le_length, (isCutFrom_of_mem_itemsOf hmem).of_drop.size_lt⟩
  · obtain ⟨t, ht, hturn⟩ := turn?_eq_some hi literal
    exact ⟨t, ht, hturn.lt, hturn.le_length,
      fun body hbody => (hturn.isCutFrom body hbody).of_drop.size_lt⟩
  · rw [toHtmlAt?, read?_eq_some [] false h, Option.map_some]
    rfl

/-- A number of two Arabic digits: its marker has six bytes and four characters. -/
def numberedTalk : Text := "١٢. one::\n\n       \u3000code\n.. note:: x\n   - two"

theorem reader_progress_numberedTalk :
    itemAt? none (linesOf numberedTalk) 0 =
      some (some ([("one::" : Text), [], " \u3000code"], 3)) ∧
    size [("one::" : Text), [], " \u3000code"] < size (linesOf numberedTalk) ∧
    (∃ next, indentedAt? (linesOf numberedTalk) 4 = some ([("- two" : Text)], next) ∧
      4 ≤ next ∧ next ≤ (linesOf numberedTalk).length) ∧
    (∃ t, turn? (linesOf numberedTalk) 3 false = some t ∧ 3 < t.next ∧
      t.next ≤ (linesOf numberedTalk).length ∧
      ∀ body ∈ t.made.nested, size body < size (linesOf numberedTalk)) ∧
    toHtmlAt? 46 numberedTalk = some (toHtml numberedTalk) := by
  obtain ⟨hindented, -, hitem, hturn, hread⟩ := reader_progress
  have hlength : (linesOf numberedTalk).length = 5 := by cbv
  have hweight : weight (linesOf numberedTalk) = 45 := by cbv
  have hfirst : itemAt? none (linesOf numberedTalk) 0 =
      some (some ([("one::" : Text), [], " \u3000code"], 3)) := by cbv
  have hlast : indented ((linesOf numberedTalk).drop 4) = [("- two" : Text)] := by cbv
  refine ⟨hfirst, ?_, ?_, hturn _ 3 false (by rw [hlength]; decide),
    hread _ 46 (by rw [hweight]; decide)⟩
  · obtain ⟨found, hfound, hprogress⟩ := hitem none (linesOf numberedTalk) 0
    rw [hfirst] at hfound
    exact (hprogress _ _ (Option.some.inj hfound).symm).2.2
  · obtain ⟨next, hblock, hbounds⟩ := hindented (linesOf numberedTalk) 4 (by rw [hlength]; decide)
    rw [hlast] at hblock
    exact ⟨next, hblock, hbounds⟩

end Slideshow.Restructured
