import Slideshow.Proofs.BlockEquations
import Slideshow.Text.Blank
import Mathlib

/-!
# The layout of a source

Blank lines around a document, white space behind its lines, the form of its line breaks and tabs in
place of spaces leave no trace in the HTML. Most of this is seen where the source is cut into lines,
before a block is read. A blank line behind the last one is still there when blocks are read: it
goes with the lines that are left, and whoever looks ahead finds there what the end would tell.
-/
namespace Slideshow.Restructured
open Text

/-! ## A blank line at the end -/

/-- What is left of some lines, if a blank line stood behind the last of them. -/
def withBlankEnd (ls : List Text) : List Text := if ls = [] then [] else ls ++ [[]]

section End
variable {ls : List Text}

theorem withBlankEnd_of_ne_nil (h : ls ≠ []) : withBlankEnd ls = ls ++ [[]] := if_neg h

theorem takeWhile_append_blank {p : Text → Bool} (hp : p [] = false) (ls : List Text) :
    (ls ++ [[]]).takeWhile p = ls.takeWhile p := by
  induction ls with
  | nil => simp [hp]
  | cons l ls ih => rw [List.cons_append, List.takeWhile_cons, List.takeWhile_cons, ih]

theorem dropWhile_append_blank {p : Text → Bool} (hp : p [] = false) (ls : List Text) :
    (ls ++ [[]]).dropWhile p = ls.dropWhile p ++ [[]] := by
  induction ls with
  | nil => simp [hp]
  | cons l ls ih =>
    rw [List.cons_append, List.dropWhile_cons, List.dropWhile_cons, ih]
    split <;> rfl

/-- Lines that are passed over take a blank line at the end with them. -/
theorem dropWhile_append_blank_of_pos {p : Text → Bool} (hp : p []) (ls : List Text) :
    (ls ++ [[]]).dropWhile p = withBlankEnd (ls.dropWhile p) := by
  rw [List.dropWhile_append]
  split <;> simp_all [withBlankEnd]

theorem indented_append_blank (ls : List Text) : indented (ls ++ [[]]) = indented ls := by
  have hblock : withoutBlankEnd ((ls ++ [[]]).takeWhile isInside) =
      withoutBlankEnd (ls.takeWhile isInside) := by
    rw [List.takeWhile_append]
    split
    · next hall =>
      have hself : ls.takeWhile isInside = ls := (List.takeWhile_prefix _).eq_of_length hall
      rw [hself]
      exact (withoutBlankEnd_concat ls []).trans (if_pos rfl)
    · rfl
  rw [indented, hblock, indented]

theorem afterIndented_append_blank (ls : List Text) :
    afterIndented (ls ++ [[]]) = withBlankEnd (afterIndented ls) :=
  dropWhile_append_blank_of_pos rfl ls

theorem continues_append_blank (width : Nat) (l : Text) (ls : List Text) :
    continues width l (ls ++ [[]]) = continues width l ls := by
  rw [continues, continues, ← List.cons_append, List.find?_append]
  cases h : (l :: ls).find? (· ≠ []) <;> simp

theorem continuation_append_blank (width : Nat) (ls : List Text) :
    continuation width (ls ++ [[]]) =
      ((continuation width ls).1, (continuation width ls).2 ++ [[]]) := by
  induction ls with
  | nil => rfl
  | cons l ls ih =>
    rw [List.cons_append, continuation, continues_append_blank, continuation]
    split
    · rw [ih]
    · rfl

theorem itemsOf_withBlankEnd (bullet : Option Char) (ls : List Text) :
    itemsOf bullet (withBlankEnd ls) =
      ((itemsOf bullet ls).1, withBlankEnd (itemsOf bullet ls).2) := by
  fun_induction itemsOf bullet ls with
  | case1 => rw [withBlankEnd, if_pos rfl, itemsOf]
  | case2 line rest hm => rw [withBlankEnd_of_ne_nil (by simp), List.cons_append, itemsOf, hm]
  | case3 line rest m hm hb item after ih =>
    have hafter : ((continuation m.width rest).2 ++ [[]]).dropWhile (· = []) =
        withBlankEnd (item.2.dropWhile (· = [])) := dropWhile_append_blank_of_pos rfl _
    rw [withBlankEnd_of_ne_nil (by simp), List.cons_append, itemsOf, hm]
    simp only [hb, if_true, continuation_append_blank]
    rw [hafter, ih]
  | case4 line rest m hm hb =>
    rw [withBlankEnd_of_ne_nil (by simp), List.cons_append, itemsOf, hm]
    simp only [hb, if_false]

end End

/-- The same opening with a blank line behind what it leaves. -/
def Opening.withBlankEnd : Opening → Opening
  | .title style text after => .title style text (after ++ [[]])
  | opening => opening

theorem overlinedTitle?_append_blank {line : Text} (hl : line ≠ []) (rest : List Text) :
    overlinedTitle? line (rest ++ [[]]) =
      (overlinedTitle? line rest).map fun p => (p.1, p.2.1, p.2.2 ++ [[]]) := by
  match line, rest with
  | c :: line, [] => rfl
  | c :: line, [title] => simp [overlinedTitle?]
  | c :: line, title :: under :: rest =>
    simp only [overlinedTitle?, List.cons_append]
    split <;> rfl

theorem underlinedTitle?_append_blank (line : Text) (rest : List Text) :
    underlinedTitle? line (rest ++ [[]]) =
      (underlinedTitle? line rest).map fun p => (p.1, p.2.1, p.2.2 ++ [[]]) := by
  match rest with
  | [] => rfl
  | [] :: rest => rfl
  | (c :: under) :: rest =>
    simp only [underlinedTitle?, List.cons_append]
    split <;> rfl

/-- A blank line behind the last one opens nothing and completes nothing. -/
theorem opening_append_blank {line : Text} (hl : line ≠ []) (fresh : Bool) (rest : List Text) :
    Opening.of fresh line (rest ++ [[]]) = (Opening.of fresh line rest).withBlankEnd := by
  have hhead : (rest ++ [[]]).head?.all (· = []) = rest.head?.all (· = []) := by
    cases rest <;> rfl
  simp only [Opening.of, overlinedTitle?_append_blank hl, underlinedTitle?_append_blank, hhead]
  cases overlinedTitle? line rest with
  | some p => rfl
  | none =>
    cases underlinedTitle? line rest with
    | some p => rfl
    | none =>
      simp only [Option.map_none, Option.orElse_eq_orElse, Option.orElse_none]
      repeat' split
      all_goals rfl

/-- The lines that are left are read alike, if their blocks do not see the blank line. -/
theorem blocks_left {styles : List Style} {all left : List Text} (hall : left <:+ all)
    (hleft : ∀ fresh, blocks styles false fresh (left ++ [[]]) = blocks styles false fresh left) :
    blocks styles false (endsBlank (all ++ [[]]) (withBlankEnd left)) (withBlankEnd left) =
      blocks styles false (endsBlank all left) left := by
  by_cases hnil : left = []
  · subst hnil
    simp [withBlankEnd]
  · have hle := hall.length_le
    have hends : endsBlank (all ++ [[]]) (left ++ [[]]) = endsBlank all left := by
      have hcount : (all ++ [([] : Text)]).length - (left ++ [([] : Text)]).length =
          all.length - left.length := by
        simp only [List.length_append, List.length_singleton]
        omega
      rw [endsBlank, hcount, List.take_append_of_le_length (by omega), endsBlank]
    rw [withBlankEnd_of_ne_nil hnil, hends, hleft]

theorem afterIndented_suffix (ls : List Text) : afterIndented ls <:+ ls := List.dropWhile_suffix _

theorem continuation_suffix (width : Nat) (ls : List Text) : (continuation width ls).2 <:+ ls := by
  induction ls with
  | nil => exact List.suffix_refl _
  | cons l ls ih =>
    rw [continuation]
    split
    · exact ih.trans (List.suffix_cons l ls)
    · exact List.suffix_refl _

theorem itemsOf_suffix (bullet : Option Char) (ls : List Text) : (itemsOf bullet ls).2 <:+ ls := by
  fun_induction itemsOf bullet ls with
  | case1 => exact List.suffix_refl _
  | case2 => exact List.suffix_refl _
  | case3 line rest m hm hb item after ih =>
    exact ((ih.trans (List.dropWhile_suffix _)).trans (continuation_suffix _ _)).trans
      (List.suffix_cons line rest)
  | case4 => exact List.suffix_refl _

/-- A blank line at the end is read as nothing. The lines behind a block are lighter, and each block
leaves the same of them. -/
theorem blocks_append_blank (styles : List Style) (literal fresh : Bool) (ls : List Text) :
    blocks styles literal fresh (ls ++ [[]]) = blocks styles literal fresh ls := by
  induction hw : weight ls using Nat.strongRecOn generalizing styles literal fresh ls with
  | ind w ih =>
    subst hw
    cases ls with
    | nil => rw [List.nil_append, blocks_blank, blocks_nil, blocks_nil]
    | cons line rest =>
      have hbehind : ∀ {styles : List Style} {all left : List Text},
          left <:+ all → weight left < weight (line :: rest) →
          blocks styles false (endsBlank (all ++ [[]]) (withBlankEnd left)) (withBlankEnd left) =
            blocks styles false (endsBlank all left) left :=
        fun hall hlt => blocks_left hall fun fresh => ih _ hlt _ _ _ _ rfl
      by_cases hl : line = []
      · subst hl
        rw [List.cons_append, blocks_blank, blocks_blank]
        exact ih _ (by simp) _ _ _ _ rfl
      rw [List.cons_append]
      by_cases hn : literal = true ∧ 0 < indent line
      · rw [blocks_literal hl hn, blocks_literal hl hn, ← List.cons_append, indented_append_blank,
          afterIndented_append_blank,
          hbehind (afterIndented_suffix _) (weight_afterIndented_lt rest hn.2)]
      have hopen := opening_append_blank hl fresh rest
      cases ho : Opening.of fresh line rest with
      | title style text after =>
        rw [ho] at hopen
        rw [blocks_title hl hn hopen, blocks_title hl hn ho,
          ih _ (Opening.of_eq_title ho) _ _ _ _ rfl]
      | transition =>
        rw [ho] at hopen
        rw [blocks_transition hl hn hopen, blocks_transition hl hn ho, ih _ (by simp) _ _ _ _ rfl]
      | markup text =>
        rw [ho] at hopen
        have hlt : weight (afterIndented rest) < weight (line :: rest) := by
          have := weight_afterIndented_le rest
          simp only [weight_cons]
          omega
        have hall : afterIndented rest <:+ line :: rest :=
          (afterIndented_suffix rest).trans (List.suffix_cons line rest)
        rw [blocks_markup hl hn hopen, blocks_markup hl hn ho, indented_append_blank,
          afterIndented_append_blank, ← List.cons_append]
        simp only [hbehind hall hlt]
      | quote =>
        rw [ho] at hopen
        rw [blocks_quote hl hn hopen, blocks_quote hl hn ho, ← List.cons_append,
          indented_append_blank, afterIndented_append_blank,
          hbehind (afterIndented_suffix _)
            (weight_afterIndented_lt rest (Opening.of_eq_quote ho))]
      | list bullet =>
        rw [ho] at hopen
        obtain ⟨m, hm, rfl⟩ := Opening.of_eq_list ho
        have hlt := weight_itemsOf_lt rest hm
        rw [blocks_list hl hn hopen, blocks_list hl hn ho, ← List.cons_append,
          ← withBlankEnd_of_ne_nil (List.cons_ne_nil line rest), itemsOf_withBlankEnd,
          withBlankEnd_of_ne_nil (List.cons_ne_nil line rest)]
        simp only
        rw [hbehind (itemsOf_suffix _ _) (by omega)]
      | paragraph =>
        rw [ho] at hopen
        have hlt : weight (rest.dropWhile (· ≠ [])) < weight (line :: rest) := by
          have := weight_le_of_sublist
            (List.dropWhile_suffix (fun l : Text => decide (l ≠ [])) (l := rest)).sublist
          simp only [weight_cons]
          omega
        rw [blocks_paragraph hl hn hopen, blocks_paragraph hl hn ho,
          takeWhile_append_blank (by simp), dropWhile_append_blank (by simp),
          ih _ hlt _ _ _ _ rfl]

/-- Any number of blank lines at the end are read as nothing. -/
theorem blocks_append_blanks {styles : List Style} {literal fresh : Bool} (ls : List Text)
    {blanks : List Text} (h : ∀ l ∈ blanks, l = []) :
    blocks styles literal fresh (ls ++ blanks) = blocks styles literal fresh ls := by
  induction blanks using List.reverseRecOn with
  | nil => rw [List.append_nil]
  | append_singleton blanks l ih =>
    obtain rfl := h l (by simp)
    rw [← List.append_assoc, blocks_append_blank, ih fun k hk => h k (by simp [hk])]

theorem blocks_blanks_append {styles : List Style} {literal : Bool} {blanks : List Text}
    (h : ∀ l ∈ blanks, l = []) (ls : List Text) :
    blocks styles literal true (blanks ++ ls) = blocks styles literal true ls := by
  induction blanks with
  | nil => rfl
  | cons l blanks ih =>
    obtain rfl := h l (by simp)
    rw [List.cons_append, blocks_blank, ih fun k hk => h k (by simp [hk])]

/-! ## Rows -/

/-- A line as the reader of blocks is given it. -/
def tidied (line : Text) : Text := trimRight (replaceChar '\t' "        " line)

/-- The lines of a source, and a blank one behind a break at the end. -/
def rowsOf (source : Text) : List Text := (pieces '\n' source).map tidied

/-- A break at the end opens no line; the blank row there is read as nothing. -/
theorem ofSource_eq (source : Text) :
    Block.ofSource source = (blocks [] false true (rowsOf source)).2 := by
  rw [Block.ofSource, linesOf, lines]
  split
  · next hlast =>
    obtain ⟨front, hfront⟩ := List.getLast?_eq_some_iff.1 hlast
    have hrows : rowsOf source = front.map tidied ++ [[]] := by
      rw [rowsOf, hfront, List.map_append]
      rfl
    rw [hrows, blocks_append_blank, hfront, List.dropLast_concat]
    rfl
  · rfl

theorem toHtml_congr {s t : Text} (h : rowsOf s = rowsOf t) : toHtml s = toHtml t := by
  rw [toHtml, toHtml, ofSource_eq, ofSource_eq, h]

theorem rowsOf_of_not_mem {s : Text} (h : '\n' ∉ s) : rowsOf s = [tidied s] := by
  rw [rowsOf, pieces_of_not_mem h]
  rfl

theorem rowsOf_append_break (s t : Text) : rowsOf (s ++ '\n' :: t) = rowsOf s ++ rowsOf t := by
  rw [rowsOf, pieces_append, List.map_append]
  rfl

/-- Where a text is rewritten line by line and each line is read alike, so is the text. -/
theorem rowsOf_linewise (rewritten : Text → Text)
    (hline : ∀ s, '\n' ∉ s → rowsOf (rewritten s) = rowsOf s)
    (hbreak : ∀ s t, '\n' ∉ s →
      rowsOf (rewritten (s ++ '\n' :: t)) = rowsOf s ++ rowsOf (rewritten t))
    (s : Text) : rowsOf (rewritten s) = rowsOf s := by
  induction hs : s.length using Nat.strongRecOn generalizing s with
  | ind n ih =>
    by_cases h : '\n' ∈ s
    · obtain ⟨front, behind, rfl, hfront⟩ := List.eq_append_cons_of_mem h
      rw [hbreak front behind hfront, rowsOf_append_break]
      exact congrArg _ (ih _ (by simp [← hs]; omega) behind rfl)
    · exact hline s h

/-! ## White space -/

theorem isAllBlank_replaceTab {w : Text} (h : isAllBlank w) :
    isAllBlank (replaceChar '\t' "        " w) := by
  have hspaces : isAllBlank "        " := by cbv
  refine List.all_eq_true.2 fun c hc => ?_
  rcases of_mem_replaceChar hc with hc | hc
  · exact List.all_eq_true.1 hspaces c hc
  · exact List.all_eq_true.1 h c hc.1

theorem tidied_append_blank {w : Text} (h : isAllBlank w) (s : Text) :
    tidied (s ++ w) = tidied s := by
  rw [tidied, replaceChar_append, trimRight_append_blank (isAllBlank_replaceTab h), tidied]

theorem tidied_blank {w : Text} (h : isAllBlank w) : tidied w = [] :=
  trimRight_eq_nil (isAllBlank_replaceTab h)

theorem eq_nil_of_mem_rowsOf {w : Text} (h : isAllBlank w) : ∀ l ∈ rowsOf w, l = [] := by
  intro l hl
  obtain ⟨k, hk, rfl⟩ := List.mem_map.1 hl
  have hsub := (not_mem_of_mem_pieces hk).2
  exact tidied_blank (List.all_eq_true.2 fun c hc => List.all_eq_true.1 h c (hsub hc))

/-- White space behind the last line. -/
theorem rowsOf_append_blank {w : Text} (h : isAllBlank w) (hbreak : '\n' ∉ w) (s : Text) :
    rowsOf (s ++ w) = rowsOf s := by
  refine rowsOf_linewise (· ++ w) (fun s hs => ?_) (fun s t hs => ?_) s
  · have hmem : '\n' ∉ s ++ w := by simp [hs, hbreak]
    rw [rowsOf_of_not_mem hmem, tidied_append_blank h, rowsOf_of_not_mem hs]
  · simp only [List.append_assoc, List.cons_append]
    exact rowsOf_append_break s (t ++ w)

theorem rowsOf_breakReplaced (s : Text) : rowsOf (replaceChar '\n' "\r\n" s) = rowsOf s := by
  refine rowsOf_linewise (replaceChar '\n' "\r\n") (fun s hs => ?_) (fun s t hs => ?_) s
  · rw [replaceChar_of_not_mem hs]
  · have hreturn : isAllBlank ['\r'] := by cbv
    have hsplit : replaceChar '\n' "\r\n" (s ++ '\n' :: t) =
        s ++ ['\r'] ++ '\n' :: replaceChar '\n' "\r\n" t := by
      rw [replaceChar_append, replaceChar_of_not_mem hs]
      simp [replaceChar]
    rw [hsplit, rowsOf_append_break, rowsOf_append_blank hreturn (by decide)]

theorem tidied_tabReplaced (s : Text) : tidied (replaceChar '\t' "        " s) = tidied s := by
  have hnone : '\t' ∉ replaceChar '\t' "        " s := fun hmem =>
    (of_mem_replaceChar hmem).elim (by simp) fun h => h.2 rfl
  rw [tidied, replaceChar_of_not_mem hnone, tidied]

theorem rowsOf_tabReplaced (s : Text) :
    rowsOf (replaceChar '\t' "        " s) = rowsOf s := by
  refine rowsOf_linewise (replaceChar '\t' "        ") (fun s hs => ?_) (fun s t hs => ?_) s
  all_goals
    have hmem : '\n' ∉ replaceChar '\t' "        " s := fun hmem =>
      (of_mem_replaceChar hmem).elim (by simp) fun h => hs h.1
    have hrow : rowsOf (replaceChar '\t' "        " s) = rowsOf s := by
      rw [rowsOf_of_not_mem hmem, tidied_tabReplaced, rowsOf_of_not_mem hs]
  · exact hrow
  · have hsplit : replaceChar '\t' "        " (s ++ '\n' :: t) =
        replaceChar '\t' "        " s ++ '\n' :: replaceChar '\t' "        " t := by
      rw [replaceChar_append]
      rfl
    rw [hsplit, rowsOf_append_break, hrow]

/-- A source whose lines each have some text behind them. -/
def padded (behind : Nat → Text) (source : Text) : Text :=
  unlines ((pieces '\n' source).mapIdx fun i line => line ++ behind i)

theorem rowsOf_padded {behind : Nat → Text}
    (h : ∀ i, isAllBlank (behind i) ∧ '\n' ∉ behind i) (s : Text) :
    rowsOf (padded behind s) = rowsOf s := by
  have hpieces : pieces '\n' (padded behind s) =
      (pieces '\n' s).mapIdx fun i line => line ++ behind i := by
    refine pieces_intercalate (by simpa using pieces_ne_nil '\n' s) fun line hline => ?_
    obtain ⟨i, hi, rfl⟩ := List.mem_mapIdx.1 hline
    have hpiece := (not_mem_of_mem_pieces (List.getElem_mem hi)).1
    simp [hpiece, (h i).2]
  rw [rowsOf, hpieces, rowsOf]
  refine List.ext_getElem (by simp) fun i _ _ => ?_
  rw [List.getElem_map, List.getElem_mapIdx, tidied_append_blank (h i).1, List.getElem_map]

/-- Blank lines in front of a document or behind it, white space behind any of its lines, breaks of
two characters and tabs in place of eight spaces do not change its HTML. -/
theorem toHtml_layout (source : Text) :
    (∀ blanks, isAllBlank blanks → toHtml (blanks ++ '\n' :: source) = toHtml source) ∧
    (∀ blanks, isAllBlank blanks → toHtml (source ++ blanks) = toHtml source) ∧
    (∀ behind : Nat → Text, (∀ i, isAllBlank (behind i) ∧ '\n' ∉ behind i) →
      toHtml (padded behind source) = toHtml source) ∧
    toHtml (replaceChar '\n' "\r\n" source) = toHtml source ∧
    toHtml (replaceChar '\t' "        " source) = toHtml source := by
  refine ⟨fun blanks h => ?_, fun blanks h => ?_, fun behind h => toHtml_congr (rowsOf_padded h _),
    toHtml_congr (rowsOf_breakReplaced _), toHtml_congr (rowsOf_tabReplaced _)⟩
  · rw [toHtml, ofSource_eq, rowsOf_append_break, blocks_blanks_append (eq_nil_of_mem_rowsOf h),
      ← ofSource_eq, toHtml]
  · by_cases hbreak : '\n' ∈ blanks
    · -- What stands in front of the first break belongs to the last line.
      obtain ⟨front, more, rfl, hfront⟩ := List.eq_append_cons_of_mem hbreak
      simp only [isAllBlank, List.all_append, List.all_cons, Bool.and_eq_true] at h
      rw [toHtml, ofSource_eq, ← List.append_assoc, rowsOf_append_break,
        blocks_append_blanks _ (eq_nil_of_mem_rowsOf h.2.2), rowsOf_append_blank h.1 hfront,
        ← ofSource_eq, toHtml]
    · exact toHtml_congr (rowsOf_append_blank h hbreak source)

/-- A list whose first item announces a literal block, and its second item right behind the block. -/
def listedTalk : Text := "Talk\n====\n\n1. one::\n\n     code\n2. two"

def listedHtml : Text :=
  "<h1>Talk</h1>\n<ol>\n<li><p>one:</p>\n<pre class=\"literal-block\">code</pre></li>\n"
    ++ "<li>two</li>\n</ol>\n"

theorem toHtml_listedTalk : toHtml listedTalk = listedHtml := by
  have hlines : linesOf listedTalk =
      [("Talk" : Text), "====", [], "1. one::", [], "     code", "2. two"] := by cbv
  have htitle : Opening.of true "Talk" ["====", [], "1. one::", [], "     code", "2. two"] =
      .title ⟨'=', false⟩ "Talk" [[], "1. one::", [], "     code", "2. two"] := by cbv
  have hlist : Opening.of true "1. one::" [[], "     code", "2. two"] = .list none := by cbv
  have hitems : itemsOf none [("1. one::" : Text), [], "     code", "2. two"] =
      ([[("one::" : Text), [], "  code"], [("two" : Text)]], []) := by cbv
  have hone : Opening.of true "one::" [[], "  code"] = .paragraph := by cbv
  have hcode : 0 < indent "  code" := Nat.lt_of_lt_of_eq (by decide : 0 < 2) (by cbv)
  have htwo : Opening.of true "two" [] = .paragraph := by cbv
  have hblocks : Block.ofSource listedTalk =
      [.title 1 "Talk", .list true [[.paragraph "one:", .literal ["code"]], [.paragraph "two"]]] := by
    rw [Block.ofSource, hlines, blocks_title (by simp) (by simp) htitle, blocks_blank,
      blocks_list (by simp) (by simp) hlist, hitems, bodies_cons, bodies_cons,
      blocks_paragraph (by simp) (by simp) hone, blocks_paragraph (by simp) (by simp) htwo]
    have hread : paragraphOf ["one::"] = (("one:" : Text), true) := by cbv
    have hplain : paragraphOf ["two"] = (("two" : Text), false) := by cbv
    simp only [List.takeWhile_cons, List.dropWhile_cons, ne_eq, not_true, decide_false,
      Bool.false_eq_true, if_false, List.takeWhile_nil, List.dropWhile_nil, hread, hplain, withBlock]
    rw [blocks_blank, blocks_literal (by simp) ⟨rfl, hcode⟩]
    cbv
  rw [toHtml, hblocks]
  decide +kernel

/-- A source with blank lines around it and white space of several kinds behind its lines. -/
theorem toHtml_layout_listedTalk :
    toHtml (("\u3000\n \t" : Text) ++ '\n' :: listedTalk) = listedHtml ∧
    toHtml (listedTalk ++ ("\t\n\n \n" : Text)) = listedHtml ∧
    toHtml (padded (fun i => if i = 3 then "\u2003 \t" else List.replicate i ' ') listedTalk) =
      listedHtml ∧
    toHtml (replaceChar '\n' "\r\n" listedTalk) = listedHtml ∧
    toHtml (replaceChar '\t' "        " (listedTalk ++ ("\t" : Text))) = listedHtml := by
  obtain ⟨hfront, hend, hlines, hbreaks, -⟩ := toHtml_layout listedTalk
  rw [toHtml_listedTalk] at hfront hend hlines hbreaks
  refine ⟨hfront _ (by cbv), hend _ (by cbv), hlines _ fun i => ?_, hbreaks, ?_⟩
  · split
    · exact ⟨by cbv, by simp⟩
    · exact ⟨by simp [isAllBlank, show isBlank ' ' by cbv], by simp⟩
  · exact ((toHtml_layout _).2.2.2.2).trans (hend _ (by cbv))

end Slideshow.Restructured
