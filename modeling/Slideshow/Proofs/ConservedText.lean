import Slideshow.Proofs.WrittenDocument
import Slideshow.Proofs.ShownText
import Slideshow.Proofs.TextualCharacters

/-!
# Conserved text

Reading cuts lines apart, takes margins, markers and adornments away and joins what is left. Where
no explicit markup and no link can arise, it takes away no textual character, doubles none and moves
none. The induction is along the reader: at each step the textual characters of the lines are those
of the block that is read and of the lines behind it.
-/
namespace Slideshow.Restructured
open Text Markup Forest

/-! ## Text that opens no explicit markup and no link -/

/-- Text with no two dots side by side and no backquote. -/
structure IsUnmarked (s : Text) : Prop where
  noDots : occursIn ".." s = false
  noBackquote : '`' ∉ s

theorem IsUnmarked.of_part {s t : Text} (h : IsUnmarked s) (ht : t <:+: s) : IsUnmarked t := by
  refine ⟨?_, fun hm => h.noBackquote (ht.subset hm)⟩
  exact Bool.eq_false_iff.2 fun hd => Bool.eq_false_iff.1 h.noDots (occursIn_mono ht hd)

def AreUnmarked (ls : List Text) : Prop := ∀ l ∈ ls, IsUnmarked l

theorem AreUnmarked.of_subset {ls ks : List Text} (h : AreUnmarked ls) (hk : ks ⊆ ls) :
    AreUnmarked ks := fun k hm => h k (hk hm)

theorem areUnmarked_cons {l : Text} {ls : List Text} :
    AreUnmarked (l :: ls) ↔ IsUnmarked l ∧ AreUnmarked ls := List.forall_mem_cons

private theorem trim_part (s : Text) : trim s <:+: s :=
  (trimRight_initial _).isInfix.trans (List.dropWhile_suffix isBlank).isInfix

/-! ## The lines of a document -/

private theorem textualLines_pieces {c : Char} (h : isTextual c = false) (s : Text) :
    textualLines (pieces c s) = textual s := by
  induction s with
  | nil => rfl
  | cons d s ih =>
    rw [pieces]
    split
    · next hd =>
      subst hd
      rw [textualLines_cons, ih, textual_cons_of_not h]
      rfl
    · have hcons : ∀ t, textual (d :: t) = textual [d] ++ textual t :=
        fun t => textual_append [d] t
      split
      · next hp =>
        rw [hp] at ih
        rw [hcons, ← ih]
        rfl
      · next p ps hp =>
        rw [hp] at ih
        rw [textualLines_cons, hcons, hcons s, ← ih, textualLines_cons, List.append_assoc]

private theorem pieces_parts {c : Char} {s : Text} {p : Text} {ps : List Text}
    (h : pieces c s = p :: ps) : p <+: s ∧ ∀ q ∈ ps, q <:+: s := by
  induction s generalizing p ps with
  | nil =>
    obtain ⟨rfl, rfl⟩ : [] = p ∧ [] = ps := by simpa [pieces] using h
    simp
  | cons d s ih =>
    rw [pieces] at h
    split at h
    · obtain ⟨rfl, rfl⟩ := List.cons.inj h
      refine ⟨List.nil_prefix, fun q hq => ?_⟩
      cases hs : pieces c s with
      | nil => simp [hs] at hq
      | cons r rs =>
        obtain ⟨hr, hrs⟩ := ih hs
        rw [hs] at hq
        rcases List.mem_cons.1 hq with rfl | hq
        · exact hr.isInfix.trans (List.suffix_cons d s).isInfix
        · exact (hrs q hq).trans (List.suffix_cons d s).isInfix
    · split at h
      · obtain ⟨rfl, rfl⟩ := List.cons.inj h
        simp
      · next r rs hs =>
        obtain ⟨rfl, rfl⟩ := List.cons.inj h
        obtain ⟨hr, hrs⟩ := ih hs
        refine ⟨?_, fun q hq => (hrs q hq).trans (List.suffix_cons d s).isInfix⟩
        simpa using hr

private theorem replaceTab_cons (c : Char) (s : Text) :
    replaceChar '\t' "        " (c :: s) =
      if c = '\t' then List.replicate 8 ' ' ++ replaceChar '\t' "        " s
      else c :: replaceChar '\t' "        " s := by
  have hspaces : ("        " : Text) = List.replicate 8 ' ' := by cbv
  rw [replaceChar, List.flatMap_cons, hspaces]
  split
  · rfl
  · rfl

private theorem textual_replaceTab (s : Text) :
    textual (replaceChar '\t' "        " s) = textual s := by
  induction s with
  | nil => rfl
  | cons c s ih =>
    have hcons : ∀ t, textual (c :: t) = textual [c] ++ textual t := fun t => textual_append [c] t
    rw [replaceTab_cons, hcons]
    split
    · next hc =>
      have htab : textual (List.replicate 8 ' ') = textual ['\t'] := by cbv
      rw [textual_append, ih, htab, hc]
    · rw [hcons, ih]

private theorem occursIn_dots_of_ne {c : Char} (hc : '.' ≠ c) (s : Text) :
    occursIn ".." (c :: s) = occursIn ".." s := by
  simp [occursIn, cutAt?, dropAffix?, hc]

private theorem occursIn_dots_spaces (n : Nat) (s : Text) :
    occursIn ".." (List.replicate n ' ' ++ s) = occursIn ".." s := by
  induction n with
  | zero => rfl
  | succ n ih => rw [List.replicate_succ, List.cons_append, occursIn_dots_of_ne (by decide), ih]

private theorem occursIn_dots_dot (s : Text) :
    occursIn ".." ('.' :: s) = (s.head? = some '.' || occursIn ".." s) := by
  cases s with
  | nil => simp [occursIn, cutAt?, dropAffix?]
  | cons d s =>
    by_cases hd : d = '.'
    · subst hd
      simp [occursIn, cutAt?, dropAffix?]
    · simp [occursIn, cutAt?, dropAffix?, hd, Ne.symm hd]

/-- A tab stands for no dots. -/
private theorem occursIn_replaceTab (s : Text) :
    occursIn ".." (replaceChar '\t' "        " s) = occursIn ".." s := by
  have hhead : ∀ s : Text,
      (replaceChar '\t' "        " s).head? = some '.' ↔ s.head? = some '.' := by
    intro s
    cases s with
    | nil => rfl
    | cons c s =>
      rw [replaceTab_cons]
      split
      · next hc => simp [hc, List.replicate_succ]
      · rfl
  induction s with
  | nil => rfl
  | cons c s ih =>
    rw [replaceTab_cons]
    split
    · next hc => rw [occursIn_dots_spaces, hc, occursIn_dots_of_ne (by decide), ih]
    · by_cases hdot : '.' = c
      · rw [← hdot, occursIn_dots_dot, occursIn_dots_dot, ih, decide_eq_decide.2 (hhead s)]
      · rw [occursIn_dots_of_ne hdot, occursIn_dots_of_ne hdot, ih]

private theorem IsUnmarked.replaceTab {s : Text} (h : IsUnmarked s) :
    IsUnmarked (replaceChar '\t' "        " s) := by
  refine ⟨by rw [occursIn_replaceTab, h.noDots], fun hm => ?_⟩
  exact (of_mem_replaceChar hm).elim (by simp) fun hc => h.noBackquote hc.1

theorem textualLines_linesOf (source : Text) : textualLines (linesOf source) = textual source := by
  have hlines : textualLines (lines source) = textual source := by
    rw [← textualLines_pieces (show isTextual '\n' = false by cbv), lines]
    split
    · next hlast =>
      rcases List.eq_nil_or_concat (pieces '\n' source) with hp | ⟨ps, p, hp⟩
      · simp [hp]
      · rw [hp, List.concat_eq_append, List.getLast?_concat] at hlast
        obtain rfl := Option.some.inj hlast
        simp [hp]
    · rfl
  rw [← hlines, linesOf]
  induction lines source with
  | nil => rfl
  | cons l ls ih =>
    rw [List.map_cons, textualLines_cons, textual_trimRight, textual_replaceTab, ih,
      textualLines_cons]

theorem areUnmarked_linesOf {source : Text} (h : IsUnmarked source) :
    AreUnmarked (linesOf source) := by
  intro l hl
  obtain ⟨k, hk, rfl⟩ := List.mem_map.1 hl
  have hmem : k ∈ pieces '\n' source := by
    rw [lines] at hk
    split at hk
    · exact List.dropLast_subset _ hk
    · exact hk
  have hpart : k <:+: source := by
    cases hp : pieces '\n' source with
    | nil => simp [hp] at hmem
    | cons p ps =>
      obtain ⟨hfirst, hrest⟩ := pieces_parts hp
      rw [hp] at hmem
      rcases List.mem_cons.1 hmem with rfl | hmem
      · exact hfirst.isInfix
      · exact hrest k hmem
  exact (h.of_part hpart).replaceTab.of_part (trimRight_initial _).isInfix

/-! ## Lines that are cut -/

section Lines
variable {ls : List Text}

/-- Blank lines carry no text. -/
theorem textualLines_blank (h : ∀ l ∈ ls, l = []) : textualLines ls = [] := by
  induction ls with
  | nil => rfl
  | cons l ls ih =>
    rw [textualLines_cons, h l List.mem_cons_self, ih fun k hk => h k (List.mem_cons_of_mem l hk)]
    rfl

theorem textualLines_dropBlank (ls : List Text) :
    textualLines (ls.dropWhile (· = [])) = textualLines ls := by
  have hblank : textualLines (ls.takeWhile (· = [])) = [] :=
    textualLines_blank fun l hl => by simpa using List.all_eq_true.1 List.all_takeWhile l hl
  conv => rhs; rw [← List.takeWhile_append_dropWhile (l := ls) (p := (· = [])),
    textualLines_append, hblank]
  rfl

theorem textualLines_withoutBlankEnd (ls : List Text) :
    textualLines (withoutBlankEnd ls) = textualLines ls := by
  have hblank : textualLines (ls.reverse.takeWhile (· = [])).reverse = [] := by
    refine textualLines_blank fun l hl => ?_
    rw [List.mem_reverse] at hl
    simpa using List.all_eq_true.1 List.all_takeWhile l hl
  have hsplit := congrArg List.reverse
    (List.takeWhile_append_dropWhile (l := ls.reverse) (p := (· = [])))
  rw [List.reverse_append, List.reverse_reverse] at hsplit
  conv => rhs; rw [← hsplit, textualLines_append, hblank, List.append_nil]
  rfl

/-- An indent is white space. -/
theorem textual_drop {n : Nat} {l : Text} (h : n ≤ indent l) : textual (l.drop n) = textual l := by
  have hspaces : textual (l.take n) = [] := textual_eq_nil fun c hc => by
    rw [eq_space_of_mem_take h c hc]
    cbv
  conv => rhs; rw [← List.take_append_drop n l, textual_append, hspaces]
  rfl

/-- An indented block and the lines behind it carry the text of all lines. -/
theorem textualLines_indented (ls : List Text) :
    textualLines (indented ls) ++ textualLines (afterIndented ls) = textualLines ls := by
  have hmargin : ∀ ks : List Text, textualLines (ks.map (·.drop (margin ks))) = textualLines ks := by
    intro ks
    have hdrop : ∀ l ∈ ks, textual (l.drop (margin ks)) = textual l := by
      intro l hl
      by_cases hne : l = []
      · simp [hne]
      · exact textual_drop (margin_le hl hne)
    rw [textualLines, List.flatMap_map, textualLines]
    exact List.flatMap_congr hdrop
  rw [indented, hmargin, textualLines_withoutBlankEnd, afterIndented, ← textualLines_append,
    List.takeWhile_append_dropWhile]

theorem AreUnmarked.indented (h : AreUnmarked ls) : AreUnmarked (indented ls) := by
  intro l hl
  obtain ⟨k, hk, rfl⟩ := List.mem_map.1 hl
  have hmem : k ∈ ls :=
    (List.takeWhile_prefix isInside).subset ((withoutBlankEnd_initial _).subset hk)
  exact (h k hmem).of_part (List.drop_suffix _ k).isInfix

theorem AreUnmarked.afterIndented (h : AreUnmarked ls) : AreUnmarked (afterIndented ls) :=
  h.of_subset (List.dropWhile_suffix _).subset

theorem textualLines_continuation (width : Nat) (ls : List Text) :
    textualLines (continuation width ls).1 ++ textualLines (continuation width ls).2 =
      textualLines ls := by
  induction ls with
  | nil => rfl
  | cons l ls ih =>
    rw [continuation]
    split
    · next h =>
      have hdrop : textual (l.drop width) = textual l := by
        by_cases hne : l = []
        · simp [hne]
        · exact textual_drop (by simpa [continues, hne] using h)
      rw [textualLines_cons, hdrop, List.append_assoc, ih, textualLines_cons]
    · rfl

theorem AreUnmarked.continuation (h : AreUnmarked ls) (width : Nat) :
    AreUnmarked (continuation width ls).1 ∧ AreUnmarked (continuation width ls).2 := by
  induction ls with
  | nil => exact ⟨h, h⟩
  | cons l ls ih =>
    obtain ⟨hl, hls⟩ := areUnmarked_cons.1 h
    rw [Restructured.continuation]
    split
    · refine ⟨areUnmarked_cons.2 ⟨hl.of_part (List.drop_suffix width l).isInfix, (ih hls).1⟩, ?_⟩
      exact (ih hls).2
    · exact ⟨by simp [AreUnmarked], h⟩

end Lines

/-! ## Openings -/

theorem isTextual_adornment {least : Nat} {line : Text} (h : isAdornment least line) :
    textual line = [] := by
  cases line with
  | nil => rfl
  | cons c rest =>
    simp only [isAdornment, Bool.and_eq_true, decide_eq_true_eq, Bool.not_eq_true'] at h
    obtain ⟨⟨⟨⟨-, hhigh⟩, hword⟩, -⟩, hrest⟩ := h
    have hc : isTextual c = false := by
      have hascii : ¬128 ≤ c.toNat := by omega
      simp [isTextual, hword, hascii]
    refine textual_eq_nil fun d hd => ?_
    rcases List.mem_cons.1 hd with rfl | hd
    · exact hc
    · have : d = c := by simpa using List.all_eq_true.1 hrest d hd
      rw [this, hc]

/-- A marker carries no text. -/
theorem textual_content {line : Text} {m : Marker} (h : marker? line = some m) :
    textual m.content = textual line ∧ m.content <:+ line := by
  obtain ⟨front, hline, -, -, hfront⟩ := exists_front_of_marker? h
  have hmarks : ∀ c ∈ markerChars, isTextual c = false := by
    intro c hc
    simp only [markerChars, List.mem_cons, List.not_mem_nil, or_false] at hc
    rcases hc with rfl | rfl | rfl | rfl | rfl | rfl <;> cbv
  have hnone : textual front = [] := textual_eq_nil fun c hc => by
    rcases hfront c hc with hdigit | hmark
    · simp [isTextual, hdigit]
    · exact hmarks c hmark
  refine ⟨?_, ⟨front, hline.symm⟩⟩
  conv => rhs; rw [hline, textual_append, hnone]
  rfl

/-- The items of a list and the lines behind it carry the text of all lines. -/
theorem textualLines_itemsOf (bullet : Option Char) (ls : List Text) :
    (itemsOf bullet ls).1.flatMap textualLines ++ textualLines (itemsOf bullet ls).2 =
      textualLines ls := by
  fun_induction itemsOf bullet ls with
  | case1 => rfl
  | case2 => rfl
  | case3 line rest m hm hb item after ih =>
    rw [List.flatMap_cons, textualLines_cons, (textual_content hm).1, List.append_assoc,
      List.append_assoc, ih, textualLines_dropBlank, textualLines_continuation, textualLines_cons]
  | case4 => rfl

theorem AreUnmarked.itemsOf {ls : List Text} (h : AreUnmarked ls) (bullet : Option Char) :
    (∀ item ∈ (itemsOf bullet ls).1, AreUnmarked item) ∧ AreUnmarked (itemsOf bullet ls).2 := by
  fun_induction Restructured.itemsOf bullet ls with
  | case1 => exact ⟨by simp, h⟩
  | case2 => exact ⟨by simp, h⟩
  | case3 line rest m hm hb item after ih =>
    obtain ⟨hline, hrest⟩ := areUnmarked_cons.1 h
    obtain ⟨hitem, hbehind⟩ := hrest.continuation m.width
    obtain ⟨hitems, hafter⟩ := ih (hbehind.of_subset (List.dropWhile_suffix _).subset)
    refine ⟨?_, hafter⟩
    intro k hk
    rcases List.mem_cons.1 hk with rfl | hk
    · exact areUnmarked_cons.2 ⟨hline.of_part (textual_content hm).2.isInfix, hitem⟩
    · exact hitems k hk
  | case4 => exact ⟨by simp, h⟩

/-- A title and the lines behind it carry the text of all lines. -/
theorem textual_title {fresh : Bool} {line text : Text} {rest after : List Text} {style : Style}
    (h : Opening.of fresh line rest = .title style text after) :
    textual text ++ textualLines after = textualLines (line :: rest) ∧
      (∃ l ∈ line :: rest, text <:+: l) ∧ after <:+ rest := by
  have htitle : (overlinedTitle? line rest <|> underlinedTitle? line rest) =
      some (style, text, after) := by
    simp only [Opening.of] at h
    split at h
    · next ht =>
      rw [ht]
      simpa using h
    · repeat (split at h <;> try simp at h)
  simp only [Option.orElse_eq_orElse, Option.orElse_eq_or, Option.or_eq_some_iff] at htitle
  rcases htitle with ht | ⟨-, ht⟩
  · unfold overlinedTitle? at ht
    split at ht
    · next c s title under rest =>
      split at ht
      · next hcond =>
        simp only [Bool.and_eq_true, decide_eq_true_eq] at hcond
        obtain ⟨⟨hover, -⟩, rfl⟩ := hcond
        simp only [Option.some.injEq, Prod.mk.injEq] at ht
        obtain ⟨-, rfl, rfl⟩ := ht
        refine ⟨?_, ⟨title, by simp, trim_part title⟩, ⟨[title, c :: s], rfl⟩⟩
        simp [textual_trim, isTextual_adornment hover]
      · simp at ht
    · simp at ht
  · unfold underlinedTitle? at ht
    split at ht
    · next c under rest =>
      split at ht
      · next hcond =>
        simp only [Bool.and_eq_true, decide_eq_true_eq] at hcond
        simp only [Option.some.injEq, Prod.mk.injEq] at ht
        obtain ⟨-, rfl, rfl⟩ := ht
        refine ⟨?_, ⟨line, by simp, trim_part line⟩, ⟨[c :: under], rfl⟩⟩
        simp [textual_trim, isTextual_adornment hcond.1.2]
      · simp at ht
    · simp at ht

theorem textual_transition {fresh : Bool} {line : Text} {rest : List Text}
    (h : Opening.of fresh line rest = .transition) : textual line = [] := by
  have hline : isAdornment 4 line := by
    simp only [Opening.of] at h
    repeat (split at h <;> try simp_all)
  exact isTextual_adornment hline

/-- A paragraph carries the text of its lines. -/
theorem textual_paragraphOf (ls : List Text) :
    textual (paragraphOf ls).1 = textualLines ls ∧
      ∀ c, c ∉ ['\n', ':'] → (∀ l ∈ ls, c ∉ l) → c ∉ (paragraphOf ls).1 := by
  have hjoined : textual (unlines (ls.map trim)) = textualLines ls := by
    rw [textual_unlines, textualLines, List.flatMap_map]
    exact List.flatMap_congr fun l _ => textual_trim l
  have hmem : ∀ c, c ≠ '\n' → (∀ l ∈ ls, c ∉ l) → c ∉ unlines (ls.map trim) := by
    intro c hc hls hm
    rcases mem_intercalate hm with h | ⟨k, hk, h⟩
    · exact hc h
    · obtain ⟨l, hl, rfl⟩ := List.mem_map.1 hk
      exact hls l hl ((trim_part l).subset h)
  have hcolons : textual "::" = [] ∧ textual ":" = [] := by cbv
  unfold paragraphOf
  dsimp only
  split
  · refine ⟨hjoined, fun c hc hls => hmem c ?_ hls⟩
    rintro rfl
    simp at hc
  · next text htext =>
    rw [dropEnding?_eq_some_iff] at htext
    rw [htext, textual_append, hcolons.1, List.append_nil] at hjoined
    rw [htext] at hmem
    have hfront : ∀ c, c ∉ ['\n', ':'] → (∀ l ∈ ls, c ∉ l) → c ∉ text ∧ c ≠ ':' := by
      intro c hc hls
      simp only [List.mem_cons, List.not_mem_nil, or_false, not_or] at hc
      have := hmem c hc.1 hls
      simp only [List.mem_append, not_or] at this
      exact ⟨this.1, hc.2⟩
    split
    · refine ⟨by rw [textual_append, hcolons.2, List.append_nil, hjoined], fun c hc hls => ?_⟩
      simpa using hfront c hc hls
    · refine ⟨by rw [textual_trimRight, hjoined], fun c hc hls hm => ?_⟩
      exact (hfront c hc hls).1 ((trimRight_initial text).subset hm)

/-! ## Blocks and what they show -/

/-- Inline markup shows its text, without the marks around it. -/
private theorem textual_span {sp : Span} (h : '`' ∉ sp.source) :
    textual sp.node.shownText = textual sp.source := by
  have htext : ∀ t : Text, shownText [.text (escaped t)] = t := by
    intro t
    rw [shownText, Node.shownText, unescaped_escaped, shownText, List.append_nil]
  have hmark : textual "*" = [] ∧ textual "**" = [] := by cbv
  cases sp with
  | plain c =>
    have hc := htext [c]
    rw [escaped_cons, escaped_nil, List.append_nil, shownText, shownText, List.append_nil] at hc
    rw [Span.node, hc, Span.source]
  | literal t => simp [Span.source] at h
  | strong t =>
    rw [Span.node, Node.shownText, htext, Span.source, textual_append, textual_append, hmark.2]
    simp
  | emphasis t =>
    rw [Span.node, Node.shownText, htext, Span.source, textual_append, textual_append, hmark.1]
    simp
  | link label gap target anonymous => simp [Span.source] at h
  | interpreted t => simp [Span.source] at h

theorem textual_inlineNodes {s : Text} (h : '`' ∉ s) :
    textual (shownText (inlineNodes s)) = textual s := by
  rw [inlineNodes]
  conv => rhs; rw [← flatMap_source_spans s]
  rw [← flatMap_source_spans s] at h
  generalize spans s = sps at h ⊢
  induction sps with
  | nil => rfl
  | cons sp sps ih =>
    simp only [List.flatMap_cons, List.mem_append, not_or] at h
    rw [List.map_cons, shownText, textual_append, textual_span h.1, ih h.2, List.flatMap_cons,
      textual_append]

/-! ## Blocks and what they show -/

private theorem textual_break : textual (Node.text "\n").shownText = [] := by cbv

theorem shownText_nodesOf_cons (b : Block) (bs : List Block) :
    textual (shownText (nodesOf (b :: bs))) =
      textual b.node.shownText ++ textual (shownText (nodesOf bs)) := by
  rw [nodesOf, shownText, shownText, textual_append, textual_append, textual_break]
  rfl

/-- The last line break of a body is not missed. -/
private theorem textual_dropLast_nodesOf (body : List Block) :
    textual (shownText (nodesOf body).dropLast) = textual (shownText (nodesOf body)) := by
  induction body with
  | nil => rfl
  | cons b bs ih =>
    cases bs with
    | nil =>
      have hlast : (nodesOf [b]).dropLast = [b.node] := rfl
      rw [shownText_nodesOf_cons, hlast, shownText, textual_append]
      rfl
    | cons c bs =>
      have hne : nodesOf (c :: bs) ≠ [] := by simp [nodesOf]
      rw [nodesOf, List.dropLast_cons_of_ne_nil (by simp), List.dropLast_cons_of_ne_nil hne,
        shownText, shownText, shownText, shownText]
      simp only [textual_append, ih]

theorem shownText_itemNodes_cons (body : List Block) (items : List (List Block)) :
    textual (shownText (itemNodes (body :: items))) =
      textual (shownText (nodesOf body)) ++ textual (shownText (itemNodes items)) := by
  by_cases hp : ∃ text, body = [.paragraph text]
  · obtain ⟨text, rfl⟩ := hp
    rw [itemNodes, nodesOf, nodesOf, Block.node]
    simp only [shownText, textual_append, Node.shownText, List.append_nil, List.append_assoc]
  · rw [itemNodes]
    · rw [shownText, Node.shownText, shownText, textual_append, textual_dropLast_nodesOf,
        textual_append, textual_break]
      rfl
    · exact fun text he => hp ⟨text, he⟩

/-! ## Reading -/

/-- A bracketing node and a line break in front show nothing. -/
private theorem textual_element (name attributes : Text) (children : List Node) :
    textual (Node.element name attributes (.text "\n" :: children)).shownText =
      textual (shownText children) := by
  rw [Node.shownText, shownText, textual_append, textual_break]
  rfl

private theorem conserved_blocks_and_bodies :
    (∀ styles literal fresh lines, AreUnmarked lines →
      textual (shownText (nodesOf (blocks styles literal fresh lines).2)) = textualLines lines) ∧
    ∀ styles items, (∀ item ∈ items, AreUnmarked item) →
      textual (shownText (itemNodes (bodies styles items).2)) = items.flatMap textualLines := by
  refine blocks.mutual_induct
    (fun styles literal fresh lines => AreUnmarked lines →
      textual (shownText (nodesOf (blocks styles literal fresh lines).2)) = textualLines lines)
    (fun styles items => (∀ item ∈ items, AreUnmarked item) →
      textual (shownText (itemNodes (bodies styles items).2)) = items.flatMap textualLines)
    ?nil ?blank ?literal ?title ?transition ?markup ?quote ?list ?paragraph ?none ?body
  case nil =>
    intro styles literal fresh _
    rw [blocks_nil]
    rfl
  case blank =>
    intro styles literal fresh lines ih h
    rw [blocks_blank, ih (areUnmarked_cons.1 h).2]
    rfl
  case literal =>
    intro styles literal fresh line rest hl hi after ih h
    have hnode : (Block.literal (indented (line :: rest))).node.shownText =
        unlines (indented (line :: rest)) := by
      rw [Block.node, Node.shownText, shownText, Node.shownText, unescaped_escaped, shownText,
        List.append_nil]
    rw [blocks_literal hl hi, withBlock, shownText_nodesOf_cons, ih h.afterIndented, hnode,
      textual_unlines, textualLines_indented]
  case title =>
    intro styles literal fresh line rest hl hn style text after h rank known hrank ih hu
    obtain ⟨htext, ⟨l, hmem, hpart⟩, hafter⟩ := textual_title h
    have hquote := ((hu l hmem).of_part hpart).noBackquote
    have hrest := (areUnmarked_cons.1 hu).2.of_subset hafter.subset
    rw [blocks_title hl hn h, hrank, withBlock, shownText_nodesOf_cons, ih hrest, ← htext,
      Block.node, Node.shownText, textual_inlineNodes hquote]
  case transition =>
    intro styles literal fresh line rest hl hn h ih hu
    rw [blocks_transition hl hn h, withBlock, shownText_nodesOf_cons, ih (areUnmarked_cons.1 hu).2,
      textualLines_cons, textual_transition h]
    rfl
  case markup =>
    -- A line that opens explicit markup starts with two dots.
    intro styles literal fresh line rest hl hn text h after known made hmade hbody ih hu
    have hline := (dropAffix?_eq_some_iff).1 (Opening.of_eq_markup h)
    have hdots : occursIn ".." line := occursIn_iff.2 ⟨[], " " ++ text, by simp [hline]⟩
    rw [(areUnmarked_cons.1 hu).1.noDots] at hdots
    simp at hdots
  case quote =>
    intro styles literal fresh line rest hl hn h known body hbody after hb ih hu
    rw [hbody] at hb
    rw [blocks_quote hl hn h, hbody, withBlock, shownText_nodesOf_cons, ih hu.afterIndented,
      Block.node, textual_element, hb hu.indented, textualLines_indented]
  case list =>
    intro styles literal fresh line rest hl hn bullet h split known items hitems hi ih hu
    obtain ⟨hall, hbehind⟩ := hu.itemsOf bullet
    have hnode : textual (Block.list bullet.isNone items).node.shownText =
        textual (shownText (itemNodes items)) := by
      cases bullet <;> exact textual_element _ _ _
    rw [hitems] at hi
    rw [blocks_list hl hn h, hitems, withBlock, shownText_nodesOf_cons, ih hbehind, hnode, hi hall,
      textualLines_itemsOf]
  case paragraph =>
    intro styles literal fresh line rest hl hn h text announced hp ih hu
    obtain ⟨hline, hrest⟩ := areUnmarked_cons.1 hu
    obtain ⟨htext, hmem⟩ := textual_paragraphOf (line :: rest.takeWhile (· ≠ []))
    have hquote : '`' ∉ text := by
      have hfront : AreUnmarked (line :: rest.takeWhile (· ≠ [])) :=
        areUnmarked_cons.2 ⟨hline, hrest.of_subset (List.takeWhile_prefix _).subset⟩
      have hno := hmem '`' (by simp) fun l hl => (hfront l hl).noBackquote
      rwa [hp] at hno
    rw [hp] at htext
    rw [blocks_paragraph hl hn h, hp, withBlock, shownText_nodesOf_cons,
      ih (hrest.of_subset (List.dropWhile_suffix _).subset), Block.node, Node.shownText,
      textual_inlineNodes hquote, htext, ← textualLines_append, List.cons_append,
      List.takeWhile_append_dropWhile]
  case none =>
    intro styles _
    rw [bodies_nil]
    rfl
  case body =>
    intro styles item items known body hbody hb ih hu
    rw [hbody] at hb
    rw [bodies_cons, hbody, shownText_itemNodes_cons, hb (hu item (by simp)),
      ih fun k hk => hu k (by simp [hk])]
    rfl

/-- Whatever the lines, their blocks show all their textual characters in order. -/
theorem textual_toHtml {source : Text} (h : IsUnmarked source) :
    textual (shown (toHtml source)) = textual source := by
  have hread : AreRead (Block.ofSource source) := areRead_blocks _ _ _ _
  have hquoted := areQuoted_nodesOf (Block.ofSource source) hread
  rw [toHtml, ← html_nodesOf, shown_html areNames_elementNames hquoted, Block.ofSource,
    conserved_blocks_and_bodies.1 [] false true (linesOf source) (areUnmarked_linesOf h),
    textualLines_linesOf]

/-- The letters of a document with no two dots side by side and no backquote are the letters that
its HTML shows. -/
theorem filter_isAlphabetic_toHtml {source : Text} (hdots : occursIn ".." source = false)
    (hquote : '`' ∉ source) :
    (shown (toHtml source)).filter isAlphabetic = source.filter isAlphabetic := by
  rw [← filter_isAlphabetic_textual, textual_toHtml ⟨hdots, hquote⟩, filter_isAlphabetic_textual]

/-- A title, inline markup, a literal block, a list inside a list, and a quote. -/
def mixedSource : Text := "Ab\n==\n\nc *d* <é>::\n\n    f\n\n- g\n  1. h\n\ni\n\n j"

theorem toHtml_mixedSource : occursIn ".." mixedSource = false ∧ '`' ∉ mixedSource ∧
    (shown (toHtml mixedSource)).filter isAlphabetic = "Abcdéfghij" := by
  have hdots : occursIn ".." mixedSource = false := by cbv
  have hquote : '`' ∉ mixedSource := by simp [mixedSource]
  refine ⟨hdots, hquote, ?_⟩
  rw [filter_isAlphabetic_toHtml hdots hquote]
  decide +kernel

end Slideshow.Restructured
