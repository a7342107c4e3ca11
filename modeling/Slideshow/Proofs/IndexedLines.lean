import Slideshow.Restructured.Reader

/-!
# Lines at an index

The looks and cuts of a reader that keeps an index into its lines and counts the bytes of a line.
There is no result where an index lies behind the last line, a slice is out of order or a cut falls
within a character. An indented block and a title are found all the same, as they are found in front
of a list of lines.
-/
namespace Slideshow.Restructured
open Text

/-! ## Cuts at bytes -/

/-- The length of the UTF-8 form. -/
def byteLength (s : Text) : Nat := (Utf8.encode s).length

@[simp] theorem byteLength_nil : byteLength [] = 0 := rfl

@[simp] theorem byteLength_cons (c : Char) (s : Text) :
    byteLength (c :: s) = c.utf8Size + byteLength s := Utf8.length_encode_cons c s

@[simp] theorem byteLength_append (s t : Text) :
    byteLength (s ++ t) = byteLength s + byteLength t := by
  rw [byteLength, Utf8.encode_append, List.length_append]
  rfl

theorem byteLength_pos {s : Text} (h : s ≠ []) : 0 < byteLength s := by
  obtain ⟨c, s, rfl⟩ := List.exists_cons_of_ne_nil h
  have := c.utf8Size_pos
  rw [byteLength_cons]
  omega

theorem byteLength_le_of_sublist {s t : Text} (h : s.Sublist t) : byteLength s ≤ byteLength t := by
  induction h with
  | slnil => exact Nat.le_refl 0
  | cons c _ ih => exact Nat.le_trans ih (by simp)
  | cons_cons c _ ih => simpa using ih

/-- A text cut behind a number of bytes, if a character ends there. -/
def splitAtByte? (n : Nat) (s : Text) : Option (Text × Text) :=
  if n = 0 then some ([], s)
  else match s with
    | [] => none
    | c :: s =>
      if c.utf8Size ≤ n then
        (splitAtByte? (n - c.utf8Size) s).map fun p => (c :: p.1, p.2)
      else none

theorem splitAtByte?_eq_some_iff {n : Nat} {s front behind : Text} :
    splitAtByte? n s = some (front, behind) ↔ s = front ++ behind ∧ byteLength front = n := by
  induction s generalizing n front with
  | nil =>
    rw [splitAtByte?]
    constructor
    · intro h
      split at h
      · next hn =>
        obtain ⟨rfl, rfl⟩ := Prod.mk.inj (Option.some.inj h)
        exact ⟨rfl, hn.symm⟩
      · simp at h
    · rintro ⟨h, rfl⟩
      obtain ⟨rfl, rfl⟩ := List.nil_eq_append_iff.1 h
      rfl
  | cons c s ih =>
    have hpos := c.utf8Size_pos
    rw [splitAtByte?]
    constructor
    · intro h
      split at h
      · next hn =>
        obtain ⟨rfl, rfl⟩ := Prod.mk.inj (Option.some.inj h)
        exact ⟨rfl, hn.symm⟩
      split at h
      · next hle =>
        obtain ⟨⟨a, b⟩, hcut, hp⟩ := Option.map_eq_some_iff.1 h
        obtain ⟨rfl, rfl⟩ := Prod.mk.inj hp
        obtain ⟨rfl, hlength⟩ := ih.1 hcut
        exact ⟨rfl, by rw [byteLength_cons, hlength, Nat.add_sub_cancel' hle]⟩
      · simp at h
    · rintro ⟨h, rfl⟩
      cases front with
      | nil => rw [if_pos byteLength_nil, ← List.nil_append behind, ← h]
      | cons d front =>
        obtain ⟨rfl, rfl⟩ := List.cons.inj h
        have hle : c.utf8Size ≤ byteLength (c :: front) := by simp
        rw [if_neg (by rw [byteLength_cons]; omega)]
        simp only [hle, if_true]
        rw [ih.2 ⟨rfl, by rw [byteLength_cons]; omega⟩]
        rfl

theorem splitAtByte?_append (s t : Text) : splitAtByte? (byteLength s) (s ++ t) = some (s, t) :=
  splitAtByte?_eq_some_iff.2 ⟨rfl, rfl⟩

example : splitAtByte? 1 ("éa" : Text) = none ∧
    splitAtByte? 2 ("éa" : Text) = some (("é" : Text), ['a']) := by cbv

/-- An indent has as many bytes as spaces, so it can be cut anywhere. -/
theorem splitAtByte?_indent {n : Nat} {line : Text} (h : n ≤ indent line) :
    splitAtByte? n line = some (line.take n, line.drop n) := by
  have hspaces := eq_space_of_mem_take h
  have hlength : (line.take n).length = n :=
    List.length_take_of_le (Nat.le_trans h (List.takeWhile_prefix _).length_le)
  refine splitAtByte?_eq_some_iff.2 ⟨(List.take_append_drop n line).symm, ?_⟩
  rw [byteLength, Utf8.length_encode_of_ascii fun c hc => by rw [hspaces c hc]; decide, hlength]

/-! ## Indices and slices -/

/-- An index that is reached from another, and the lines that are left there. -/
structure Reaches (lines : List Text) (i next : Nat) (left : List Text) : Prop where
  le : i ≤ next
  le_length : next ≤ lines.length
  drop_eq : lines.drop next = left

section Index
variable {lines left : List Text} {i next : Nat}

theorem Reaches.refl (h : i ≤ lines.length) : Reaches lines i i (lines.drop i) :=
  ⟨Nat.le_refl i, h, rfl⟩

theorem Reaches.of_le (h : Reaches lines i next left) {start : Nat} (hle : start ≤ i) :
    Reaches lines start next left := ⟨Nat.le_trans hle h.le, h.le_length, h.drop_eq⟩

/-- Where less is left, the index has grown. -/
theorem Reaches.lt (h : Reaches lines i next left) (hlt : weight left < weight (lines.drop i)) :
    i < next := by
  refine Nat.lt_of_le_of_ne h.le ?_
  rintro rfl
  rw [h.drop_eq] at hlt
  exact Nat.lt_irrefl _ hlt

theorem drop_eq_cons {line : Text} {rest : List Text} (h : lines.drop i = line :: rest) :
    i < lines.length ∧ lines[i]? = some line ∧ lines.drop (i + 1) = rest := by
  have hi : i < lines.length := Nat.lt_of_not_le fun hle => by
    rw [List.drop_eq_nil_of_le hle] at h
    simp at h
  rw [List.drop_eq_getElem_cons hi] at h
  obtain ⟨rfl, hrest⟩ := List.cons.inj h
  exact ⟨hi, List.getElem?_eq_getElem hi, hrest⟩

/-- The lines from an index on up to another. -/
def slice? (lines : List Text) (start stop : Nat) : Option (List Text) :=
  if start ≤ stop ∧ stop ≤ lines.length then some ((lines.drop start).take (stop - start)) else none

theorem slice?_eq_some_iff {start stop : Nat} {block : List Text} :
    slice? lines start stop = some block ↔
      (start ≤ stop ∧ stop ≤ lines.length) ∧ (lines.drop start).take (stop - start) = block := by
  rw [slice?]
  split
  · next hbounds => simp [hbounds]
  · next hno => simp [hno]

theorem Reaches.slice? (h : Reaches lines i next left) {front : List Text}
    (hfront : lines.drop i = front ++ left) : slice? lines i next = some front := by
  have hsplit : (lines.drop i).take (next - i) ++ left = front ++ left := by
    have hle := h.le
    rw [← hfront, ← h.drop_eq]
    conv => rhs; rw [← List.take_append_drop (next - i) (lines.drop i), List.drop_drop]
    rw [Nat.add_sub_cancel' hle]
  exact slice?_eq_some_iff.2 ⟨⟨h.le, h.le_length⟩, List.append_cancel_right hsplit⟩

/-- The first index from one on whose line is of another kind. -/
def skipWhile (p : Text → Bool) (lines : List Text) (i : Nat) : Nat :=
  if h : i < lines.length then
    if p lines[i] then skipWhile p lines (i + 1) else i
  else i
termination_by lines.length - i

theorem reaches_skipWhile (p : Text → Bool) (h : i ≤ lines.length) :
    Reaches lines i (skipWhile p lines i) ((lines.drop i).dropWhile p) := by
  fun_induction skipWhile p lines i with
  | case1 i hi hp ih =>
    rw [List.drop_eq_getElem_cons hi, List.dropWhile_cons, if_pos hp]
    exact (ih hi).of_le (Nat.le_succ i)
  | case2 i hi hp =>
    have hkept := Reaches.refl h
    rw [List.drop_eq_getElem_cons hi] at hkept ⊢
    rwa [List.dropWhile_cons, if_neg hp]
  | case3 i hi =>
    have hkept := Reaches.refl h
    rw [List.drop_eq_nil_of_le (Nat.le_of_not_lt hi)] at hkept ⊢
    exact hkept

theorem slice?_skipWhile (p : Text → Bool) (h : i ≤ lines.length) :
    slice? lines i (skipWhile p lines i) = some ((lines.drop i).takeWhile p) :=
  (reaches_skipWhile p h).slice? List.takeWhile_append_dropWhile.symm

/-- The index behind the last line in front of another that is not blank. -/
def lastBefore? (lines : List Text) (start : Nat) : Nat → Option Nat
  | 0 => some 0
  | n + 1 =>
    if start < n + 1 then do
      let line ← lines[n]?
      if line = [] then lastBefore? lines start n else some (n + 1)
    else some (n + 1)

theorem slice?_lastBefore? {start stop : Nat} {block : List Text}
    (h : slice? lines start stop = some block) :
    ∃ last, lastBefore? lines start stop = some last ∧
      slice? lines start last = some (withoutBlankEnd block) := by
  obtain ⟨hbounds, rfl⟩ := slice?_eq_some_iff.1 h
  induction stop with
  | zero => exact ⟨0, rfl, slice?_eq_some_iff.2 ⟨hbounds, by simp [withoutBlankEnd]⟩⟩
  | succ n ih =>
    rw [lastBefore?]
    split
    · next hlt =>
      have hn : n < lines.length := hbounds.2
      have hblock : (lines.drop start).take (n + 1 - start) =
          (lines.drop start).take (n - start) ++ [lines[n]] := by
        rw [show n + 1 - start = n - start + 1 by omega, List.take_add_one, List.getElem?_drop,
          show start + (n - start) = n by omega, List.getElem?_eq_getElem hn]
        rfl
      have hshorter : start ≤ n ∧ n ≤ lines.length := ⟨Nat.le_of_lt_succ hlt, Nat.le_of_lt hn⟩
      rw [hblock, withoutBlankEnd_concat, List.getElem?_eq_getElem hn, Option.bind_eq_bind,
        Option.bind_some]
      split
      · exact ih hshorter (slice?_eq_some_iff.2 ⟨hshorter, rfl⟩)
      · exact ⟨n + 1, rfl, slice?_eq_some_iff.2 ⟨hbounds, hblock⟩⟩
    · next hge =>
      obtain rfl : start = n + 1 := by omega
      exact ⟨n + 1, rfl, slice?_eq_some_iff.2 ⟨hbounds, by simp [withoutBlankEnd]⟩⟩

/-- A line without a margin of some bytes. -/
def withoutMargin? (n : Nat) (line : Text) : Option Text :=
  if line = [] then some [] else (splitAtByte? n line).map (·.2)

theorem withoutMargin?_eq_some {n : Nat} {line : Text} (h : line ≠ [] → n ≤ indent line) :
    withoutMargin? n line = some (line.drop n) := by
  rw [withoutMargin?]
  split
  · next hnil => simp [hnil]
  · next hne => rw [splitAtByte?_indent (h hne), Option.map_some]

def dedented? (n : Nat) : List Text → Option (List Text)
  | [] => some []
  | line :: lines => do
    let cut ← withoutMargin? n line
    let more ← dedented? n lines
    some (cut :: more)

theorem dedented?_eq_some {n : Nat} {ls : List Text} (h : ∀ l ∈ ls, l ≠ [] → n ≤ indent l) :
    dedented? n ls = some (ls.map (·.drop n)) := by
  induction ls with
  | nil => rfl
  | cons l ls ih =>
    rw [dedented?, withoutMargin?_eq_some (h l List.mem_cons_self),
      ih fun k hk => h k (List.mem_cons_of_mem l hk)]
    rfl

/-- The indented block at an index, and the index behind it. -/
def indentedAt? (lines : List Text) (start : Nat) : Option (List Text × Nat) := do
  let stop := skipWhile isInside lines start
  let last ← lastBefore? lines start stop
  let block ← slice? lines start last
  let dedented ← dedented? (margin block) block
  some (dedented, stop)

theorem indentedAt?_eq_some (h : i ≤ lines.length) :
    ∃ next, indentedAt? lines i = some (indented (lines.drop i), next) ∧
      Reaches lines i next (afterIndented (lines.drop i)) := by
  obtain ⟨last, hlast, hblock⟩ := slice?_lastBefore? (slice?_skipWhile isInside h)
  have hdedented : dedented? (margin (withoutBlankEnd ((lines.drop i).takeWhile isInside)))
      (withoutBlankEnd ((lines.drop i).takeWhile isInside)) = some (indented (lines.drop i)) :=
    dedented?_eq_some fun l hl hne => margin_le hl hne
  refine ⟨_, ?_, reaches_skipWhile isInside h⟩
  simp only [indentedAt?, hlast, hblock, hdedented, Option.bind_eq_bind, Option.bind_some]

end Index

/-! ## Titles and transitions by index -/

/-- Whether no text stands right above an index. -/
def isFresh (lines : List Text) (i : Nat) : Bool := i = 0 || lines[i - 1]? = some []

/-- A title between two equal adornments, and the index behind it. -/
def overlinedAt? (lines : List Text) (i : Nat) (line : Text) :
    Option (Option (Style × Text × Nat)) :=
  match line with
  | [] => some none
  | c :: _ =>
    if isAdornment 2 line && i + 2 < lines.length then do
      let title ← lines[i + 1]?
      let under ← lines[i + 2]?
      some (if trim title ≠ [] && isAdornment 2 under && under = line then
        some (⟨c, true⟩, trim title, i + 3) else none)
    else some none

/-- A title above an adornment that is no shorter, and the index behind it. -/
def underlinedAt? (lines : List Text) (i : Nat) (line : Text) :
    Option (Option (Style × Text × Nat)) :=
  if indent line = 0 && !isAdornment 2 line && i + 1 < lines.length then do
    match ← lines[i + 1]? with
    | [] => some none
    | c :: under =>
      some (if isAdornment 2 (c :: under) && line.length ≤ (c :: under).length then
        some (⟨c, false⟩, trim line, i + 2) else none)
  else some none

def titleAt? (lines : List Text) (i : Nat) (line : Text) :
    Option (Option (Style × Text × Nat)) := do
  match ← overlinedAt? lines i line with
  | some found => some (some found)
  | none => underlinedAt? lines i line

/-- Whether no text stands right above an index, found by a look at the line there. -/
def freshAbove? (lines : List Text) (i : Nat) : Option Bool :=
  if i = 0 then some true else (lines[i - 1]?).map (· = [])

def freshBelow? (lines : List Text) (i : Nat) : Option Bool :=
  if i + 1 = lines.length then some true else (lines[i + 1]?).map (· = [])

def transitionAt? (lines : List Text) (i : Nat) (line : Text) : Option Bool :=
  if isAdornment 4 line then do
    let above ← freshAbove? lines i
    let below ← freshBelow? lines i
    some (above && below)
  else some false

section Index
variable {lines left rest : List Text} {i next : Nat} {line : Text}

theorem isFresh_succ (h : lines[i]? = some line) : isFresh lines (i + 1) = decide (line = []) := by
  simp [isFresh, h]

theorem isFresh_of_reaches (h : Reaches lines i next left) (hlt : i < next) :
    isFresh lines next = endsBlank (lines.drop i) left := by
  have hle := h.le_length
  have hcount : (lines.drop i).length - left.length = next - i := by
    rw [← h.drop_eq, List.length_drop, List.length_drop]
    omega
  have hlength : ((lines.drop i).take (next - i)).length = next - i :=
    List.length_take_of_le (by rw [List.length_drop]; omega)
  have hlast : ((lines.drop i).take (next - i)).getLast? = lines[next - 1]? := by
    rw [List.getLast?_eq_getElem?, hlength, List.getElem?_take_of_lt (by omega),
      List.getElem?_drop]
    congr 1
    omega
  have hpos : next ≠ 0 := by omega
  rw [endsBlank, hcount, hlast]
  simp [isFresh, hpos]

/-- The lines behind a first one are found at the indices behind its own. -/
theorem getElem?_behind (hdrop : lines.drop i = line :: rest) (k : Nat) :
    lines[i + 1 + k]? = rest[k]? := by
  rw [← (drop_eq_cons hdrop).2.2, List.getElem?_drop]

theorem length_eq_of_drop (hdrop : lines.drop i = line :: rest) :
    lines.length = i + 1 + rest.length := by
  have hi := (drop_eq_cons hdrop).1
  have hlength := congrArg List.length hdrop
  rw [List.length_drop, List.length_cons] at hlength
  omega

/-- A title that is found at an index and the one that is read off the lines there: the lines behind
it are the same, and right above them stands an adornment. -/
def IsTitleAt (lines : List Text) (i : Nat) (found : Option (Style × Text × Nat))
    (title : Option (Style × Text × List Text)) : Prop :=
  title = found.map (fun t => (t.1, t.2.1, lines.drop t.2.2)) ∧
    ∀ t ∈ found, i < t.2.2 ∧ t.2.2 ≤ lines.length ∧ isFresh lines t.2.2 = false

theorem isTitleAt_none : IsTitleAt lines i none none := ⟨rfl, by simp⟩

theorem isTitleAt_some {last : Nat} {c : Char} {under : Text}
    (hdrop : lines.drop last = (c :: under) :: rest) (hlt : i ≤ last) (style : Style)
    (text : Text) :
    IsTitleAt lines i (some (style, text, last + 1)) (some (style, text, rest)) := by
  obtain ⟨hlast, hunder, rfl⟩ := drop_eq_cons hdrop
  exact ⟨rfl, by simp [isFresh_succ hunder, Nat.lt_succ_of_le hlt, Nat.succ_le_of_lt hlast]⟩

theorem overlinedAt?_eq_some (hdrop : lines.drop i = line :: rest) :
    ∃ found, overlinedAt? lines i line = some found ∧
      IsTitleAt lines i found (overlinedTitle? line rest) := by
  have hlength := length_eq_of_drop hdrop
  match line, rest, hdrop with
  | [], _, _ => exact ⟨none, rfl, isTitleAt_none⟩
  | c :: line, [], _ =>
    have hend : ¬i + 2 < lines.length := by simp [hlength]
    exact ⟨none, by simp [overlinedAt?, hend], isTitleAt_none⟩
  | c :: line, [title], _ =>
    have hend : ¬i + 2 < lines.length := by simp [hlength]
    exact ⟨none, by simp [overlinedAt?, hend], isTitleAt_none⟩
  | c :: line, title :: under :: rest, hdrop =>
    have hbound : i + 2 < lines.length := by
      rw [hlength, List.length_cons, List.length_cons]
      omega
    have htitle : lines[i + 1]? = some title := getElem?_behind hdrop 0
    have hunder : lines[i + 2]? = some under := getElem?_behind hdrop 1
    by_cases had : isAdornment 2 (c :: line)
    · refine ⟨if trim title ≠ [] && isAdornment 2 under && under = c :: line then
        some (⟨c, true⟩, trim title, i + 3) else none, ?_, ?_⟩
      · simp only [overlinedAt?, had, hbound, htitle, hunder, decide_true, Bool.and_self, if_true,
          Option.bind_eq_bind, Option.bind_some]
      by_cases hopen : trim title ≠ [] ∧ under = c :: line
      · obtain ⟨htrim, rfl⟩ := hopen
        have hbehind := (drop_eq_cons (drop_eq_cons hdrop).2.2).2.2
        have hfound := isTitleAt_some hbehind (Nat.le_add_right i 2) ⟨c, true⟩ (trim title)
        simpa [overlinedTitle?, had, htrim] using hfound
      · have hnone : ¬((trim title ≠ [] && isAdornment 2 under && under = c :: line : Bool)) := by
          intro h
          simp only [Bool.and_eq_true, decide_eq_true_eq] at h
          exact hopen ⟨h.1.1, h.2⟩
        rw [if_neg hnone]
        have htitle : overlinedTitle? (c :: line) (title :: under :: rest) = none :=
          if_neg fun h => by
            simp only [Bool.and_eq_true, decide_eq_true_eq] at h
            exact hopen ⟨h.1.2, h.2⟩
        rw [htitle]
        exact isTitleAt_none
    · refine ⟨none, by simp [overlinedAt?, had], ?_⟩
      simpa [overlinedTitle?, had] using isTitleAt_none

theorem underlinedAt?_eq_some (hdrop : lines.drop i = line :: rest) :
    ∃ found, underlinedAt? lines i line = some found ∧
      IsTitleAt lines i found (underlinedTitle? line rest) := by
  have hlength := length_eq_of_drop hdrop
  match rest, hdrop with
  | [], _ =>
    have hend : ¬i + 1 < lines.length := by simp [hlength]
    exact ⟨none, by simp [underlinedAt?, hend], isTitleAt_none⟩
  | under :: rest, hdrop =>
    have hbound : i + 1 < lines.length := by
      rw [hlength, List.length_cons]
      omega
    have hunder : lines[i + 1]? = some under := getElem?_behind hdrop 0
    by_cases hfree : (indent line = 0 && !isAdornment 2 line : Bool)
    · cases under with
      | nil =>
        refine ⟨none, ?_, isTitleAt_none⟩
        simp only [underlinedAt?, hfree, hbound, hunder, decide_true, Bool.and_self, if_true,
          Option.bind_eq_bind, Option.bind_some]
      | cons c under =>
        refine ⟨if isAdornment 2 (c :: under) && line.length ≤ (c :: under).length then
          some (⟨c, false⟩, trim line, i + 2) else none, ?_, ?_⟩
        · simp only [underlinedAt?, hfree, hbound, hunder, decide_true, Bool.and_self, if_true,
            Option.bind_eq_bind, Option.bind_some]
        by_cases hopen : isAdornment 2 (c :: under) && line.length ≤ (c :: under).length
        · have hall : (indent line = 0 && !isAdornment 2 line && isAdornment 2 (c :: under)
              && line.length ≤ (c :: under).length : Bool) := by
            rw [Bool.and_assoc, hfree, hopen, Bool.and_self]
          rw [if_pos hopen, underlinedTitle?, if_pos hall]
          exact isTitleAt_some (drop_eq_cons hdrop).2.2 (Nat.le_succ i) _ _
        · rw [if_neg hopen]
          have htitle : underlinedTitle? line ((c :: under) :: rest) = none :=
            if_neg fun h => hopen (by
              simp only [Bool.and_eq_true] at h ⊢
              exact ⟨h.1.2, h.2⟩)
          rw [htitle]
          exact isTitleAt_none
    · rw [Bool.not_eq_true] at hfree
      have htitle : underlinedTitle? line (under :: rest) = none := by
        cases under with
        | nil => rfl
        | cons c under =>
          simp only [underlinedTitle?, hfree, Bool.false_and, Bool.false_eq_true, if_false]
      rw [htitle]
      refine ⟨none, ?_, isTitleAt_none⟩
      simp only [underlinedAt?, hfree, Bool.false_and, Bool.false_eq_true, if_false]

theorem titleAt?_eq_some (hdrop : lines.drop i = line :: rest) :
    ∃ found, titleAt? lines i line = some found ∧
      IsTitleAt lines i found (overlinedTitle? line rest <|> underlinedTitle? line rest) := by
  obtain ⟨above, habove, htitle⟩ := overlinedAt?_eq_some hdrop
  rw [titleAt?, habove]
  cases above with
  | some t =>
    refine ⟨some t, rfl, ?_, htitle.2⟩
    rw [htitle.1]
    rfl
  | none =>
    obtain ⟨below, hbelow, hunder⟩ := underlinedAt?_eq_some hdrop
    refine ⟨below, hbelow, ?_, hunder.2⟩
    rw [htitle.1]
    exact hunder.1

theorem transitionAt?_eq_some (hdrop : lines.drop i = line :: rest) :
    transitionAt? lines i line =
      some (isAdornment 4 line && isFresh lines i && rest.head?.all (· = [])) := by
  have hlength := length_eq_of_drop hdrop
  have hi := (drop_eq_cons hdrop).1
  have habove : freshAbove? lines i = some (isFresh lines i) := by
    by_cases hzero : i = 0
    · simp [freshAbove?, isFresh, hzero]
    · have hbefore : i - 1 < lines.length := by omega
      simp [freshAbove?, isFresh, hzero, List.getElem?_eq_getElem hbefore]
  have hbelow : freshBelow? lines i = some (rest.head?.all (· = [])) := by
    match rest, hlength, hdrop with
    | [], hlength, _ => simp [freshBelow?, hlength]
    | l :: rest, hlength, hdrop =>
      have hnext : lines[i + 1]? = some l := getElem?_behind hdrop 0
      have hmore : i + 1 ≠ lines.length := by
        rw [hlength, List.length_cons]
        omega
      rw [freshBelow?, if_neg hmore, hnext]
      rfl
  rw [transitionAt?, habove, hbelow]
  split
  · next had => simp [had]
  · next hno => simp [hno]

end Index

end Slideshow.Restructured
