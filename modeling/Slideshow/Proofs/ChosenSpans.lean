import Slideshow.Restructured.Span

/-!
# The spans that are chosen

Which spans a text has is said here without a reader. A construct holds text of a certain form between
its marks. At one place of a text several constructs of such forms may start, and one construct may end
at several places: they are tried in a fixed order, and the first one is chosen. The spans of a text are
the only ones that spell it and of which each is chosen at its place.
-/
namespace Slideshow.Restructured
open Text

namespace Span

/-! ## Forms -/

/-- A character that may stand next to a star. -/
def IsEdge (c : Char) : Prop := isBlank c = false ∧ c ≠ '*'

theorem isEdge_iff {c : Char} : IsEdge c ↔ ¬(isBlank c || c = '*') := by simp [IsEdge]

/-- Text between two edges, or a single character that is both. -/
inductive IsEnclosed : Text → Prop
  | single {c : Char} (hc : IsEdge c) : IsEnclosed [c]
  | around {c d : Char} {middle : Text} (hc : IsEdge c) (hd : IsEdge d) :
    IsEnclosed (c :: (middle ++ [d]))

/-- What a span may hold between its marks. Literal and strong text stand on one line. -/
def IsFormed : Span → Prop
  | plain _ => True
  | literal t => t ≠ [] ∧ '\n' ∉ t
  | strong t => IsEnclosed t ∧ '\n' ∉ t
  | emphasis t => IsEnclosed t ∧ '*' ∉ t
  | link label gap target _ => (label ≠ [] ∧ '`' ∉ label ∧ '<' ∉ label) ∧ isAllBlank gap ∧
    target ≠ [] ∧ '>' ∉ target ∧ '`' ∉ target
  | interpreted t => t ≠ [] ∧ '`' ∉ t

/-- The turn of a construct. A character stands for itself where no construct fits. -/
def kind : Span → Nat
  | literal _ => 0
  | strong _ => 1
  | emphasis _ => 2
  | link .. => 3
  | interpreted _ => 4
  | plain _ => 5

/-- The order in which the spans that fit at one place are tried. Of one kind the shorter comes first,
but a single strong character comes last, and a link ends in as many underscores as it can. -/
inductive Precedes : Span → Span → Prop
  | kind {sp sp' : Span} (h : sp.kind < sp'.kind) : Precedes sp sp'
  | literal {t t' : Text} (h : t.length < t'.length) : Precedes (.literal t) (.literal t')
  | strong {t t' : Text} (h : 1 < t.length) (h' : t'.length = 1 ∨ t.length < t'.length) :
    Precedes (.strong t) (.strong t')
  | label {label gap target label' gap' target' : Text} {anonymous anonymous' : Bool}
    (h : label.length < label'.length) :
    Precedes (.link label gap target anonymous) (.link label' gap' target' anonymous')
  | anonymous {label gap target : Text} :
    Precedes (.link label gap target true) (.link label gap target false)

/-- A span that fits in front of a text, and before which no other is tried. -/
structure IsChosen (sp : Span) (rest : Text) : Prop where
  isFormed : sp.IsFormed
  isFirst : ∀ (sp' : Span) (rest' : Text), sp'.source ++ rest' = sp.source ++ rest →
    sp'.IsFormed → ¬sp'.Precedes sp

theorem kind_le_of_precedes {sp sp' : Span} (h : sp.Precedes sp') : sp.kind ≤ sp'.kind := by
  cases h with
  | kind h => exact Nat.le_of_lt h
  | literal | strong | label | anonymous => exact Nat.le_refl _

theorem source_link_append (label gap target rest : Text) (anonymous : Bool) :
    (link label gap target anonymous).source ++ rest = '`' :: (label ++ (gap ++ '<' :: (target ++
      '>' :: ("`_" ++ ((if anonymous then ['_'] else []) ++ rest))))) := by
  simp [source]

private theorem eq_or_precedes_link {label gap target label' gap' target' rest rest' : Text}
    {anonymous anonymous' : Bool} (h : (link label gap target anonymous).IsFormed)
    (h' : (link label' gap' target' anonymous').IsFormed)
    (he : (link label gap target anonymous).source ++ rest =
      (link label' gap' target' anonymous').source ++ rest') :
    link label gap target anonymous = link label' gap' target' anonymous' ∨
      (link label gap target anonymous).Precedes (link label' gap' target' anonymous') ∨
      (link label' gap' target' anonymous').Precedes (link label gap target anonymous) := by
  obtain ⟨-, hgap, -, htarget, -⟩ := h
  obtain ⟨-, hgap', -, htarget', -⟩ := h'
  rcases Nat.lt_trichotomy label.length label'.length with hlt | heq | hgt
  · exact .inr (.inl (.label hlt))
  · rw [source_link_append, source_link_append] at he
    obtain ⟨rfl, hrest⟩ := List.append_inj (List.cons.inj he).2 heq
    obtain ⟨rfl, -, hrest⟩ :=
      append_cons_inj (not_mem_of_isAllBlank hgap (by decide)) (not_mem_of_isAllBlank hgap' (by decide)) hrest
    obtain ⟨rfl, -, -⟩ := append_cons_inj htarget htarget' hrest
    cases anonymous with
    | true => cases anonymous' with
      | true => exact .inl rfl
      | false => exact .inr (.inl .anonymous)
    | false => cases anonymous' with
      | true => exact .inr (.inr .anonymous)
      | false => exact .inl rfl
  · exact .inr (.inr (.label hgt))

private theorem eq_or_precedes_strong {t t' rest rest' : Text} (h : IsEnclosed t)
    (h' : IsEnclosed t') (he : (strong t).source ++ rest = (strong t').source ++ rest') :
    strong t = strong t' ∨ (strong t).Precedes (strong t') ∨ (strong t').Precedes (strong t) := by
  have hpos : 0 < t.length := by cases h <;> simp
  have hpos' : 0 < t'.length := by cases h' <;> simp
  by_cases heq : t.length = t'.length
  · simp only [source, List.append_assoc] at he
    exact .inl (congrArg strong (List.append_inj (List.append_cancel_left he) heq).1)
  · by_cases hfirst : 1 < t.length ∧ (t'.length = 1 ∨ t.length < t'.length)
    · exact .inr (.inl (.strong hfirst.1 hfirst.2))
    · exact .inr (.inr (.strong (by omega) (by omega)))

/-- Of two spans that fit at one place one is tried before the other. -/
theorem eq_or_precedes {sp sp' : Span} {rest rest' : Text} (h : sp.IsFormed) (h' : sp'.IsFormed)
    (he : sp.source ++ rest = sp'.source ++ rest') :
    sp = sp' ∨ sp.Precedes sp' ∨ sp'.Precedes sp := by
  rcases Nat.lt_trichotomy sp.kind sp'.kind with hlt | hkind | hgt
  · exact .inr (.inl (.kind hlt))
  · cases sp <;> cases sp' <;> simp only [kind, reduceCtorEq, Nat.reduceEqDiff] at hkind
    case plain.plain c d => exact .inl (congrArg plain (List.cons.inj he).1)
    case literal.literal t t' =>
      simp only [source, List.append_assoc] at he
      rcases Nat.lt_trichotomy t.length t'.length with hlt | heq | hgt
      · exact .inr (.inl (.literal hlt))
      · exact .inl (congrArg literal (List.append_inj (List.append_cancel_left he) heq).1)
      · exact .inr (.inr (.literal hgt))
    case strong.strong t t' => exact eq_or_precedes_strong h.1 h'.1 he
    -- the text of the kinds that are left ends at the first mark behind it
    case emphasis.emphasis t t' =>
      have hcut : t ++ '*' :: rest = t' ++ '*' :: rest' := by simpa [source] using he
      exact .inl (congrArg emphasis (append_cons_inj h.2 h'.2 hcut).1)
    case link.link => exact eq_or_precedes_link h h' he
    case interpreted.interpreted t t' =>
      have hcut : t ++ '`' :: rest = t' ++ '`' :: rest' := by simpa [source] using he
      exact .inl (congrArg interpreted (append_cons_inj h.2 h'.2 hcut).1)
  · exact .inr (.inr (.kind hgt))

/-- At one place of a text one span is chosen. -/
theorem IsChosen.unique {sp sp' : Span} {rest rest' : Text} (h : sp.IsChosen rest)
    (h' : sp'.IsChosen rest') (he : sp.source ++ rest = sp'.source ++ rest') : sp = sp' := by
  rcases eq_or_precedes h.isFormed h'.isFormed he with heq | hfirst | hlater
  · exact heq
  · exact absurd hfirst (h'.isFirst sp rest he h.isFormed)
  · exact absurd hlater (h.isFirst sp' rest' he.symm h'.isFormed)

/-- The label of a link takes no white space from the gap, unless it is a single character. -/
theorem IsChosen.of_link {label gap target rest : Text} {anonymous : Bool}
    (h : (link label gap target anonymous).IsChosen rest) :
    isAllBlank gap ∧ (label.getLast?.any isBlank → label.length = 1) := by
  obtain ⟨⟨hne, hquote, hangle⟩, hgap, htarget⟩ := h.isFormed
  refine ⟨hgap, fun hlast => ?_⟩
  rcases List.eq_nil_or_concat label with rfl | ⟨front, c, rfl⟩
  · exact absurd rfl hne
  rw [List.concat_eq_append, List.getLast?_concat, Option.any_some] at hlast
  cases front with
  | nil => rfl
  | cons d front =>
    -- the label without its last character is tried before
    simp only [List.concat_eq_append, List.mem_append, not_or] at hquote hangle
    refine absurd (.label (by simp)) (h.isFirst (link (d :: front) (c :: gap) target anonymous) rest ?_ ?_)
    · simp [source]
    · exact ⟨⟨by simp, hquote.1, hangle.1⟩, by simpa [isAllBlank, hlast] using hgap, htarget⟩

/-! ## Reading -/

/-- A reader of spans of some kinds: where one fits, it reads none that comes later. -/
structure Reads (kinds : List Nat) (read? : Text → Option (Span × Text)) : Prop where
  isFormed : ∀ {s sp rest}, read? s = some (sp, rest) → sp.kind ∈ kinds ∧ sp.IsFormed
  isFirst : ∀ {sp : Span} (rest : Text), sp.IsFormed → sp.kind ∈ kinds →
    ∃ sp' rest', read? (sp.source ++ rest) = some (sp', rest') ∧ ¬sp.Precedes sp'

/-- A reader in front of a reader of later kinds. -/
theorem Reads.orElse {kind : Nat} {kinds : List Nat} {read? readLater? : Text → Option (Span × Text)}
    (h : Reads [kind] read?) (hl : Reads kinds readLater?) (hlt : ∀ k ∈ kinds, kind < k) :
    Reads (kind :: kinds) fun s => read? s <|> readLater? s where
  isFormed {s sp rest} hr := by
    simp only [Option.orElse_eq_orElse, Option.orElse_eq_or, Option.or_eq_some_iff] at hr
    rcases hr with hr | ⟨-, hr⟩
    · exact (h.isFormed hr).imp_left fun hk => by simpa using .inl (List.mem_singleton.1 hk)
    · exact (hl.isFormed hr).imp_left (List.mem_cons_of_mem kind)
  isFirst {sp} rest hf hk := by
    simp only [Option.orElse_eq_orElse, Option.orElse_eq_or]
    rcases List.mem_cons.1 hk with rfl | hk
    · obtain ⟨sp', rest', hr, hno⟩ := h.isFirst rest hf (List.mem_singleton.2 rfl)
      exact ⟨sp', rest', by rw [hr, Option.some_or], hno⟩
    · cases hr : read? (sp.source ++ rest) with
      | none =>
        rw [Option.none_or]
        exact hl.isFirst rest hf hk
      | some p =>
        -- a span of an earlier kind is read, and no span of a later kind precedes it
        have hkind := List.mem_singleton.1 (h.isFormed hr).1
        refine ⟨p.1, p.2, by rw [Option.some_or], fun hp => ?_⟩
        have := kind_le_of_precedes hp
        have := hlt _ hk
        omega

theorem isFormed_of_upTo? {close s t rest : Text} (h : upTo? close s = some (t, rest)) :
    t ≠ [] ∧ '\n' ∉ t := by
  induction s generalizing t with
  | nil => simp [upTo?] at h
  | cons c s ih =>
    simp only [upTo?] at h
    split at h
    · simp at h
    · next hc =>
      split at h
      · obtain ⟨rfl, -⟩ := Prod.mk.inj (Option.some.inj h)
        simp [Ne.symm hc]
      · obtain ⟨⟨u, r⟩, hu, hq⟩ := Option.map_eq_some_iff.1 h
        obtain ⟨rfl, rfl⟩ := Prod.mk.inj hq
        simp [Ne.symm hc, (ih hu).2]

theorem exists_upTo? {t : Text} (hne : t ≠ []) (hline : '\n' ∉ t) (close rest : Text) :
    ∃ t' rest', upTo? close (t ++ close ++ rest) = some (t', rest') ∧ t'.length ≤ t.length := by
  induction t with
  | nil => exact absurd rfl hne
  | cons c t ih =>
    simp only [List.mem_cons, not_or] at hline
    rw [List.cons_append, List.cons_append, upTo?, if_neg (Ne.symm hline.1)]
    split
    · next r hr => exact ⟨[c], r, rfl, by simp⟩
    · next hnone =>
      have hmore : t ≠ [] := by
        rintro rfl
        rw [List.nil_append, dropAffix?_append] at hnone
        simp at hnone
      obtain ⟨t', rest', hr, hle⟩ := ih hmore hline.2
      exact ⟨c :: t', rest', by rw [hr, Option.map_some], by simpa using hle⟩

theorem reads_literal? : Reads [0] literal? where
  isFormed h := by
    simp only [literal?, Option.bind_eq_bind, Option.bind_eq_some_iff, Option.map_eq_some_iff] at h
    obtain ⟨u, -, p, hp, hq⟩ := h
    obtain ⟨rfl, -⟩ := Prod.mk.inj hq
    exact ⟨List.mem_singleton.2 rfl, isFormed_of_upTo? hp⟩
  isFirst {sp} rest hf hk := by
    cases sp <;> simp only [kind, List.mem_singleton, reduceCtorEq] at hk
    case literal t =>
      obtain ⟨t', rest', hr, hle⟩ := exists_upTo? hf.1 hf.2 "``" rest
      refine ⟨.literal t', rest', ?_, fun hp => ?_⟩
      · simp only [literal?, source, List.append_assoc, dropAffix?_append, Option.bind_eq_bind,
          Option.bind_some]
        rw [← List.append_assoc, hr, Option.map_some]
      · cases hp with
        | kind h => exact absurd h (Nat.lt_irrefl _)
        | literal h => omega

theorem isFormed_of_endingAt? {stop : Char → Bool} {close s t rest : Text}
    (h : endingAt? stop close s = some (t, rest)) :
    ∃ front c, t = front ++ [c] ∧ IsEdge c ∧ ∀ d ∈ front, stop d = false := by
  induction s generalizing t with
  | nil => simp [endingAt?] at h
  | cons c s ih =>
    simp only [endingAt?] at h
    split at h
    · next r hr =>
      obtain ⟨rfl, -⟩ := Prod.mk.inj (Option.some.inj h)
      split at hr
      · simp at hr
      · next hc => exact ⟨[], c, rfl, isEdge_iff.2 hc, by simp⟩
    · split at h
      · simp at h
      · next hc =>
        obtain ⟨⟨u, r⟩, hu, hq⟩ := Option.map_eq_some_iff.1 h
        obtain ⟨rfl, rfl⟩ := Prod.mk.inj hq
        obtain ⟨front, d, rfl, hd, hfront⟩ := ih hu
        exact ⟨c :: front, d, rfl, hd, List.forall_mem_cons.2 ⟨by simpa using hc, hfront⟩⟩

theorem exists_endingAt? {stop : Char → Bool} {front : Text} {c : Char} (hc : IsEdge c)
    (hfront : ∀ d ∈ front, stop d = false) (close rest : Text) :
    ∃ t rest', endingAt? stop close (front ++ c :: (close ++ rest)) = some (t, rest') ∧
      0 < t.length ∧ t.length ≤ front.length + 1 := by
  induction front with
  | nil =>
    have hclose : (if isBlank c || c = '*' then none else dropAffix? close (close ++ rest)) = some rest := by
      rw [if_neg (isEdge_iff.1 hc), dropAffix?_append]
    refine ⟨[c], rest, ?_, by simp, by simp⟩
    rw [List.nil_append, endingAt?, hclose]
  | cons d front ih =>
    obtain ⟨hd, hfront⟩ := List.forall_mem_cons.1 hfront
    obtain ⟨t, rest', hr, hpos, hle⟩ := ih hfront
    rw [List.cons_append, endingAt?]
    split
    · next r _ =>
      -- a closing mark that comes before is taken
      exact ⟨[d], r, rfl, by simp, by simp⟩
    · refine ⟨d :: t, rest', ?_, by simp, by simpa using hle⟩
      rw [if_neg (by simp [hd]), hr, Option.map_some]

theorem isFormed_of_enclosed? {stop : Char → Bool} (hstop : ∀ c, stop c → ¬IsEdge c)
    {close s t rest : Text} (h : enclosed? stop close s = some (t, rest)) :
    IsEnclosed t ∧ ∀ c ∈ t, stop c = false := by
  have hedge : ∀ {c}, IsEdge c → stop c = false := fun hc =>
    Bool.eq_false_iff.2 fun hs => hstop _ hs hc
  cases s with
  | nil => simp [enclosed?] at h
  | cons c s =>
    simp only [enclosed?] at h
    split at h
    · simp at h
    · next hc =>
      have hc := isEdge_iff.2 hc
      split at h
      · next u r hu =>
        obtain ⟨rfl, -⟩ := Prod.mk.inj (Option.some.inj h)
        obtain ⟨front, d, rfl, hd, hfront⟩ := isFormed_of_endingAt? hu
        refine ⟨.around hc hd, ?_⟩
        simp only [List.mem_cons, List.mem_append, List.not_mem_nil, or_false]
        rintro e (rfl | he | rfl)
        · exact hedge hc
        · exact hfront e he
        · exact hedge hd
      · obtain ⟨r, -, hq⟩ := Option.map_eq_some_iff.1 h
        obtain ⟨rfl, -⟩ := Prod.mk.inj hq
        exact ⟨.single hc, by simpa using hedge hc⟩

theorem exists_enclosed? {stop : Char → Bool} {t : Text} (h : IsEnclosed t)
    (hstop : ∀ c ∈ t, stop c = false) (close rest : Text) :
    ∃ t' rest', enclosed? stop close (t ++ close ++ rest) = some (t', rest') ∧
      (1 < t.length → 1 < t'.length ∧ t'.length ≤ t.length) := by
  cases h with
  | @single c hc =>
    rw [List.append_assoc, List.singleton_append, enclosed?, if_neg (isEdge_iff.1 hc)]
    -- longer text is tried before the single character, up to a later closing mark
    split
    · next u r _ => exact ⟨c :: u, r, rfl, by simp⟩
    · exact ⟨[c], rest, by rw [dropAffix?_append, Option.map_some], by simp⟩
  | @around c d middle hc hd =>
    have hmiddle : ∀ e ∈ middle, stop e = false := fun e he => hstop e (by simp [he])
    obtain ⟨u, r, hr, hpos, hle⟩ := exists_endingAt? hd hmiddle close rest
    refine ⟨c :: u, r, ?_, fun _ => by simp; omega⟩
    simp only [List.append_assoc, List.cons_append, List.nil_append]
    rw [enclosed?, if_neg (isEdge_iff.1 hc), hr]

theorem reads_strong? : Reads [1] strong? where
  isFormed h := by
    simp only [strong?, Option.bind_eq_bind, Option.bind_eq_some_iff, Option.map_eq_some_iff] at h
    obtain ⟨u, -, p, hp, hq⟩ := h
    obtain ⟨rfl, -⟩ := Prod.mk.inj hq
    obtain ⟨hformed, hline⟩ := isFormed_of_enclosed? (by simp +decide [IsEdge]) hp
    exact ⟨List.mem_singleton.2 rfl, hformed, fun hm => by simpa using hline _ hm⟩
  isFirst {sp} rest hf hk := by
    cases sp <;> simp only [kind, List.mem_singleton, reduceCtorEq, Nat.reduceEqDiff] at hk
    case strong t =>
      have hline : ∀ c ∈ t, decide (c = '\n') = false := fun c hc => by
        simpa using fun he : c = '\n' => hf.2 (he ▸ hc)
      obtain ⟨t', rest', hr, hle⟩ := exists_enclosed? hf.1 hline "**" rest
      refine ⟨.strong t', rest', ?_, fun hp => ?_⟩
      · simp only [strong?, source, List.append_assoc, dropAffix?_append, Option.bind_eq_bind,
          Option.bind_some]
        rw [← List.append_assoc, hr, Option.map_some]
      · cases hp with
        | kind h => exact absurd h (Nat.lt_irrefl _)
        | strong h h' =>
          have := hle h
          omega

theorem reads_emphasis? : Reads [2] emphasis? where
  isFormed h := by
    simp only [emphasis?, Option.bind_eq_bind, Option.bind_eq_some_iff, Option.map_eq_some_iff] at h
    obtain ⟨u, -, p, hp, hq⟩ := h
    obtain ⟨rfl, -⟩ := Prod.mk.inj hq
    obtain ⟨hformed, hstar⟩ := isFormed_of_enclosed? (by simp [IsEdge]) hp
    exact ⟨List.mem_singleton.2 rfl, hformed, fun hm => by simpa using hstar _ hm⟩
  isFirst {sp} rest hf hk := by
    cases sp <;> simp only [kind, List.mem_singleton, reduceCtorEq, Nat.reduceEqDiff] at hk
    case emphasis t =>
      have hstar : ∀ c ∈ t, decide (c = '*') = false := fun c hc => by
        simpa using fun he : c = '*' => hf.2 (he ▸ hc)
      obtain ⟨t', rest', hr, -⟩ := exists_enclosed? hf.1 hstar "*" rest
      refine ⟨.emphasis t', rest', ?_, fun hp => ?_⟩
      · simp only [emphasis?, source, List.append_assoc, dropAffix?_append, Option.bind_eq_bind,
          Option.bind_some]
        rw [← List.append_assoc, hr, Option.map_some]
      · cases hp with
        | kind h => exact absurd h (Nat.lt_irrefl _)

/-- The gap is the white space behind a label that is not empty. -/
theorem labelled_cons (c : Char) (s : Text) :
    ∃ gap, labelled (c :: s) = (c :: trimRight s, gap) ∧ s = trimRight s ++ gap ∧ isAllBlank gap := by
  obtain ⟨gap, hs, hgap⟩ := exists_eq_append_trimRight s
  have hdrop : s.drop (trimRight s).length = gap := by
    conv => lhs; arg 2; rw [hs]
    exact List.drop_left
  exact ⟨gap, by rw [labelled, hdrop], hs, hgap⟩

theorem isFormed_of_link? {s rest : Text} {sp : Span} (h : link? s = some (sp, rest)) :
    sp.kind ∈ [3] ∧ sp.IsFormed := by
  simp only [link?] at h
  split at h
  · simp at h
  next hlabel =>
  simp only [Option.bind_eq_bind, Option.bind_eq_some_iff] at h
  obtain ⟨s₁, -, h⟩ := h
  split at h
  · simp at h
  next htarget =>
  simp only [Option.bind_eq_some_iff] at h
  obtain ⟨s₂, -, h⟩ := h
  have hname : ∀ c ∈ s.takeWhile (fun c => c ≠ '`' && c ≠ '<'), c ≠ '`' ∧ c ≠ '<' := by
    intro c hc
    simpa using List.all_eq_true.1 List.all_takeWhile c hc
  have haddress : ∀ c ∈ s₁.takeWhile (fun c => c ≠ '>' && c ≠ '`'), c ≠ '>' ∧ c ≠ '`' := by
    intro c hc
    simpa using List.all_eq_true.1 List.all_takeWhile c hc
  generalize s.takeWhile (fun c => c ≠ '`' && c ≠ '<') = name at h hname hlabel
  generalize s₁.takeWhile (fun c => c ≠ '>' && c ≠ '`') = target at h haddress htarget
  obtain ⟨c, name, rfl⟩ := List.exists_cons_of_ne_nil hlabel
  obtain ⟨gap, heq, hsplit, hgap⟩ := labelled_cons c name
  have hsub : ∀ d ∈ c :: trimRight name, d ∈ c :: name := fun d hd =>
    (List.cons_prefix_cons.2 ⟨rfl, trimRight_initial name⟩).subset hd
  have hformed : ∀ anonymous, (link (c :: trimRight name) gap target anonymous).IsFormed := fun _ =>
    ⟨⟨by simp, fun hm => (hname _ (hsub _ hm)).1 rfl, fun hm => (hname _ (hsub _ hm)).2 rfl⟩, hgap,
      htarget, fun hm => (haddress _ hm).1 rfl, fun hm => (haddress _ hm).2 rfl⟩
  rw [heq] at h
  split at h
  · obtain ⟨rfl, -⟩ := Prod.mk.inj (Option.some.inj h)
    exact ⟨List.mem_singleton.2 rfl, hformed _⟩
  · obtain ⟨rfl, -⟩ := Prod.mk.inj (Option.some.inj h)
    exact ⟨List.mem_singleton.2 rfl, hformed _⟩

theorem link?_append {label gap target : Text} {anonymous : Bool}
    (h : (link label gap target anonymous).IsFormed) (after : Text) :
    link? (label ++ (gap ++ '<' :: (target ++ '>' :: ("`_" ++ after)))) =
      match dropAffix? "_" after with
      | some rest => some (link (labelled (label ++ gap)).1 (labelled (label ++ gap)).2 target true, rest)
      | none => some (link (labelled (label ++ gap)).1 (labelled (label ++ gap)).2 target false, after) := by
  obtain ⟨⟨hne, hquote, hangle⟩, hgap, htarget, hangle', hquote'⟩ := h
  have hname : ∀ c ∈ label ++ gap, (c ≠ '`' && c ≠ '<') = true := fun c hc =>
    Bool.and_eq_true_iff.2
      ⟨ne_of_not_mem (List.not_mem_append hquote (not_mem_of_isAllBlank hgap (by decide))) c hc,
        ne_of_not_mem (List.not_mem_append hangle (not_mem_of_isAllBlank hgap (by decide))) c hc⟩
  have haddress : ∀ c ∈ target, (c ≠ '>' && c ≠ '`') = true := fun c hc =>
    Bool.and_eq_true_iff.2 ⟨ne_of_not_mem hangle' c hc, ne_of_not_mem hquote' c hc⟩
  have hlt : ∀ u : Text, dropAffix? "<" ('<' :: u) = some u := by simp [dropAffix?]
  have hgt : dropAffix? ">`_" ('>' :: ("`_" ++ after)) = some after := by simp [dropAffix?]
  rw [← List.append_assoc]
  simp only [link?]
  rw [takeWhile_run hname rfl, dropWhile_run hname rfl, if_neg (by simp [hne]), hlt]
  simp only [Option.bind_eq_bind, Option.bind_some]
  rw [takeWhile_run haddress rfl, dropWhile_run haddress rfl, if_neg htarget, hgt]
  rfl

private theorem dropAffix?_quote (s : Text) : dropAffix? "`" ('`' :: s) = some s := by
  simp [dropAffix?]

theorem reads_link? : Reads [3] fun s => (dropAffix? "`" s).bind link? where
  isFormed h := by
    obtain ⟨u, -, h⟩ := Option.bind_eq_some_iff.1 h
    exact isFormed_of_link? h
  isFirst {sp} rest hf hk := by
    cases sp <;> simp only [kind, List.mem_singleton, reduceCtorEq, Nat.reduceEqDiff] at hk
    case link label gap target anonymous =>
      obtain ⟨c, name, rfl⟩ := List.exists_cons_of_ne_nil hf.1.1
      obtain ⟨gap', heq, -, -⟩ := labelled_cons c (name ++ gap)
      have hshort : (trimRight name).length ≤ name.length := (trimRight_initial name).length_le
      -- the reader finds the whole name and gives its last white space to the gap
      rw [trimRight_append_blank hf.2.1] at heq
      rw [source_link_append, dropAffix?_quote, Option.bind_some, link?_append hf, List.cons_append, heq]
      generalize trimRight name = front at hshort
      split
      · refine ⟨_, _, rfl, fun hp => ?_⟩
        cases hp with
        | kind h => exact absurd h (Nat.lt_irrefl _)
        | label h => simp only [List.length_cons] at h; omega
      · next hnone =>
        refine ⟨_, _, rfl, fun hp => ?_⟩
        cases hp with
        | kind h => exact absurd h (Nat.lt_irrefl _)
        | label h => simp only [List.length_cons] at h; omega
        | anonymous => simp [dropAffix?] at hnone

theorem reads_interpreted? : Reads [4] fun s => (dropAffix? "`" s).bind interpreted? where
  isFormed {s sp rest} h := by
    obtain ⟨u, -, h⟩ := Option.bind_eq_some_iff.1 h
    simp only [interpreted?] at h
    split at h
    · simp at h
    · next hne =>
      obtain ⟨r, -, hq⟩ := Option.map_eq_some_iff.1 h
      obtain ⟨rfl, -⟩ := Prod.mk.inj hq
      refine ⟨List.mem_singleton.2 rfl, hne, fun hm => ?_⟩
      simpa using List.all_eq_true.1 List.all_takeWhile _ hm
  isFirst {sp} rest hf hk := by
    cases sp <;> simp only [kind, List.mem_singleton, reduceCtorEq, Nat.reduceEqDiff] at hk
    case interpreted t =>
      have hsource : (interpreted t).source ++ rest = '`' :: (t ++ '`' :: rest) := by simp [source]
      refine ⟨.interpreted t, rest, ?_, fun hp => ?_⟩
      · rw [hsource, dropAffix?_quote, Option.bind_some, interpreted?,
          takeWhile_run (ne_of_not_mem hf.2) rfl, dropWhile_run (ne_of_not_mem hf.2) rfl, if_neg hf.1,
          dropAffix?_quote, Option.map_some]
      · cases hp with
        | kind h => exact absurd h (Nat.lt_irrefl _)

theorem reads_ofMarked? : Reads [0, 1, 2, 3, 4] ofMarked? := by
  have hquoted : quoted? = fun s =>
      (dropAffix? "`" s).bind link? <|> (dropAffix? "`" s).bind interpreted? := by
    funext s
    rw [quoted?]
    cases dropAffix? "`" s <;> rfl
  have hlater : Reads [3, 4] quoted? := by
    rw [hquoted]
    exact reads_link?.orElse reads_interpreted? (by decide)
  exact reads_literal?.orElse (reads_strong?.orElse (reads_emphasis?.orElse hlater (by decide))
    (by decide)) (by decide)

theorem mem_kinds {k : Nat} (h : k < 5) : k ∈ [0, 1, 2, 3, 4] := by
  simp only [List.mem_cons, List.not_mem_nil, or_false]
  omega

theorem isChosen_of_marked? {s rest : Text} {sp : Span} (h : ofMarked? s = some (sp, rest)) :
    sp.IsChosen rest where
  isFormed := (reads_ofMarked?.isFormed h).2
  isFirst sp' rest' he hf hp := by
    have hkind : sp.kind < 5 := by
      have := (reads_ofMarked?.isFormed h).1
      simp only [List.mem_cons, List.not_mem_nil, or_false] at this
      omega
    have hle := kind_le_of_precedes hp
    obtain ⟨sp'', rest'', hr, hno⟩ := reads_ofMarked?.isFirst rest' hf (mem_kinds (by omega))
    rw [he, ← source_append_of_marked? h, h] at hr
    obtain ⟨rfl, -⟩ := Prod.mk.inj (Option.some.inj hr)
    exact hno hp

theorem isChosen_plain {c : Char} {s : Text} (h : ofMarked? (c :: s) = none) :
    (plain c).IsChosen s where
  isFormed := trivial
  isFirst sp' rest' he hf hp := by
    cases hp with
    | kind hlt =>
      obtain ⟨sp'', rest'', hr, -⟩ := reads_ofMarked?.isFirst rest' hf (mem_kinds hlt)
      rw [he, show (plain c).source ++ s = c :: s from rfl, h] at hr
      simp at hr

end Span

/-- Spans of which each is chosen in front of the text that the spans behind it spell. -/
inductive AreChosen : List Span → Prop
  | nil : AreChosen []
  | cons {sp : Span} {sps : List Span} (h : sp.IsChosen (sps.flatMap Span.source))
    (hs : AreChosen sps) : AreChosen (sp :: sps)

theorem AreChosen.exists_of_mem {sps : List Span} (h : AreChosen sps) {sp : Span} (hm : sp ∈ sps) :
    ∃ rest, sp.IsChosen rest := by
  induction h with
  | nil => simp at hm
  | cons h hs ih =>
    rcases List.mem_cons.1 hm with rfl | hm
    · exact ⟨_, h⟩
    · exact ih hm

theorem areChosen_spans (s : Text) : AreChosen (spans s) := by
  fun_induction spans s with
  | case1 => exact .nil
  | case2 c t sp rest h ih =>
    refine .cons ?_ ih
    rw [flatMap_source_spans]
    exact Span.isChosen_of_marked? h
  | case3 c t h ih =>
    refine .cons ?_ ih
    rw [flatMap_source_spans]
    exact Span.isChosen_plain h

theorem AreChosen.unique {sps sps' : List Span} (h : AreChosen sps) (h' : AreChosen sps')
    (he : sps.flatMap Span.source = sps'.flatMap Span.source) : sps = sps' := by
  induction h generalizing sps' with
  | nil =>
    cases h' with
    | nil => rfl
    | @cons sp _ _ _ => simp [sp.source_ne_nil] at he
  | @cons sp sps hsp _ ih =>
    cases h' with
    | nil => simp [sp.source_ne_nil] at he
    | @cons sp' sps' hsp' hs' =>
      rw [List.flatMap_cons, List.flatMap_cons] at he
      obtain rfl := hsp.unique hsp' he
      rw [ih hs' (List.append_cancel_left he)]

/-- The spans of a text are the only ones that spell it and are chosen at their places. -/
theorem eq_spans_iff {s : Text} {sps : List Span} :
    sps = spans s ↔ sps.flatMap Span.source = s ∧ AreChosen sps := by
  constructor
  · rintro rfl
    exact ⟨flatMap_source_spans s, areChosen_spans s⟩
  · rintro ⟨rfl, h⟩
    exact h.unique (areChosen_spans _) (flatMap_source_spans _).symm

end Slideshow.Restructured
