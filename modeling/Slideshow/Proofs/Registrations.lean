import Slideshow.Proofs.UntouchedContent
import Mathlib.Data.List.Nodup

/-!
# Registrations

Passes are registered one after the other, each name once. Whatever has been tried before, a
registration fails for one of two reasons, and then leaves the passes as they are; otherwise its pass
comes last. The passes of a pipeline run in that order: those in front make what those behind are run
on.
-/
namespace Slideshow

/-! ## Standard passes by name -/

namespace Pass
variable {settings : Settings} {name : Text} {pass : Pass}

theorem name_of_standard? (h : standard? settings name = some pass) : pass.name = name := by
  simpa using List.find?_some h

theorem isSome_standard?_iff : (standard? settings name).isSome ↔ name ∈ standardNames := by
  have hnames : ([code, embedImages settings.embed,
      linkImages (settings.embed || settings.relative), effects, notes, qrCodes] : List Pass).map
        (·.name) = standardNames := rfl
  rw [standard?, List.find?_isSome, ← hnames, List.mem_map]
  simp only [decide_eq_true_eq]

theorem nodup_standardNames : standardNames.Nodup := by
  simp [standardNames]

end Pass

namespace Pipeline

/-- A pass that is to be added, or the name of a standard pass under some settings. -/
inductive Registration
  | own (pass : Pass)
  | named (settings : Settings) (name : Text)

namespace Registration

def name : Registration → Text
  | .own pass => pass.name
  | .named _ name => name

/-- The pass that is added, if the name is known. -/
def pass? : Registration → Option Pass
  | .own pass => some pass
  | .named settings name => Pass.standard? settings name

def attempt (p : Pipeline) : Registration → Except Failure Pipeline
  | .own pass => p.register pass
  | .named settings name => p.registerNamed settings name

/-- Why a registration fails where some names are taken. A name that no standard pass has is found
out first. -/
inductive Fails (taken : List Text) : Registration → Failure → Prop
  | unknown {settings : Settings} {name : Text} (h : name ∉ Pass.standardNames) :
    Fails taken (.named settings name) (.invalidExtension ("'" ++ name ++ "' is not a known macro"))
  | duplicatePass {pass : Pass} (h : pass.name ∈ taken) :
    Fails taken (.own pass) (.duplicatePass pass.name)
  | duplicateName {settings : Settings} {name : Text} (hknown : name ∈ Pass.standardNames)
    (h : name ∈ taken) : Fails taken (.named settings name) (.duplicatePass name)

end Registration

open Registration (attempt Fails)

/-! ## One registration -/

section Attempt
variable {p q : Pipeline} {r : Registration} {e : Failure}

theorem register_eq (pass : Pass) : p.register pass =
    if pass.name ∈ p.names then .error (.duplicatePass pass.name) else .ok ⟨p.passes ++ [pass]⟩ := by
  simp only [register, contains, decide_eq_true_eq]

theorem attempt_eq_ok_iff :
    attempt p r = .ok q ↔ r.name ∉ p.names ∧ ∃ pass ∈ r.pass?, q = ⟨p.passes ++ [pass]⟩ := by
  cases r with
  | own pass =>
    rw [attempt, register_eq, Registration.name, Registration.pass?]
    split <;> simp_all [eq_comm]
  | named settings name =>
    rw [attempt, registerNamed, Registration.name, Registration.pass?]
    cases hpass : Pass.standard? settings name with
    | none => simp
    | some pass =>
      simp only [register_eq, Pass.name_of_standard? hpass, Option.mem_some_iff, exists_eq_left']
      split <;> simp_all [eq_comm]

theorem attempt_eq_error_iff : attempt p r = .error e ↔ Fails p.names r e := by
  cases r with
  | own pass =>
    rw [attempt, register_eq]
    constructor
    · intro h
      split at h
      · next htaken =>
        obtain rfl := Except.error.inj h
        exact .duplicatePass htaken
      · simp at h
    · rintro ⟨⟩
      next htaken => rw [if_pos htaken]
  | named settings name =>
    have hknown : (Pass.standard? settings name).isSome ↔ name ∈ Pass.standardNames :=
      Pass.isSome_standard?_iff
    rw [attempt, registerNamed]
    cases hpass : Pass.standard? settings name with
    | none =>
      have hunknown : name ∉ Pass.standardNames := by simp [← hknown, hpass]
      constructor
      · intro h
        obtain rfl := Except.error.inj h
        exact .unknown hunknown
      · intro h
        cases h with
        | unknown => rfl
        | duplicateName h => exact absurd h hunknown
    | some pass =>
      have hmem : name ∈ Pass.standardNames := by simp [← hknown, hpass]
      simp only [register_eq, Pass.name_of_standard? hpass]
      constructor
      · intro h
        split at h
        · next htaken =>
          obtain rfl := Except.error.inj h
          exact .duplicateName hmem htaken
        · simp at h
      · intro h
        cases h with
        | unknown h => exact absurd hmem h
        | duplicateName _ htaken => rw [if_pos htaken]

theorem name_of_pass? {pass : Pass} (h : pass ∈ r.pass?) : pass.name = r.name := by
  cases r with
  | own own =>
    obtain rfl := Option.some.inj h
    rfl
  | named settings name => exact Pass.name_of_standard? h

/-- A registration that succeeds puts its name behind the others. -/
theorem names_of_attempt (h : attempt p r = .ok q) :
    r.name ∉ p.names ∧ q.names = p.names ++ [r.name] := by
  obtain ⟨hnew, pass, hpass, rfl⟩ := attempt_eq_ok_iff.1 h
  exact ⟨hnew, by simp [names, name_of_pass? hpass]⟩

end Attempt

/-! ## Runs of registrations -/

/-- The pipeline after some registrations. One that fails leaves it as it is. -/
def registerAll (p : Pipeline) : List Registration → Pipeline
  | [] => p
  | r :: rs =>
    match attempt p r with
    | .ok q => q.registerAll rs
    | .error _ => p.registerAll rs

/-- The registrations that succeed. -/
def accepted (p : Pipeline) : List Registration → List Registration
  | [] => []
  | r :: rs =>
    match attempt p r with
    | .ok q => r :: q.accepted rs
    | .error _ => p.accepted rs

theorem registerAll_append (p : Pipeline) (rs ss : List Registration) :
    p.registerAll (rs ++ ss) = (p.registerAll rs).registerAll ss := by
  induction rs generalizing p with
  | nil => rfl
  | cons r rs ih =>
    rw [List.cons_append, registerAll, registerAll]
    cases attempt p r with
    | ok q => exact ih q
    | error e => exact ih p

theorem names_registerAll (p : Pipeline) (rs : List Registration) :
    (p.registerAll rs).names = p.names ++ (p.accepted rs).map Registration.name := by
  induction rs generalizing p with
  | nil => simp [registerAll, accepted]
  | cons r rs ih =>
    rw [registerAll, accepted]
    cases h : attempt p r with
    | ok q =>
      dsimp only
      rw [ih q, (names_of_attempt h).2]
      simp
    | error e => exact ih p

theorem nodup_registerAll {p : Pipeline} (hp : p.names.Nodup) (rs : List Registration) :
    (p.registerAll rs).names.Nodup := by
  induction rs generalizing p with
  | nil => exact hp
  | cons r rs ih =>
    rw [registerAll]
    cases h : attempt p r with
    | ok q =>
      obtain ⟨hnew, hnames⟩ := names_of_attempt h
      have hq : q.names.Nodup := by
        rw [hnames]
        exact hp.append (List.nodup_singleton _) (by simpa using hnew)
      exact ih hq
    | error e => exact ih hp

/-! ## Pipelines of named passes -/

section Named
variable {settings : Settings} {p q : Pipeline} {names : List Text} {e : Failure}

theorem foldlM_registerNamed_of_ok {first : Pipeline} {name : Text}
    (h : attempt p (.named settings name) = .ok first) :
    (name :: names).foldlM (registerNamed settings) p =
      names.foldlM (registerNamed settings) first := by
  rw [attempt] at h
  rw [List.foldlM_cons, h]
  rfl

theorem foldlM_registerNamed_of_error {name : Text}
    (h : attempt p (.named settings name) = .error e) :
    (name :: names).foldlM (registerNamed settings) p = .error e := by
  rw [attempt] at h
  rw [List.foldlM_cons, h]
  rfl

theorem names_of_foldlM (h : names.foldlM (registerNamed settings) p = .ok q) :
    q.names = p.names ++ names := by
  induction names generalizing p with
  | nil =>
    obtain rfl := Except.ok.inj h
    simp
  | cons name names ih =>
    cases hfirst : attempt p (.named settings name) with
    | error e => simp [foldlM_registerNamed_of_error hfirst] at h
    | ok first =>
      rw [foldlM_registerNamed_of_ok hfirst] at h
      rw [ih h, (names_of_attempt hfirst).2]
      simp [Registration.name]

/-- Names that are new and known are registered one after the other. -/
theorem exists_foldlM_ok_iff : (∃ q, names.foldlM (registerNamed settings) p = .ok q) ↔
    names.Nodup ∧ ∀ name ∈ names, name ∈ Pass.standardNames ∧ name ∉ p.names := by
  induction names generalizing p with
  | nil => exact ⟨fun _ => by simp, fun _ => ⟨p, rfl⟩⟩
  | cons name names ih =>
    cases hfirst : attempt p (.named settings name) with
    | error e =>
      rw [foldlM_registerNamed_of_error hfirst]
      constructor
      · rintro ⟨q, h⟩
        cases h
      · rintro ⟨-, hall⟩
        obtain ⟨hknown, hnew⟩ := hall name (by simp)
        cases attempt_eq_error_iff.1 hfirst with
        | unknown h => exact absurd hknown h
        | duplicateName _ h => exact absurd h hnew
    | ok first =>
      obtain ⟨hnew, hnames⟩ := names_of_attempt hfirst
      obtain ⟨-, pass, hpass, -⟩ := attempt_eq_ok_iff.1 hfirst
      have hknown : name ∈ Pass.standardNames :=
        Pass.isSome_standard?_iff.1 (Option.isSome_of_mem hpass)
      simp only [Registration.name] at hnew hnames
      rw [foldlM_registerNamed_of_ok hfirst, ih, hnames]
      simp only [List.mem_append, List.mem_cons, List.not_mem_nil, or_false, not_or,
        List.nodup_cons, forall_eq_or_imp]
      constructor
      · rintro ⟨hnodup, hall⟩
        exact ⟨⟨fun hmem => (hall name hmem).2.2 rfl, hnodup⟩, ⟨hknown, hnew⟩,
          fun other hmem => ⟨(hall other hmem).1, (hall other hmem).2.1⟩⟩
      · rintro ⟨⟨hfresh, hnodup⟩, -, hall⟩
        refine ⟨hnodup, fun other hmem => ⟨(hall other hmem).1, (hall other hmem).2, ?_⟩⟩
        rintro rfl
        exact hfresh hmem

/-- The first name that cannot be registered decides. -/
theorem foldlM_eq_error_iff : names.foldlM (registerNamed settings) p = .error e ↔
    ∃ before name after, names = before ++ name :: after ∧
      (∃ q, before.foldlM (registerNamed settings) p = .ok q) ∧
      Fails (p.names ++ before) (.named settings name) e := by
  induction names generalizing p with
  | nil =>
    constructor
    · intro h
      cases h
    · rintro ⟨before, name, after, h, -⟩
      simp at h
  | cons name names ih =>
    cases hfirst : attempt p (.named settings name) with
    | error failure =>
      rw [foldlM_registerNamed_of_error hfirst]
      constructor
      · intro h
        obtain rfl := Except.error.inj h
        exact ⟨[], name, names, rfl, ⟨p, rfl⟩, by simpa using attempt_eq_error_iff.1 hfirst⟩
      · rintro ⟨before, other, after, hsplit, ⟨q, hq⟩, hfails⟩
        cases before with
        | nil =>
          obtain ⟨rfl, rfl⟩ := List.cons.inj hsplit
          rw [List.append_nil, ← attempt_eq_error_iff, hfirst] at hfails
          exact hfails
        | cons first before =>
          obtain ⟨rfl, rfl⟩ := List.cons.inj hsplit
          simp [foldlM_registerNamed_of_error hfirst] at hq
    | ok first =>
      have hnames := (names_of_attempt hfirst).2
      rw [foldlM_registerNamed_of_ok hfirst, ih, hnames, Registration.name]
      constructor
      · rintro ⟨before, other, after, rfl, ⟨q, hq⟩, hfails⟩
        refine ⟨name :: before, other, after, rfl, ⟨q, ?_⟩, by simpa using hfails⟩
        rw [foldlM_registerNamed_of_ok hfirst, hq]
      · rintro ⟨before, other, after, hsplit, ⟨q, hq⟩, hfails⟩
        cases before with
        | nil =>
          obtain ⟨rfl, rfl⟩ := List.cons.inj hsplit
          rw [List.append_nil, ← attempt_eq_error_iff, hfirst] at hfails
          cases hfails
        | cons head before =>
          obtain ⟨rfl, rfl⟩ := List.cons.inj hsplit
          rw [foldlM_registerNamed_of_ok hfirst] at hq
          exact ⟨before, other, after, rfl, ⟨q, hq⟩, by simpa using hfails⟩

end Named

/-! ## Running some passes after others -/

/-- What was set aside before stays in front. -/
theorem foldlM_step_sideData (origin : Origin) (passes : List Pass) (before : Passed) :
    passes.foldlM (step origin) before =
      (fun after => ⟨after.content, before.sideData ++ after.sideData⟩) <$>
        passes.foldlM (step origin) ⟨before.content, []⟩ := by
  induction passes generalizing before with
  | nil => simp [List.foldlM_nil]
  | cons pass passes ih =>
    rw [List.foldlM_cons, List.foldlM_cons, step, step, bind_assoc, bind_assoc, map_bind]
    congr 1
    funext after
    rw [pure_bind, pure_bind, ih, ih ⟨after.content, [] ++ after.sideData⟩]
    simp

theorem process_append (a b : List Pass) (origin : Origin) (content : Text) :
    process ⟨a ++ b⟩ origin content = (do
      let before ← process ⟨a⟩ origin content
      let after ← process ⟨b⟩ origin before.content
      pure ⟨after.content, before.sideData ++ after.sideData⟩) := by
  rw [process, List.foldlM_append]
  refine congrArg (bind _) (funext fun before => ?_)
  rw [foldlM_step_sideData, map_eq_pure_bind]
  rfl

/-! ## Reachable pipelines -/

/-- Pipelines that registrations start from, with the names that they hold. -/
inductive Starts : List Text → Pipeline → Prop
  | empty : Starts [] empty
  | standard (settings : Settings) : Starts Pass.standardNames (standard settings)
  | named {settings : Settings} {names : List Text} {p : Pipeline}
    (h : ofNames settings names = .ok p) : Starts names p

theorem names_standard (settings : Settings) : (standard settings).names = Pass.standardNames := by
  rw [names, passes_standard]
  rfl

theorem Starts.names_eq {initial : List Text} {p : Pipeline} (h : Starts initial p) :
    p.names = initial := by
  cases h with
  | empty => rfl
  | standard settings => exact names_standard settings
  | named h => exact names_of_foldlM h

theorem Starts.nodup {initial : List Text} {p : Pipeline} (h : Starts initial p) :
    initial.Nodup := by
  cases h with
  | empty => exact List.nodup_nil
  | standard settings => exact Pass.nodup_standardNames
  | named h => exact (exists_foldlM_ok_iff.1 ⟨p, h⟩).1

/-- What one more registration does after others: it fails and changes nothing, or its pass comes
last. -/
theorem attempt_registerAll (p : Pipeline) (rs : List Registration) (r : Registration) :
    (∃ e, Fails (p.registerAll rs).names r e ∧ attempt (p.registerAll rs) r = .error e ∧
        p.registerAll (rs ++ [r]) = p.registerAll rs) ∨
      (∃ pass ∈ r.pass?, r.name ∉ (p.registerAll rs).names ∧
        attempt (p.registerAll rs) r = .ok (p.registerAll (rs ++ [r])) ∧
        p.registerAll (rs ++ [r]) = ⟨(p.registerAll rs).passes ++ [pass]⟩) := by
  rw [registerAll_append, registerAll]
  cases h : attempt (p.registerAll rs) r with
  | error e => exact .inl ⟨e, attempt_eq_error_iff.1 h, rfl, rfl⟩
  | ok q =>
    obtain ⟨hnew, pass, hpass, rfl⟩ := attempt_eq_ok_iff.1 h
    exact .inr ⟨pass, hpass, hnew, rfl, rfl⟩

/-- Names cut in two cut the passes in two. -/
theorem exists_split_of_names {p : Pipeline} {front behind : List Text}
    (h : p.names = front ++ behind) :
    ∃ a b : Pipeline, a.names = front ∧ b.names = behind ∧ p = ⟨a.passes ++ b.passes⟩ := by
  obtain ⟨a, b, hsplit, ha, hb⟩ := List.map_eq_append_iff.1 h
  exact ⟨⟨a⟩, ⟨b⟩, ha, hb, congrArg Pipeline.mk hsplit⟩

theorem exists_ofNames_ok_iff {settings : Settings} {names : List Text} :
    (∃ p, ofNames settings names = .ok p ∧ p.names = names) ↔
      names.Nodup ∧ ∀ name ∈ names, name ∈ Pass.standardNames := by
  have hiff := @exists_foldlM_ok_iff settings empty names
  have hempty : empty.names = [] := rfl
  simp only [hempty, List.not_mem_nil, not_false_eq_true, and_true] at hiff
  rw [← hiff]
  constructor
  · rintro ⟨p, hp, -⟩
    exact ⟨p, hp⟩
  · rintro ⟨p, hp⟩
    exact ⟨p, hp, names_of_foldlM hp⟩

/-- Whatever registrations a pipeline is made by, its names are distinct: those it started with and
behind them those of the registrations that succeeded, in their order. A registration fails exactly
where its name is taken or unknown, and then nothing changes. Names alone make a pipeline exactly if
they are distinct and known, and otherwise the first that is not decides on the failure. Run on any
content, the pipeline runs its first passes and then the others on what these have left. -/
theorem names_of_registrations {initial : List Text} {p : Pipeline} (h : Starts initial p)
    (rs : List Registration) :
    (p.registerAll rs).names.Nodup ∧
      (p.registerAll rs).names = initial ++ (p.accepted rs).map Registration.name ∧
      (∀ r e, attempt (p.registerAll rs) r = .error e ↔ Fails (p.registerAll rs).names r e) ∧
      (∀ r, (∃ e, Fails (p.registerAll rs).names r e ∧ attempt (p.registerAll rs) r = .error e ∧
          p.registerAll (rs ++ [r]) = p.registerAll rs) ∨
        ∃ pass ∈ r.pass?, r.name ∉ (p.registerAll rs).names ∧
          attempt (p.registerAll rs) r = .ok (p.registerAll (rs ++ [r])) ∧
          p.registerAll (rs ++ [r]) = ⟨(p.registerAll rs).passes ++ [pass]⟩) ∧
      (∀ settings names,
        ((∃ q, ofNames settings names = .ok q ∧ q.names = names) ↔
          names.Nodup ∧ ∀ name ∈ names, name ∈ Pass.standardNames) ∧
        ∀ e, ofNames settings names = .error e ↔
          ∃ before name after, names = before ++ name :: after ∧
            (before.Nodup ∧ ∀ name ∈ before, name ∈ Pass.standardNames) ∧
            Fails before (.named settings name) e) ∧
      ∀ front behind, (p.registerAll rs).names = front ++ behind →
        ∃ a b : Pipeline, a.names = front ∧ b.names = behind ∧
          p.registerAll rs = ⟨a.passes ++ b.passes⟩ ∧
          ∀ origin content, (p.registerAll rs).process origin content = (do
            let before ← a.process origin content
            let after ← b.process origin before.content
            pure ⟨after.content, before.sideData ++ after.sideData⟩) := by
  have hnodup : p.names.Nodup := by
    rw [h.names_eq]
    exact h.nodup
  refine ⟨nodup_registerAll hnodup rs, by rw [names_registerAll, h.names_eq],
    fun r e => attempt_eq_error_iff, attempt_registerAll p rs,
    fun settings names => ⟨exists_ofNames_ok_iff, fun e => ?_⟩, fun front behind hsplit => ?_⟩
  · have hempty : empty.names = [] := rfl
    rw [ofNames, foldlM_eq_error_iff]
    simp only [hempty, List.nil_append, exists_foldlM_ok_iff, List.not_mem_nil, not_false_eq_true,
      and_true]
  · obtain ⟨a, b, ha, hb, hpasses⟩ := exists_split_of_names hsplit
    refine ⟨a, b, ha, hb, hpasses, fun origin content => ?_⟩
    rw [hpasses]
    exact process_append a.passes b.passes origin content

/-- A pass that is not a standard one. -/
def exclaim : Pass := ⟨"exclaim", fun _ content => pure ⟨content ++ "!", []⟩⟩

def sampleRegistrations : List Registration :=
  [.own exclaim, .named {} "fx", .named {} "plop", .named {} "code", .own exclaim]

/-- The second pass is there already, the third is no standard pass, and the last was added before. -/
theorem names_of_registrations_exclaim :
    ∃ p, Starts ["notes", "fx"] p ∧
      (p.registerAll sampleRegistrations).names = ["notes", "fx", "exclaim", "code"] ∧
      (p.registerAll sampleRegistrations).names.Nodup ∧
      p.registerAll (sampleRegistrations ++ [.named {} "exclaim"]) =
        p.registerAll sampleRegistrations ∧
      ofNames {} ["notes", "fx", "plop", "fx"] =
        .error (.invalidExtension ("'" ++ "plop" ++ "' is not a known macro")) := by
  have hnotes : attempt empty (.named {} "notes") = .ok ⟨[Pass.notes]⟩ := by
    simp [attempt, registerNamed, Pass.standard?, register, contains, names, empty, Pass.notes,
      Pass.effects, Pass.code, Pass.embedImages, Pass.linkImages, Pass.qrCodes]
  have heffects : attempt ⟨[Pass.notes]⟩ (.named {} "fx") = .ok ⟨[Pass.notes, Pass.effects]⟩ := by
    simp [attempt, registerNamed, Pass.standard?, register, contains, names, Pass.notes,
      Pass.effects, Pass.code, Pass.embedImages, Pass.linkImages, Pass.qrCodes]
  have hmade : ofNames {} ["notes", "fx"] = .ok ⟨[Pass.notes, Pass.effects]⟩ := by
    rw [ofNames, foldlM_registerNamed_of_ok hnotes, foldlM_registerNamed_of_ok heffects]
    rfl
  have haccepted : accepted ⟨[Pass.notes, Pass.effects]⟩ sampleRegistrations =
      [.own exclaim, .named {} "code"] := by
    simp [sampleRegistrations, accepted, attempt, registerNamed, Pass.standard?, register, contains,
      names, Pass.notes, Pass.effects, Pass.code, Pass.embedImages, Pass.linkImages, Pass.qrCodes,
      exclaim]
  obtain ⟨hnodup, hnames, -, hstep, hmake, -⟩ := names_of_registrations (.named hmade)
    sampleRegistrations
  rw [haccepted] at hnames
  have hunknown : ("exclaim" : Text) ∉ Pass.standardNames := by simp [Pass.standardNames]
  refine ⟨_, .named hmade, hnames, hnodup, ?_,
    (hmake {} _).2 _ |>.2 ⟨["notes", "fx"], "plop", ["fx"], rfl, ?_, ?_⟩⟩
  · obtain ⟨e, -, -, hsame⟩ | ⟨pass, hpass, -⟩ := hstep (.named {} "exclaim")
    · exact hsame
    · exact absurd (Pass.isSome_standard?_iff.1 (Option.isSome_of_mem hpass)) hunknown
  · simp [Pass.standardNames]
  · exact .unknown (by simp [Pass.standardNames])

end Pipeline

end Slideshow
