/-
What the program works with. Arguments come to a plan in which every field has the value that they
give to it, or else what it has in the file or the preset that they start from; a plan that breaks a
rule, or nothing to start from, ends the program before it runs or writes anything. Since options
only put values into fields, those that were given before change nothing in a plan that is loaded
again, and neither does any part of them.
-/
import LatencyGauge.Cli.Program
import LatencyGauge.Proofs.Cli.Arguments
import LatencyGauge.Proofs.Plan.RoundTrip
import LatencyGauge.Proofs.Plan.Settings

namespace LatencyGauge

open Json

variable {α : Type} {o o' : Options} {p q base : RunPlan} {arguments : List String}
  {items items' : List Item} {files files' : String → Except FileFault ByteArray}

/-! ## Fields -/

/-- The fields of a run plan, those of its loop plan among them, with the types of their values. -/
inductive RunField : Type → Type 1 where
  | cores : RunField UInt64
  | primaries : RunField UInt64
  | signalOffset : RunField UInt64
  | workload : RunField Workload
  | background : RunField Background
  | payload : RunField Payload
  | loop {α : Type} (f : LoopField α) : RunField α
  | reverseBaseline : RunField Cycles
  | tickPeriod : RunField UInt64
  | marker : RunField (Option String)
  | pinned : RunField Bool
  | unfiltered : RunField Bool

/-- What a plan has in a field. -/
def RunField.of (p : RunPlan) : RunField α → α
  | .cores => p.cores
  | .primaries => p.primaries
  | .signalOffset => p.signalOffset
  | .workload => p.workload
  | .background => p.background
  | .payload => p.payload
  | .loop f => f.of p.loop
  | .reverseBaseline => p.reverseBaseline
  | .tickPeriod => p.tickPeriod
  | .marker => p.marker
  | .pinned => p.pinned
  | .unfiltered => p.unfiltered

/-- The value of the option for a field of a loop plan, if there is one and it is given. -/
def Options.givenLoop? (o : Options) : LoopField α → Option α
  | .samples => o.samples
  | .maxAttempts => o.maxAttempts.map some
  | .baseline => o.baseline
  | .ceiling => o.ceiling
  | _ => none

/-- The value of the option for a field, if there is one and it is given. -/
def Options.given? (o : Options) : RunField α → Option α
  | .cores => o.cores
  | .background => if o.interfere then some .interfere else none
  | .payload => if o.sentinel then some .sentinel else none
  | .loop f => o.givenLoop? f
  | .tickPeriod => o.tickPeriod
  | .marker => o.marker.map some
  | .pinned => if o.unpinned then some false else none
  | .unfiltered => if o.unfiltered then some true else none
  | _ => none

/-- A loop plan is made of its fields. -/
theorem LoopField.plan_eq {l m : LoopPlan} (h : ∀ (α : Type) (f : LoopField α), f.of l = f.of m) :
    l = m := by
  cases l
  cases m
  rw [LoopPlan.mk.injEq]
  exact ⟨h _ .samples, h _ .maxAttempts, h _ .warmup, h _ .baseline, h _ .ceiling, h _ .quiescence,
    h _ .settle, h _ .onFailure, h _ .tolerance⟩

/-- A run plan is made of its fields. -/
theorem RunField.plan_eq (h : ∀ (α : Type) (f : RunField α), f.of p = f.of q) : p = q := by
  cases p
  cases q
  rw [RunPlan.mk.injEq]
  exact ⟨h _ .cores, h _ .primaries, h _ .signalOffset, h _ .workload, h _ .background,
    h _ .payload, LoopField.plan_eq fun α f => h α (.loop f), h _ .reverseBaseline,
    h _ .tickPeriod, h _ .marker, h _ .pinned, h _ .unfiltered⟩

/-! ## Overriding -/

theorem LoopField.of_override (f : LoopField α) (o : Options) (l : LoopPlan) :
    f.of (o.overrideLoop l) = (o.givenLoop? f).getD (f.of l) := by
  cases f with
  | maxAttempts =>
    show o.maxAttempts.or l.maxAttempts = (o.maxAttempts.map some).getD l.maxAttempts
    cases o.maxAttempts <;> rfl
  | _ => rfl

/-- Options override the fields that they are given for, and no others. -/
theorem RunField.of_override (f : RunField α) (o : Options) (p : RunPlan) :
    f.of (o.override p) = (o.given? f).getD (f.of p) := by
  cases f with
  | background =>
    show (if o.interfere then Background.interfere else p.background) = _
    unfold Options.given?
    cases o.interfere <;> rfl
  | payload =>
    show (if o.sentinel then Payload.sentinel else p.payload) = _
    unfold Options.given?
    cases o.sentinel <;> rfl
  | loop f => exact f.of_override o p.loop
  | marker =>
    show o.marker.or p.marker = (o.marker.map some).getD p.marker
    cases o.marker <;> rfl
  | pinned =>
    show (p.pinned && !o.unpinned) = _
    unfold Options.given?
    cases o.unpinned with
    | false => exact Bool.and_true p.pinned
    | true => exact Bool.and_false p.pinned
  | unfiltered =>
    show (p.unfiltered || o.unfiltered) = _
    unfold Options.given?
    cases o.unfiltered with
    | false => exact Bool.or_false p.unfiltered
    | true => exact Bool.or_true p.unfiltered
  | _ => rfl

/-- Overrides that a plan was made with, or some of them, leave it as it is. -/
theorem Options.override_override
    (h : ∀ (α : Type) (f : RunField α) (a : α), o'.given? f = some a → o.given? f = some a)
    (p : RunPlan) : o'.override (o.override p) = o.override p := by
  apply RunField.plan_eq
  intro α f
  rw [f.of_override o']
  cases hgiven : o'.given? f with
  | none => rfl
  | some a =>
    rw [f.of_override o, h α f a hgiven]
    rfl

/-! ## What items give -/

/-- A value is given to a field of a loop plan among items. -/
def LoopField.Given (items : List Item) : LoopField α → α → Prop
  | .samples, n => Setting.samples.Given items n
  | .maxAttempts, most => ∃ n, most = some n ∧ Setting.maxAttempts.Given items n
  | .baseline, c => Setting.baseline.Given items c
  | .ceiling, c => Setting.ceiling.Given items c
  | _, _ => False

/-- A value is given to a field among items. -/
def RunField.Given (items : List Item) : RunField α → α → Prop
  | .cores, n => Setting.cores.Given items n
  | .background, b => b = .interfere ∧ .flag .interfere ∈ items
  | .payload, b => b = .sentinel ∧ .flag .sentinel ∈ items
  | .loop f, a => f.Given items a
  | .tickPeriod, n => Setting.tickPeriod.Given items n
  | .marker, m => ∃ text, m = some text ∧ Setting.marker.Given items text
  | .pinned, b => b = false ∧ .flag .unpinned ∈ items
  | .unfiltered, b => b = true ∧ .flag .unfiltered ∈ items
  | _, _ => False

/-- Every value that is given to a field among some items is given to it among others. -/
def Among (items' items : List Item) : Prop :=
  ∀ (α : Type) (f : RunField α) (a : α), f.Given items' a → f.Given items a

theorem flagged_eq_some_iff {b : Bool} {P : Prop} (h : b = true ↔ P) (x a : α) :
    (if b then some x else none) = some a ↔ a = x ∧ P := by
  rw [← h]
  cases b <;> simp [eq_comm]

theorem mapped_eq_some_iff {v : Option α} {P : α → Prop} (h : ∀ a, v = some a ↔ P a)
    (a : Option α) : v.map some = some a ↔ ∃ x, a = some x ∧ P x := by
  simp only [← h, Option.map_eq_some_iff, and_comm, eq_comm]

theorem LoopField.given?_eq_some_iff (h : o.Holds items) (f : LoopField α) (a : α) :
    o.givenLoop? f = some a ↔ f.Given items a := by
  cases f with
  | samples => exact h.values .samples a
  | maxAttempts => exact mapped_eq_some_iff (h.values .maxAttempts) a
  | baseline => exact h.values .baseline a
  | ceiling => exact h.values .ceiling a
  | _ => exact ⟨nofun, nofun⟩

/-- Options have a value for a field exactly if it is given among the items that they hold. -/
theorem RunField.given?_eq_some_iff (h : o.Holds items) (f : RunField α) (a : α) :
    o.given? f = some a ↔ f.Given items a := by
  cases f with
  | cores => exact h.values .cores a
  | background => exact flagged_eq_some_iff (h.flags .interfere) _ a
  | payload => exact flagged_eq_some_iff (h.flags .sentinel) _ a
  | loop f => exact f.given?_eq_some_iff h a
  | tickPeriod => exact h.values .tickPeriod a
  | marker => exact mapped_eq_some_iff (h.values .marker) a
  | pinned => exact flagged_eq_some_iff (h.flags .unpinned) _ a
  | unfiltered => exact flagged_eq_some_iff (h.flags .unfiltered) _ a
  | _ => exact ⟨nofun, nofun⟩

/-! ## The effective plan -/

/-- What items start from: the file where one is named, whatever the preset, or the preset. -/
inductive StartsFrom (items : List Item) (files : String → Except FileFault ByteArray) :
    RunPlan → Prop
  | file {path : String} {base : RunPlan} (hconfig : Setting.config.Given items path)
      (hread : RunPlan.ofFile (files path) = .ok base) : StartsFrom items files base
  | preset {name : String} {preset : RunPreset} (hconfig : ∀ path, ¬Setting.config.Given items path)
      (hpreset : Setting.preset.Given items name) (hname : RunPreset.named? name = some preset) :
      StartsFrom items files preset.plan
  | usual (hconfig : ∀ path, ¬Setting.config.Given items path)
      (hpreset : ∀ name, ¬Setting.preset.Given items name) :
      StartsFrom items files RunPreset.roundTrip.plan

/-- A plan is the effective one of items: it breaks no rule, and every field has the value that is
given to it, or else the one in what the items start from. -/
structure EffectivePlan (items : List Item) (files : String → Except FileFault ByteArray)
    (p : RunPlan) : Prop where
  valid : p.check = .ok ()
  fields : ∃ base, StartsFrom items files base ∧ ∀ (α : Type) (f : RunField α),
    (∀ a, f.Given items a → f.of p = a) ∧ ((∀ a, ¬f.Given items a) → f.of p = f.of base)

theorem Options.Holds.value?_eq_none (h : o.Holds items) {s : Setting}
    (hnot : ∀ v, ¬s.Given items v) : o.value? s = none :=
  Option.eq_none_iff_forall_ne_some.2 fun v hv => hnot v ((h.values s v).1 hv)

theorem Options.Holds.not_given (h : o.Holds items) {s : Setting} (hnone : o.value? s = none)
    (v : s.Value) : ¬s.Given items v := by
  rw [← h.values, hnone]
  nofun

/-- Options start from what the items that they hold start from. -/
theorem Options.Holds.base_eq_ok_iff (h : o.Holds items) :
    o.base files = .ok base ↔ StartsFrom items files base := by
  unfold Options.base
  constructor
  · intro hbase
    cases hconfig : o.config with
    | some path =>
      cases hread : RunPlan.ofFile (files path) with
      | ok p =>
        simp only [hconfig, hread, Except.ok.injEq] at hbase
        exact .file ((h.values .config path).1 hconfig) (hbase ▸ hread)
      | error f => simp [hconfig, hread] at hbase
    | none =>
      have hno : ∀ path, ¬Setting.config.Given items path := h.not_given hconfig
      cases hpreset : o.preset with
      | some name =>
        cases hname : RunPreset.named? name with
        | some preset =>
          simp only [hconfig, hpreset, Option.getD_some, hname, Except.ok.injEq] at hbase
          exact hbase ▸ .preset hno ((h.values .preset name).1 hpreset) hname
        | none => simp [hconfig, hpreset, hname] at hbase
      | none =>
        have husual : RunPreset.named? RunPreset.usual = some .roundTrip := by decide +kernel
        simp only [hconfig, hpreset, Option.getD_none, husual, Except.ok.injEq] at hbase
        exact hbase ▸ .usual hno (h.not_given hpreset)
  · rintro (⟨hconfig, hread⟩ | ⟨hconfig, hpreset, hname⟩ | ⟨hconfig, hpreset⟩)
    · have hpath : o.config = some _ := (h.values .config _).2 hconfig
      simp only [hpath, hread]
    · have hnone : o.config = none := h.value?_eq_none hconfig
      have hsome : o.preset = some _ := (h.values .preset _).2 hpreset
      simp only [hnone, hsome, Option.getD_some, hname]
    · have hnone : o.config = none := h.value?_eq_none hconfig
      have hnone' : o.preset = none := h.value?_eq_none hpreset
      have husual : RunPreset.named? RunPreset.usual = some .roundTrip := by decide +kernel
      simp only [hnone, hnone', Option.getD_none, husual]

/-- Options amount to what they start from with their overrides, if that breaks no rule. -/
theorem Options.plan_eq_ok_iff :
    o.plan files = .ok p ↔ ∃ base, o.base files = .ok base ∧ o.override base = p ∧ p.Valid := by
  unfold Options.plan RunPlan.Valid
  cases o.base files with
  | error f =>
    constructor
    · intro h
      cases h
    · rintro ⟨base, h, -⟩
      cases h
  | ok base =>
    dsimp only [bind, Except.bind]
    constructor
    · intro h
      cases hcheck : (o.override base).check with
      | ok _ =>
        rw [hcheck] at h
        cases h
        exact ⟨base, rfl, rfl, hcheck⟩
      | error v =>
        rw [hcheck] at h
        cases h
    · rintro ⟨_, ⟨⟩, rfl, hcheck⟩
      rw [hcheck]

/-- Every field of a plan under the overrides of options has the value that is given to it among
the items that they hold, or else the one that it had. -/
theorem RunField.of_override_given (h : o.Holds items) (f : RunField α) (p : RunPlan) :
    (∀ a, f.Given items a → f.of (o.override p) = a) ∧
      ((∀ a, ¬f.Given items a) → f.of (o.override p) = f.of p) := by
  rw [f.of_override]
  constructor
  · intro a hgiven
    rw [(f.given?_eq_some_iff h a).2 hgiven]
    rfl
  · intro hnot
    rw [Option.eq_none_iff_forall_ne_some.2 fun a ha => hnot a ((f.given?_eq_some_iff h a).1 ha)]
    rfl

/-- Options amount to the effective plan of the items that they hold. -/
theorem Options.Holds.plan_eq_ok_iff (h : o.Holds items) :
    o.plan files = .ok p ↔ EffectivePlan items files p := by
  rw [Options.plan_eq_ok_iff]
  constructor
  · rintro ⟨base, hbase, rfl, hvalid⟩
    exact ⟨hvalid, base, h.base_eq_ok_iff.1 hbase, fun α f => f.of_override_given h base⟩
  · rintro ⟨hvalid, base, hbase, hfields⟩
    refine ⟨base, h.base_eq_ok_iff.2 hbase, ?_, hvalid⟩
    apply RunField.plan_eq
    intro α f
    obtain ⟨hgiven, hnot⟩ := f.of_override_given h base
    obtain ⟨hgiven', hnot'⟩ := hfields α f
    by_cases hany : ∃ a, f.Given items a
    · obtain ⟨a, ha⟩ := hany
      exact (hgiven a ha).trans (hgiven' a ha).symm
    · have hnone : ∀ a, ¬f.Given items a := fun a ha => hany ⟨a, ha⟩
      exact (hnot hnone).trans (hnot' hnone).symm

/-! ## Saved plans -/

/-- A plan that breaks no rule is read back from a file that its text was written to. -/
theorem RunPlan.ofFile_text (hvalid : p.Valid) (htolerance : FloatReadsBack p.loop.tolerance) :
    RunPlan.ofFile (.ok p.text.toUTF8) = .ok p := by
  have htext : String.fromUTF8? p.text.toUTF8 = some p.text := dif_pos p.text.isValidUTF8
  unfold RunPlan.ofFile
  dsimp only
  rw [htext]
  exact RunPlan.parse_text hvalid htolerance

/-- A plan that options amount to comes again of a file that its text was written to, under none,
some or all of their overrides. -/
theorem Options.plan_again (hplan : o.plan files = .ok p)
    (htolerance : FloatReadsBack p.loop.tolerance) {path : String}
    (hfile : files' path = .ok p.text.toUTF8) (hconfig : o'.config = some path)
    (hamong : ∀ (α : Type) (f : RunField α) (a : α), o'.given? f = some a → o.given? f = some a) :
    o'.plan files' = .ok p := by
  obtain ⟨base, -, hp, hvalid⟩ := Options.plan_eq_ok_iff.1 hplan
  rw [Options.plan_eq_ok_iff]
  refine ⟨p, ?_, ?_, hvalid⟩
  · simp only [Options.base, hconfig, hfile, RunPlan.ofFile_text hvalid htolerance]
  · rw [← hp, Options.override_override hamong]

/-! ## Decisions -/

/-- The task of a plan under items: to write its text to the file that is named, or to run it. -/
inductive Task.For (items : List Item) (p : RunPlan) : Task → Prop
  | save {path : String} (hpath : Setting.saveTo.Given items path) : For items p (.save path p.text)
  | run {json : Bool} (hnot : ∀ path, ¬Setting.saveTo.Given items path)
      (hjson : json = true ↔ .flag .json ∈ items) : For items p (.run p json)

theorem Options.Holds.task_for (h : o.Holds items) (p : RunPlan) : (o.task p).For items p := by
  unfold Options.task
  cases hsave : o.saveTo with
  | some path => exact .save ((h.values .saveTo path).1 hsave)
  | none => exact .run (h.not_given hsave) (h.flags .json)

theorem Options.Holds.task_of_saveTo (h : o.Holds items) {path : String}
    (hpath : Setting.saveTo.Given items path) (p : RunPlan) : o.task p = .save path p.text := by
  have hsave : o.saveTo = some path := (h.values .saveTo path).2 hpath
  simp only [Options.task, hsave]

theorem decision_of_stop {s : Stop} (hread : Options.read arguments = .error s)
    (files : String → Except FileFault ByteArray) : decision arguments files = .stop s := by
  simp only [decision, hread]

theorem decision_of_failure {f : Failure} (hread : Options.read arguments = .ok o)
    (hplan : o.plan files = .error f) : decision arguments files = .giveUp f := by
  simp only [decision, hread, hplan]

/-- The program goes to work when its arguments are options that amount to a plan. -/
theorem decision_eq_work_iff {t : Task} :
    decision arguments files = .work p t ↔
      ∃ o, Options.read arguments = .ok o ∧ o.plan files = .ok p ∧ o.task p = t := by
  unfold decision
  constructor
  · intro h
    split at h
    · cases h
    · rename_i o hread
      split at h
      · cases h
      · rename_i p' hplan
        cases h
        exact ⟨o, hread, hplan, rfl⟩
  · rintro ⟨o, hread, hplan, rfl⟩
    simp only [hread, hplan]

/-- The program stops at its arguments exactly if these spell no items that can be used. -/
theorem not_commands_of_stop {s : Stop} (hread : Options.read arguments = .error s)
    (items : List Item) : ¬Commands arguments items := by
  intro h
  obtain ⟨o, hok, -⟩ := h.exists_read
  cases hread.symm.trans hok

/-- The exit code at the arguments tells whether something was asked for. -/
theorem code_of_stop {s : Stop} (hread : Options.read arguments = .error s) :
    s.code = 0 ∧ Requests arguments s ∨ s.code = 2 ∧ ∀ s', ¬Requests arguments s' := by
  by_cases hs : s = .usage
  · subst hs
    refine .inr ⟨rfl, fun s' hasked => ?_⟩
    by_cases hs' : s' = .usage
    · obtain ⟨_, _, _, _, _, _, _, hspelt⟩ := hasked
      exact Argument.not_spelt_usage (hs' ▸ hspelt)
    · have hstop := (Options.read_eq_error_iff hs').2 hasked
      cases hread.symm.trans hstop
      exact hs' rfl
  · refine .inl ⟨?_, (Options.read_eq_error_iff hs).1 hread⟩
    cases s with
    | usage => exact absurd rfl hs
    | help => rfl
    | version => rfl

/-- The program decides in one of three ways, whatever files there are. It stops at its arguments,
with exit code 0 on a request for help or for the version and else with exit code 2; or the items
that the arguments spell have no effective plan, and it gives up, with exit code 1; or it goes to
work with their effective plan. When it saves that plan, then the same plan comes of the file that
is written, under none, some or all of the overrides, and is saved as the same text. -/
theorem decision_effective (arguments : List String)
    (files : String → Except FileFault ByteArray) :
    ((∃ s, decision arguments files = .stop s ∧ (∀ items, ¬Commands arguments items) ∧
        (s.code = 0 ∧ Requests arguments s ∨ s.code = 2 ∧ ∀ s', ¬Requests arguments s')) ∨
      ∃ items, Commands arguments items ∧
        ((∃ f, decision arguments files = .giveUp f ∧ f.code = 1 ∧
            ∀ p, ¬EffectivePlan items files p) ∨
          ∃ p t, decision arguments files = .work p t ∧ EffectivePlan items files p ∧
            t.For items p)) ∧
    ∀ items p path text, Commands arguments items →
      decision arguments files = .work p (.save path text) → FloatReadsBack p.loop.tolerance →
        ∀ again items' files', Commands again items' → Setting.config.Given items' path →
          Among items' items → files' path = .ok text.toUTF8 →
            ∃ t, decision again files' = .work p t ∧
              ∀ path', Setting.saveTo.Given items' path' → t = .save path' text := by
  constructor
  · cases hread : Options.read arguments with
    | error s =>
      exact .inl ⟨s, decision_of_stop hread files, not_commands_of_stop hread, code_of_stop hread⟩
    | ok o =>
      obtain ⟨items, hcommands, hholds⟩ := Options.read_eq_ok_iff.1 hread
      refine .inr ⟨items, hcommands, ?_⟩
      cases hplan : o.plan files with
      | error f =>
        refine .inl ⟨f, decision_of_failure hread hplan, rfl, fun p heffective => ?_⟩
        cases hplan.symm.trans (hholds.plan_eq_ok_iff.2 heffective)
      | ok p =>
        exact .inr ⟨p, o.task p, decision_eq_work_iff.2 ⟨o, hread, hplan, rfl⟩,
          hholds.plan_eq_ok_iff.1 hplan, hholds.task_for p⟩
  · intro items p path text hcommands hwork htolerance again items' files' hagain hconfig hamong
      hfile
    obtain ⟨o, hread, hplan, htask⟩ := decision_eq_work_iff.1 hwork
    obtain ⟨_, hread', hholds⟩ := hcommands.exists_read
    cases hread.symm.trans hread'
    obtain ⟨o', hread', hholds'⟩ := hagain.exists_read
    obtain rfl : text = p.text := by
      have hfor := hholds.task_for p
      rw [htask] at hfor
      cases hfor
      rfl
    have hpath : o'.config = some path := (hholds'.values .config path).2 hconfig
    have hplan' : o'.plan files' = .ok p := by
      refine Options.plan_again hplan htolerance hfile hpath fun α f a ha => ?_
      exact (f.given?_eq_some_iff hholds a).2
        (hamong α f a ((f.given?_eq_some_iff hholds' a).1 ha))
    exact ⟨o'.task p, decision_eq_work_iff.2 ⟨o', hread', hplan', rfl⟩,
      fun path' hpath' => hholds'.task_of_saveTo hpath' p⟩

/-- Arguments that override some fields of a preset and save the plan. -/
def savingArguments : List String :=
  ["-pResponse", "--cores", "3", "-s=5", "--max-attempts=9", "--no-pin", "--marker", "\t\u00e9",
    "--unfiltered", "--save-config", "a.json"]

/-- What they spell. -/
def savingItems : List Item :=
  [.setting .preset "Response", .setting .cores "3", .setting .samples "5",
    .setting .maxAttempts "9", .flag .unpinned, .setting .marker "\t\u00e9", .flag .unfiltered,
    .setting .saveTo "a.json"]

/-- The options that are read. -/
def Options.saving : Options :=
  { Options.empty with
    preset := some "Response", cores := some 3, samples := some 5, maxAttempts := some 9
    marker := some "\t\u00e9", saveTo := some "a.json", unpinned := true, unfiltered := true }

/-- The plan of the preset under those overrides. -/
def RunPlan.saved : RunPlan := Options.saving.override RunPreset.response.plan

/-- Arguments that load that plan, override two fields once more and save it again. -/
def resumingArguments : List String :=
  ["--no-pin", "-c", "a.json", "-s", "+5", "--save-config=b.json"]

/-- What they spell. -/
def resumingItems : List Item :=
  [.flag .unpinned, .setting .config "a.json", .setting .samples "+5", .setting .saveTo "b.json"]

theorem commands_saving : Commands savingArguments savingItems where
  spelt := by
    refine ⟨savingArguments, [], (List.append_nil _).symm, ?_, .inl rfl⟩
    exact .cons (.given_of_read rfl) <| .cons (.wanting_of_read rfl rfl) <|
      .cons (.given_of_read rfl) <| .cons (.given_of_read rfl) <| .cons (.flag_of_read rfl) <|
      .cons (.wanting_of_read rfl rfl) <| .cons (.flag_of_read rfl) <|
      .cons (.wanting_of_read rfl rfl) .nil
  usable := (Options.foldlM_take_empty.1 rfl).1

theorem commands_resuming : Commands resumingArguments resumingItems where
  spelt := by
    refine ⟨resumingArguments, [], (List.append_nil _).symm, ?_, .inl rfl⟩
    exact .cons (.flag_of_read rfl) <| .cons (.wanting_of_read rfl rfl) <|
      .cons (.wanting_of_read rfl rfl) <| .cons (.given_of_read rfl) .nil
  usable := (Options.foldlM_take_empty.1 rfl).1

theorem decision_effective_resumed :
    Commands savingArguments savingItems ∧
    decision savingArguments (fun _ => .error .missing) =
      .work .saved (.save "a.json" RunPlan.saved.text) ∧
    FloatReadsBack RunPlan.saved.loop.tolerance ∧
    Commands resumingArguments resumingItems ∧ Setting.config.Given resumingItems "a.json" ∧
    Among resumingItems savingItems ∧
    decision resumingArguments (fun _ => .ok RunPlan.saved.text.toUTF8) =
      .work .saved (.save "b.json" RunPlan.saved.text) := by
  have hread : Options.read savingArguments = .ok .saving := by decide +kernel
  have hplan : (Options.saving.plan fun _ => .error .missing) = .ok .saved := by
    rw [Options.plan_eq_ok_iff]
    exact ⟨RunPreset.response.plan, by rfl, rfl, by decide +kernel⟩
  have hwork : decision savingArguments (fun _ => .error .missing) =
      .work .saved (.save "a.json" RunPlan.saved.text) := by
    rw [decision_eq_work_iff]
    exact ⟨_, hread, hplan, rfl⟩
  have htolerance : FloatReadsBack RunPlan.saved.loop.tolerance := by
    unfold FloatReadsBack
    decide +kernel
  have hconfig : Setting.config.Given resumingItems "a.json" := ⟨"a.json", by decide, by decide⟩
  have hfive : ∀ n, Setting.samples.read "+5" = some n → Setting.samples.read "5" = some n := by
    rintro n ⟨⟩
    decide +kernel
  have hamong : Among resumingItems savingItems := by
    intro α f a h
    cases f with
    | loop f =>
      cases f <;>
        simp_all [RunField.Given, LoopField.Given, Setting.Given, resumingItems, savingItems]
    | _ => simp_all [RunField.Given, Setting.Given, resumingItems, savingItems]
  obtain ⟨-, hsaved⟩ := decision_effective savingArguments fun _ => .error .missing
  obtain ⟨t, hagain, hsave⟩ := hsaved _ _ _ _ commands_saving hwork htolerance _ _
    (fun _ => .ok RunPlan.saved.text.toUTF8) commands_resuming hconfig hamong rfl
  have hpath : Setting.saveTo.Given resumingItems "b.json" := ⟨"b.json", by decide, by decide⟩
  exact ⟨commands_saving, hwork, htolerance, commands_resuming, hconfig, hamong,
    hsave _ hpath ▸ hagain⟩

/-- Arguments that are no options stop the program with an exit code of their own. -/
theorem decision_unusable :
    let d := decision ["--cores", "two"] fun _ => .error .missing
    d = .stop .usage ∧ Stop.code .usage = 2 ∧
      ¬((∃ s, d = .stop s ∧ s.code = 1) ∨ (∃ f, d = .giveUp f ∧ f.code = 1) ∨
        ∃ p t, d = .work p t) := by
  intro d
  have hstop : d = .stop .usage := decision_of_stop (by decide +kernel) _
  rw [hstop]
  refine ⟨rfl, rfl, ?_⟩
  rintro (⟨s, hs, hcode⟩ | ⟨f, hf, -⟩ | ⟨p, t, hwork⟩)
  · cases hs
    exact absurd hcode (by decide)
  · cases hf
  · cases hwork

end LatencyGauge
