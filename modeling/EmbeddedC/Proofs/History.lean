import EmbeddedC.Proofs.ContextRecord
/-!
# Refusals and history

Whether an operation comes at the wrong time can be told from those before it: from what they
returned and from how the compiler answered. The stage and the flags of a context are the memory of
just that, on failing paths too.
-/

namespace EmbeddedC

/-- An operation performed, with what it returned and what it did with the state. -/
structure Step where
  operation : Operation
  result : Except BindError Value
  deeds : List Deed

namespace Step

def returned (step : Step) (kind : Kind) : Bool :=
  step.operation.kind = kind && step.result.isOk

def disposes (step : Step) : Bool :=
  step.returned .disposal

def compiles (step : Step) : Bool :=
  step.returned .compile

/-- A relocation that placed code, not a query of its size. -/
def relocates (step : Step) : Bool :=
  match step.operation.kind, step.result with
  | .relocation target, .ok _ => target ≠ .size
  | _, _ => false

def emits (step : Step) : Bool :=
  step.returned .emission

def failsToRelocate (step : Step) : Bool :=
  match step.operation.kind, step.result with
  | .relocation _, .error (.relocation _) => true
  | _, _ => false

def fixesType (step : Step) : Bool :=
  step.deeds.any Deed.fixesType

/-- The compiler is asked to relocate, or for the size that takes. -/
def callsRelocate (step : Step) : Bool :=
  step.deeds.any Deed.isRelocation

theorem failsToRelocate_or_compiles (step : Step) :
    step.failsToRelocate = false ∨ step.compiles = false := by
  unfold failsToRelocate
  split
  · next hk _ => exact .inr (by simp [compiles, returned, hk])
  · exact .inl rfl

section Returned

variable {operation : Operation} {ds : List Deed} {kind : Kind}

@[simp] theorem returned_ok {value : Value} :
    (Step.mk operation (.ok value) ds).returned kind = decide (operation.kind = kind) := by
  simp [returned, Except.isOk, Except.toBool]

@[simp] theorem returned_error {e : BindError} :
    (Step.mk operation (.error e) ds).returned kind = false := by
  simp [returned, Except.isOk, Except.toBool]

end Returned

end Step

/-- A run that was disposed of, relocated, or has written a file. -/
def Finished (steps : List Step) : Prop :=
  steps.any Step.disposes ∨ steps.any Step.relocates ∨ steps.any Step.emits

/-- The operations that a run forbids to come next, given the output type reported after it. -/
def Forbids (steps : List Step) (type : OutputType) : Operation → Prop
  | .setErrorSink _ | .clearErrorSink | .setBeforeCompile _ | .dispose => steps.any Step.disposes
  | .setLibPath _ | .setOptions _ | .addIncludePath _ | .addSysIncludePath _ | .addLibraryPath _
  | .defineSymbol _ _ | .undefineSymbol _ | .addLibrary _ | .compileString _ | .addFile _
  | .injectFunction _ _ _ | .injectData _ _ | .injectRaw _ _ _ => Finished steps
  | .setOutputType asked => Finished steps ∨ steps.any Step.fixesType ∧ asked ≠ type
  | .relocate | .relocationSize | .relocateInto _ =>
    Finished steps ∨ ¬steps.any Step.compiles ∨ type ≠ .memory ∨
      Pending Step.failsToRelocate Step.compiles steps
  | .getSymbol _ => steps.any Step.disposes ∨ ¬steps.any Step.relocates
  | .resolveFunction _ size _ =>
    size = pointerBits / 8 ∧ (steps.any Step.disposes ∨ ¬steps.any Step.relocates)
  | .run _ => steps.any Step.disposes ∨ type ≠ .memory ∨ ¬steps.any Step.relocates
  | .outputFile _ =>
    steps.any Step.disposes ∨ steps.any Step.callsRelocate ∨ type = .memory ∨
      ¬steps.any Step.compiles

/-- Operations one after the other, whether they succeed or not: the steps and what they leave. -/
def Live.run {σ : Type} (compiler : Compiler σ) (s : Live σ) : List Operation → List Step × Live σ
  | [] => ([], s)
  | operation :: rest =>
    let o := operation.perform compiler s
    let (steps, s') := run compiler o.state rest
    (⟨operation, o.result, deeds s.context.number o.events⟩ :: steps, s')

/-- A step whose returned value says what was done. -/
structure Step.Honest (step : Step) : Prop where
  compiles : step.compiles = step.deeds.any Deed.compiles
  relocates : step.relocates = step.deeds.any Deed.relocates
  emits : step.emits = step.deeds.any Deed.emits
  fails : step.failsToRelocate = step.deeds.any Deed.failsToRelocate

section Honest

variable {c c' : Context} {ds : List Deed} {r : Except BindError Value}

variable {operation : Operation}

private theorem Step.Honest.append {ds' : List Deed} (h : Step.Honest ⟨operation, r, ds⟩)
    (hc : ds'.any Deed.compiles = false) (hr : ds'.any Deed.isRelocation = false)
    (he : ds'.any Deed.isEmission = false) : Step.Honest ⟨operation, r, ds' ++ ds⟩ := by
  have hnone : ∀ {p q : Deed → Bool}, (∀ {d}, p d → q d) → ds'.any q = false → ds'.any p = false :=
    fun hpq hq => List.any_eq_false.2 fun d hd hp => List.any_eq_false.1 hq d hd (hpq hp)
  constructor
  · rw [List.any_append, hc, Bool.false_or]
    exact h.compiles
  · rw [List.any_append, hnone Deed.isRelocation_of_relocates hr, Bool.false_or]
    exact h.relocates
  · rw [List.any_append, hnone Deed.isEmission_of_emits he, Bool.false_or]
    exact h.emits
  · rw [List.any_append, hnone Deed.isRelocation_of_failsToRelocate hr, Bool.false_or]
    exact h.fails

private theorem Step.Honest.fixType {ds' : List Deed} (hf : c.FixesType ds' c')
    (h : Step.Honest ⟨operation, r, ds⟩) : Step.Honest ⟨operation, r, ds' ++ ds⟩ := by
  cases hf with
  | known => exact h
  | sent => exact h.append rfl rfl rfl

private theorem Step.Honest.hook (h : Step.Honest ⟨operation, r, ds⟩) :
    Step.Honest ⟨operation, r, c.hookDeeds ++ ds⟩ := by
  unfold Context.hookDeeds
  cases c.hook? with
  | none => exact h
  | some hook => exact h.append rfl rfl rfl

attribute [local simp] Step.compiles Step.relocates Step.emits Step.failsToRelocate Deed.compiles
  Deed.relocates Deed.emits Deed.failsToRelocate Task.kind

private theorem honest_task {task : Task} (hk : operation.kind = task.kind)
    (hd : task.Does c ds r c') : Step.Honest ⟨operation, r, ds⟩ := by
  cases hd with
  | libraryAdded hf | libraryRefused hf =>
    apply Step.Honest.fixType hf
    constructor <;> simp [hk]
  | compiled hf answer ha =>
    refine .fixType hf (.hook ?_)
    constructor <;> simp [hk, ha]
  | compileFailed hf answer ha =>
    refine .fixType hf (.hook ?_)
    constructor <;> simp [hk, Int32.not_le.2 ha]
  | sized answer ha => constructor <;> simp [hk, Int32.not_lt.2 ha]
  | @relocated target ht answer ha =>
    cases target with
    | size => exact absurd rfl ht
    | auto | memory => constructor <;> simp [hk, ha, Int32.not_lt.2 ha]
  | relocationFailed answer ha => constructor <;> simp [hk, ha, Int32.not_le.2 ha]
  | emitted answer ha => constructor <;> simp [hk, ha]
  | emissionFailed answer ha => constructor <;> simp [hk, Int32.not_le.2 ha]
  | _ => constructor <;> simp [hk]

theorem Operation.Does.honest (hd : operation.Does c ds r c') :
    Step.Honest ⟨operation, r, ds⟩ := by
  cases hd with
  | @refused e he =>
    have hfails : Step.failsToRelocate ⟨operation, .error e, []⟩ = false := by
      unfold Step.failsToRelocate
      split
      · next hk hr =>
        cases hr
        exact Bool.noConfusion (relocation_refused (b := true) hk he)
      · rfl
    constructor
    case fails => exact hfails
    all_goals simp
  | performed ht hd => exact honest_task ((operation.checks c).of_ok _ ht).1.symm hd

private theorem disposed_task {task : Task} (hk : operation.kind = task.kind)
    (ht : task.Timely c) (hd : task.Does c ds r c') :
    c'.stage = .disposed ↔ Step.disposes ⟨operation, r, ds⟩ := by
  have hl := ht.live
  cases hd with
  | libraryAdded hf | libraryRefused hf | compiled hf | compileFailed hf =>
    have hl' := Stage.live_of_isOpen (hf.isOpen ht)
    simp [Step.disposes, hk, hl', Context.configured_disposed_iff]
  | _ => simp [Step.disposes, hk, hl, Context.configured_disposed_iff]

theorem Operation.Does.disposed_iff (hd : operation.Does c ds r c') :
    c'.stage = .disposed ↔ c.stage = .disposed ∨ Step.disposes ⟨operation, r, ds⟩ := by
  cases hd with
  | refused => simp [Step.disposes]
  | performed ht hd =>
    obtain ⟨hk, ht⟩ := (operation.checks c).of_ok _ ht
    rw [or_iff_right ht.live]
    exact disposed_task hk.symm ht hd

end Honest

/-- What the steps of a run say of the deeds done in it. -/
structure Matches (steps : List Step) (ds : List Deed) : Prop where
  compiled : steps.any Step.compiles = ds.any Deed.compiles
  relocated : steps.any Step.relocates = ds.any Deed.relocates
  emitted : steps.any Step.emits = ds.any Deed.emits
  fixed : steps.any Step.fixesType = ds.any Deed.fixesType
  attempted : steps.any Step.callsRelocate = ds.any Deed.isRelocation
  failed : Pending Step.failsToRelocate Step.compiles steps ↔
    Pending Deed.failsToRelocate Deed.compiles ds

theorem Matches.step {steps : List Step} {ds : List Deed} (h : Matches steps ds) {step : Step}
    (hs : step.Honest) : Matches (steps ++ [step]) (ds ++ step.deeds) := by
  -- of the two that `Pending` weighs, one step does at most one, so their order in it is no matter
  have hapart : step.deeds.any Deed.failsToRelocate = false ∨
      step.deeds.any Deed.compiles = false := by
    rw [← hs.fails, ← hs.compiles]
    exact step.failsToRelocate_or_compiles
  constructor
  · simp [h.compiled, hs.compiles]
  · simp [h.relocated, hs.relocates]
  · simp [h.emitted, hs.emits]
  · simp [h.fixed, Step.fixesType]
  · simp [h.attempted, Step.callsRelocate]
  · rw [pending_append_singleton, pending_append hapart, h.failed, hs.fails, hs.compiles,
      Bool.not_eq_true]

/-- A context that remembers a run. -/
structure Context.Recalls (c : Context) (steps : List Step) : Prop where
  coherent : c.Coherent
  disposed : c.stage = .disposed ↔ steps.any Step.disposes
  past : ∃ ds, c.Tracks ds ∧ Matches steps ds

namespace Context.Recalls

variable {c c' : Context} {steps : List Step} {operation : Operation} {ds : List Deed}
  {r : Except BindError Value}

theorem step (h : c.Recalls steps) (hd : operation.Does c ds r c') :
    c'.Recalls (steps ++ [⟨operation, r, ds⟩]) := by
  obtain ⟨past, htracks, hmatches⟩ := h.past
  refine ⟨hd.reaches.coherent h.coherent, ?_, past ++ ds, ?_, hmatches.step hd.honest⟩
  · rw [hd.disposed_iff, h.disposed]
    simp
  · cases hd with
    | refused => rwa [List.append_nil]
    | performed ht hd => exact htracks.task ((operation.checks c).of_ok _ ht).2 hd

variable {σ : Type} (compiler : Compiler σ)

theorem run {s : Live σ} (h : s.context.Recalls steps) (operations : List Operation) :
    (s.run compiler operations).2.context.Recalls (steps ++ (s.run compiler operations).1) := by
  induction operations generalizing s steps with
  | nil => simpa [Live.run] using h
  | cons operation rest ih =>
    have hd := (operation.yields_perform compiler h.coherent s.world).post
    have := ih (h.step hd)
    rwa [List.append_assoc] at this

end Context.Recalls

namespace Context.Recalls

variable {c : Context} {steps : List Step}

theorem relocated (h : c.Recalls steps) (hl : c.stage ≠ .disposed) :
    c.stage.isRelocated = steps.any Step.relocates := by
  obtain ⟨ds, ht, hm⟩ := h.past
  rw [ht.relocated hl, hm.relocated]

theorem compiled (h : c.Recalls steps) (hl : c.stage ≠ .disposed) :
    c.stage.hasUnits = steps.any Step.compiles := by
  obtain ⟨ds, ht, hm⟩ := h.past
  rw [ht.compiled hl, hm.compiled]

theorem fixed (h : c.Recalls steps) : c.typeFixed = steps.any Step.fixesType := by
  obtain ⟨ds, ht, hm⟩ := h.past
  rw [ht.fixed, hm.fixed]

theorem attempted (h : c.Recalls steps) :
    c.relocateAttempted = steps.any Step.callsRelocate := by
  obtain ⟨ds, ht, hm⟩ := h.past
  rw [ht.attempted, hm.attempted]

theorem failed (h : c.Recalls steps) :
    c.relocationFailed ↔ Pending Step.failsToRelocate Step.compiles steps := by
  obtain ⟨ds, ht, hm⟩ := h.past
  rw [ht.failed, hm.failed]

theorem finished_iff (h : c.Recalls steps) : Finished steps ↔ ¬c.stage.isOpen := by
  obtain ⟨ds, ht, hm⟩ := h.past
  rw [Finished, ← h.disposed, Stage.isOpen_iff_unfinished]
  by_cases hd : c.stage = .disposed
  · simp [hd]
  · rw [← h.relocated hd, hm.emitted, ← ht.emitted hd]
    cases c.stage.isRelocated <;> simp [hd]

theorem unrelocated_iff (h : c.Recalls steps) :
    steps.any Step.disposes ∨ ¬steps.any Step.relocates ↔ ¬c.stage.isRelocated := by
  rw [← h.disposed]
  by_cases hd : c.stage = .disposed
  · simp [hd, Stage.isRelocated]
  · rw [h.relocated hd, or_iff_right hd]

theorem relocatable_iff (h : c.Recalls steps) :
    Finished steps ∨ ¬steps.any Step.compiles ∨ c.outputType ≠ .memory ∨
      Pending Step.failsToRelocate Step.compiles steps ↔ ¬c.Relocatable := by
  rw [Relocatable, Stage.eq_compiled_iff, h.finished_iff, ← h.failed]
  by_cases ho : c.stage.isOpen
  · rw [h.compiled (Stage.live_of_isOpen ho)]
    cases steps.any Step.compiles <;> cases c.relocationFailed <;> simp [ho]
  · simp [ho]

theorem attempted_of_isRelocated (h : c.Recalls steps) (hr : c.stage.isRelocated) :
    steps.any Step.callsRelocate := by
  obtain ⟨ds, ht, hm⟩ := h.past
  rw [ht.relocated (Stage.live_of_isRelocated hr)] at hr
  obtain ⟨d, hd, hp⟩ := List.any_eq_true.1 hr
  rw [hm.attempted]
  exact List.any_eq_true.2 ⟨d, hd, Deed.isRelocation_of_relocates hp⟩

theorem writable_iff (h : c.Recalls steps) :
    steps.any Step.disposes ∨ steps.any Step.callsRelocate ∨ c.outputType = .memory ∨
      ¬steps.any Step.compiles ↔
    ¬(c.relocateAttempted = false ∧ c.outputType.isFile ∧
      (c.stage = .compiled ∨ c.stage = .finalized .emitted)) := by
  rw [← h.disposed, h.attempted, Stage.writable_iff]
  by_cases hd : c.stage = .disposed
  · simp [hd]
  · rw [← h.compiled hd]
    cases ha : steps.any Step.callsRelocate with
    | true => simp
    | false =>
      have hr : c.stage.isRelocated = false := Bool.eq_false_iff.2 fun hr => by
        simp [h.attempted_of_isRelocated hr] at ha
      cases c.stage.hasUnits <;> simp [hd, hr, OutputType.isFile]

end Context.Recalls

/-- A run forbids just what is not timely on the context it leaves. -/
theorem forbids_iff {c : Context} {steps : List Step} (h : c.Recalls steps)
    (operation : Operation) :
    Forbids steps c.outputType operation ↔ ¬operation.Timely c := by
  cases operation with
  | setErrorSink | clearErrorSink | setBeforeCompile | dispose =>
    exact h.disposed.symm.trans Decidable.not_not.symm
  | setLibPath | setOptions | addIncludePath | addSysIncludePath | addLibraryPath | defineSymbol
  | undefineSymbol | addLibrary | compileString | addFile | injectFunction | injectData
  | injectRaw => exact h.finished_iff
  | setOutputType type =>
    rw [Forbids, Operation.Timely, h.finished_iff, ← h.fixed, Classical.not_and_iff_not_or_not,
      Classical.not_imp]
  | relocate | relocationSize | relocateInto => exact h.relocatable_iff
  | getSymbol => exact h.unrelocated_iff
  | resolveFunction _ size =>
    rw [Forbids, Operation.Timely, h.unrelocated_iff, Classical.not_imp]
  | run =>
    rw [Forbids, Operation.Timely, or_left_comm, h.unrelocated_iff,
      Classical.not_and_iff_not_or_not]
  | outputFile => exact h.writable_iff

variable {σ : Type}

private theorem Context.Recalls.fresh (table : EntryTable) (handle : Handle) :
    (Context.fresh table handle).Recalls [] where
  coherent := .fresh table handle
  disposed := by simp [Context.fresh]
  past := ⟨[], .untouched table handle, by constructor <;> simp⟩

theorem eq_fresh_of_create {compiler : Compiler σ} {table : EntryTable} {w : World σ}
    {c : Context} (hc : (Context.create compiler table w).result = .ok c) :
    c = .fresh table w.channels.length := by
  cases hh : table.abi.isHost with
  | false =>
    rw [Context.create_mismatch compiler hh] at hc
    exact nomatch hc
  | true =>
    rcases ho : compiler.create w.outside with ⟨_ | _, outside⟩
    · rw [Context.create_exhausted compiler hh ho] at hc
      exact nomatch hc
    · obtain ⟨_, _, _, hf, _⟩ := Context.create_fresh compiler hh ho
      rw [hf] at hc
      exact (Except.ok.inj hc).symm

/-- Of the operations performed one after the other on a new context, the next is refused for its
time exactly if those before it forbid it. -/
theorem refused_iff_forbids {compiler : Compiler σ} {table : EntryTable} {w : World σ}
    {c : Context} (hc : (Context.create compiler table w).result = .ok c)
    (operations : List Operation) (next : Operation) :
    let run := Live.run compiler ⟨c, (Context.create compiler table w).state⟩ operations
    let sealable : Bool := next.kind = .injection ∧ ¬run.1.any Step.disposes
    Untimely sealable (next.perform compiler run.2).result ↔
      Forbids run.1 run.2.context.outputType next := by
  intro run sealable
  have hfresh : c.Recalls [] := eq_fresh_of_create hc ▸ .fresh table w.channels.length
  have hr : run.2.context.Recalls run.1 :=
    Context.Recalls.run compiler (s := ⟨c, (Context.create compiler table w).state⟩) hfresh
      operations
  have hsealable : next.sealable run.2.context = sealable :=
    decide_eq_decide.2 (and_congr_right fun _ => not_congr hr.disposed)
  have hd := (next.yields_perform compiler hr.coherent run.2.world).post
  -- history decides what is timely, and what is timely decides how the check ends
  rw [forbids_iff hr, ← hsealable]
  exact hd.untimely_iff

/-- A compiler that agrees to everything. -/
def Compiler.agreeable : Compiler Unit where
  files _ := {}
  create _ := (true, ())
  call _ _ _ := ({}, [], ())
  enter _ _ _ := (0, [], ())

theorem relocate_refused_for_object :
    let created := Context.create .agreeable ⟨.wide, ⟨[]⟩⟩ { outside := () }
    created.result = .ok (.fresh ⟨.wide, ⟨[]⟩⟩ 0) ∧
      let run := Live.run .agreeable ⟨.fresh ⟨.wide, ⟨[]⟩⟩ 0, created.state⟩
        [.setOutputType .object, .compileString "int x;"]
      run.2.context.stage = .compiled ∧
        Untimely false (Operation.relocate.perform .agreeable run.2).result :=
  ⟨rfl, by decide, (refused_iff_forbids rfl _ .relocate).2 (.inr (.inr (.inl (by decide))))⟩

end EmbeddedC
