import EmbeddedC.Proofs.Diagnostics
/-!
# Created and configured

Two runs of the same work, the second on a context that has been moved on from the first stage, do
the same: they make the same calls, return the same, and leave contexts that differ at most in the
same way. What can differ is the name of the stage, where it is shown. So a context whose output
type was never chosen goes the way of one for which memory output was chosen.
-/

namespace EmbeddedC

variable {σ α β : Type}

/-- An error that names the stage after creation where it named creation. -/
def BindError.configured : BindError → BindError
  | outOfOrder operation .created reason => .outOfOrder operation .configured reason
  | e => e

def Event.isStageChange : Event → Bool
  | logged (.stageChanged _ _) => true
  | _ => false

/-- What is seen, moves from stage to stage apart. -/
def unstaged (events : List Event) : List Event :=
  events.filter (!·.isStageChange)

@[simp] theorem unstaged_append (events more : List Event) :
    unstaged (events ++ more) = unstaged events ++ unstaged more :=
  List.filter_append _ _

/-- A context at a later stage is the same whether it was moved on before or not. -/
theorem Context.configured_with_stage (c : Context) {next : Stage} (hnext : next ≠ .created) :
    { c.configured with stage := next } = ({ c with stage := next } : Context).configured := by
  rw [configured_of_ne (c := { c with stage := next }) hnext]
  unfold configured
  split <;> rfl

/-- A setting moves a context on from the first stage. Nothing else is seen of it. -/
theorem ContextAction.markConfigured_moves (c : Context) (w : World σ) :
    let o := markConfigured ⟨c, w⟩
    o.result = .ok () ∧ o.state = ⟨c.configured, w⟩ ∧ unstaged o.events = [] := by
  by_cases hc : c.stage = .created
  · have hnext : c.configured = { c with stage := .configured } := if_pos hc
    simp [markConfigured, advance, context, log, modify, Bind.bind, Action.bind, Action.get,
      Action.emit, Action.modify, Pure.pure, Action.pure, hc, hnext, unstaged,
      Event.isStageChange]
  · simp [markConfigured, context, Bind.bind, Action.bind, Action.get, Pure.pure, Action.pure, hc,
      Context.configured_of_ne hc, unstaged]

/-- The outcome of the same work on a context that was moved on before. -/
structure Outcome.Alike (o o' : Outcome Event (Live σ) BindError α) : Prop where
  result : o'.result = o.result.mapError BindError.configured
  context : o'.state.context = o.state.context.configured
  world : o'.state.world = o.state.world
  events : unstaged o'.events = unstaged o.events

/-- Work that goes the same way from a context `c` and from the one it is moved on to. -/
def ContextAction.Alike (c : Context) (x x' : ContextAction σ α) : Prop :=
  ∀ w : World σ, (x ⟨c, w⟩).Alike (x' ⟨c.configured, w⟩)

namespace ContextAction.Alike

variable {c : Context}

theorem pure (a : α) : Alike (σ := σ) c (Pure.pure a) (Pure.pure a) :=
  fun _ => ⟨rfl, rfl, rfl, rfl⟩

theorem fail {e : BindError} (h : e.configured = e) :
    Alike (σ := σ) (α := α) c (Action.fail e) (Action.fail e) :=
  fun _ => ⟨congrArg Except.error h.symm, rfl, rfl, rfl⟩

theorem emit (events : List Event) :
    Alike (σ := σ) c (Action.emit events) (Action.emit events) :=
  fun _ => ⟨rfl, rfl, rfl, rfl⟩

theorem bind {x x' : ContextAction σ α} {f f' : α → ContextAction σ β} (hx : Alike c x x')
    (hf : ∀ a c, Alike c (f a) (f' a)) : Alike c (x >>= f) (x' >>= f') := by
  intro w
  obtain ⟨hresult, hcontext, hworld, hevents⟩ := hx w
  simp only [Bind.bind, Action.bind]
  rcases ho : x ⟨c, w⟩ with ⟨r, ⟨d, v⟩, events⟩
  rcases ho' : x' ⟨c.configured, w⟩ with ⟨r', ⟨d', v'⟩, events'⟩
  rw [ho, ho'] at hresult hcontext hworld hevents
  dsimp only at hresult hcontext hworld hevents
  subst hresult hcontext hworld
  cases r with
  | error e => exact ⟨rfl, rfl, rfl, hevents⟩
  | ok a =>
    obtain ⟨hresult', hcontext', hworld', hevents'⟩ := hf a d v'
    refine ⟨hresult', hcontext', hworld', ?_⟩
    simp only [Action.mapError_ok, unstaged_append, hevents, hevents']

theorem context_bind {f f' : Context → ContextAction σ α}
    (h : Alike c (f c) (f' c.configured)) :
    Alike c (ContextAction.context >>= f) (ContextAction.context >>= f') := by
  intro w
  have := h w
  simpa [Bind.bind, Action.bind, Action.get, ContextAction.context, Pure.pure, Action.pure]
    using this

theorem ofExcept_bind {x x' : Except BindError α} {f : α → ContextAction σ β}
    (h : x' = x.mapError BindError.configured) (hf : ∀ a, x = .ok a → Alike c (f a) (f a)) :
    Alike c (Action.ofExcept x >>= f) (Action.ofExcept x' >>= f) := by
  subst h
  cases x with
  | error e => exact fun _ => ⟨rfl, rfl, rfl, rfl⟩
  | ok a => exact hf a rfl

theorem modify {f : Context → Context} (h : f c.configured = (f c).configured) :
    Alike (σ := σ) c (ContextAction.modify f) (ContextAction.modify f) :=
  fun _ => ⟨rfl, h, rfl, rfl⟩

theorem ite {p : Prop} [Decidable p] {x x' y y' : ContextAction σ α}
    (hx : Alike c x x') (hy : Alike c y y') :
    Alike c (if p then x else y) (if p then x' else y') := by
  by_cases h : p
  · rw [if_pos h, if_pos h]
    exact hx
  · rw [if_neg h, if_neg h]
    exact hy

theorem silent {x x' : ContextAction σ Unit} (hx : Alike c x x') :
    Alike c (ContextAction.silent x) (ContextAction.silent x') :=
  hx.bind fun _ _ => pure _

theorem log (record : LogRecord) :
    Alike (σ := σ) c (ContextAction.log record) (ContextAction.log record) :=
  emit _

/-- Later stages are reached alike. The stage that is left is logged, and nothing else is. -/
theorem advance {next : Stage} (hcreated : next ≠ .created) (hconfigured : next ≠ .configured) :
    Alike (σ := σ) c (ContextAction.advance next) (ContextAction.advance next) := by
  apply context_bind
  by_cases hc : c.stage = next
  · have hc' : c.configured.stage = next := by
      rw [Context.configured_of_ne (hc ▸ hcreated), hc]
    rw [if_pos hc, if_pos hc']
    exact pure _
  · have hc' : c.configured.stage ≠ next := by
      rcases c.configured_stage with h | ⟨_, h⟩
      · rwa [h]
      · rw [h]
        exact hconfigured.symm
    rw [if_neg hc, if_neg hc']
    exact fun _ => ⟨rfl, c.configured_with_stage hcreated, rfl, rfl⟩

theorem markConfigured :
    Alike (σ := σ) c ContextAction.markConfigured ContextAction.markConfigured := by
  intro w
  obtain ⟨hresult, hstate, hevents⟩ := markConfigured_moves c w
  obtain ⟨hresult', hstate', hevents'⟩ := markConfigured_moves c.configured w
  refine ⟨?_, ?_, ?_, hevents'.trans hevents.symm⟩
  · rw [hresult, hresult']
    rfl
  · rw [hstate, hstate']
  · rw [hstate, hstate']

theorem checkStatus (entry : Entry) (argument : String) (status : Int32) :
    Alike (σ := σ) c (ContextAction.checkStatus entry argument status)
      (ContextAction.checkStatus entry argument status) :=
  ite ((log _).bind fun _ _ => fail rfl) (pure _)

variable (compiler : Compiler σ)

theorem call (request : Request) :
    Alike c (ContextAction.call compiler request) (ContextAction.call compiler request) := by
  intro w
  simp only [ContextAction.call, Action.step, Context.configured_handle?]
  cases c.handle? <;> exact ⟨rfl, rfl, rfl, rfl⟩

theorem enter (address : Address) (arguments : Arguments) :
    Alike c (ContextAction.enter compiler address arguments)
      (ContextAction.enter compiler address arguments) := by
  intro w
  simp only [ContextAction.enter, Action.step, Context.configured_handle?]
  exact ⟨rfl, rfl, rfl, rfl⟩

theorem release : Alike c (ContextAction.release compiler) (ContextAction.release compiler) := by
  apply context_bind
  rw [Context.configured_handle?]
  cases c.handle? with
  | none => exact pure _
  | some _ =>
    refine (call compiler _).bind fun _ c => (modify ?_).bind fun _ c => ?_
    · unfold Context.configured
      split <;> rfl
    · rw [Context.configured_abi]
      exact log _

end ContextAction.Alike

section Checks

/-- Checks that give the same answer, but for the stage that a refusal names. -/
def Concurs (x x' : Except BindError α) : Prop :=
  x' = x.mapError BindError.configured

namespace Concurs

theorem ok (a : α) : Concurs (.ok a) (.ok a) := rfl

theorem error {e : BindError} (h : e.configured = e) : Concurs (α := α) (.error e) (.error e) :=
  congrArg Except.error h.symm

theorem bind {x x' : Except BindError α} {f f' : α → Except BindError β} (hx : Concurs x x')
    (hf : ∀ a, Concurs (f a) (f' a)) : Concurs (x >>= f) (x' >>= f') := by
  cases hx
  cases x with
  | error e => exact rfl
  | ok a => exact hf a

theorem map {x x' : Except BindError α} (f : α → β) (hx : Concurs x x') :
    Concurs (f <$> x) (f <$> x') := by
  cases hx
  cases x <;> rfl

theorem ite {p : Prop} [Decidable p] {x x' y y' : Except BindError α} (hx : Concurs x x')
    (hy : Concurs y y') : Concurs (if p then x else y) (if p then x' else y') := by
  by_cases h : p
  · rw [if_pos h, if_pos h]
    exact hx
  · rw [if_neg h, if_neg h]
    exact hy

theorem boundaryText (what value : String) :
    Concurs (EmbeddedC.boundaryText what value) (EmbeddedC.boundaryText what value) := by
  unfold EmbeddedC.boundaryText
  cases CText.ofString? value with
  | none => exact error rfl
  | some text => exact ok text

theorem boundaryPath (path : Path) :
    Concurs (EmbeddedC.boundaryPath path) (EmbeddedC.boundaryPath path) := by
  unfold EmbeddedC.boundaryPath
  cases CText.ofBytes? path.bytes with
  | none => exact error rfl
  | some text => exact ok text

theorem boundaryArgumentsFrom (i : Nat) (arguments : List String) :
    Concurs (EmbeddedC.boundaryArgumentsFrom i arguments)
      (EmbeddedC.boundaryArgumentsFrom i arguments) := by
  induction arguments generalizing i with
  | nil => exact ok []
  | cons a rest ih =>
    exact (boundaryText _ a).bind fun t => (ih (i + 1)).bind fun ts => ok (t :: ts)

theorem boundaryArguments (arguments : List String) :
    Concurs (EmbeddedC.boundaryArguments arguments) (EmbeddedC.boundaryArguments arguments) :=
  (boundaryArgumentsFrom 0 arguments).bind fun ts => ite (error rfl) (ok ts)

end Concurs

namespace Context

variable (c : Context)

/-- Nobody asks whether a context is still created and not configured, or the other way round. -/
theorem configured_question (question : Stage → Bool)
    (h : question .configured = question .created) :
    question c.configured.stage = question c.stage := by
  rcases c.configured_stage with hs | ⟨hc, hs⟩
  · rw [hs]
  · rw [hs, hc, h]

theorem violation_configured (operation reason : String) :
    c.configured.violation operation reason = (c.violation operation reason).configured := by
  cases hc : c.stage <;> simp [violation, configured, BindError.configured, hc]

theorem concurs_ensure {holds holds' : Bool} (h : holds' = holds) (operation reason : String) :
    Concurs (c.ensure holds operation reason) (c.configured.ensure holds' operation reason) := by
  subst h
  cases holds' with
  | true => exact .ok ()
  | false => exact congrArg Except.error (c.violation_configured operation reason)

theorem concurs_ensureLive (operation : String) :
    Concurs (c.ensureLive operation) (c.configured.ensureLive operation) :=
  c.concurs_ensure (c.configured_question (!·.isDisposed) rfl) _ _

theorem concurs_ensureOpen (operation : String) :
    Concurs (c.ensureOpen operation) (c.configured.ensureOpen operation) :=
  (c.concurs_ensureLive operation).bind fun _ => c.concurs_ensure c.configured_isOpen _ _

theorem concurs_ensureInjectable (name : String) :
    Concurs (c.ensureInjectable name) (c.configured.ensureInjectable name) := by
  refine (c.concurs_ensureLive _).bind fun _ => ?_
  by_cases hc : c.stage = .created
  · have hs : c.stage.isSealed = false := by rw [hc]; rfl
    rw [c.configured_question (·.isSealed) rfl, hs, if_neg Bool.false_ne_true,
      if_neg Bool.false_ne_true]
    exact .ite (.error rfl) (.ok ())
  · rw [configured_of_ne hc]
    exact .ite (.error rfl) (.ite (.error rfl) (.ok ()))

theorem concurs_ensureCallable (name : String) (convention : Convention) :
    Concurs (c.ensureCallable name convention) (c.configured.ensureCallable name convention) := by
  unfold ensureCallable
  rw [configured_abi]
  exact .ite (.ok ()) (.error rfl)

theorem concurs_ensureRelocatable (operation : String) :
    Concurs (c.ensureRelocatable operation) (c.configured.ensureRelocatable operation) := by
  have hcompiled := c.configured_question (· = .compiled) rfl
  have hfresh := c.configured_question (fun s => s ≠ .created ∧ s ≠ .configured) rfl
  refine (c.concurs_ensureLive _).bind fun _ => (c.concurs_ensure hfresh _ _).bind fun _ => ?_
  refine (c.concurs_ensure hcompiled _ _).bind fun _ => ?_
  rw [configured_outputType, configured_relocationFailed]
  exact (c.concurs_ensure rfl _ _).bind fun _ => c.concurs_ensure rfl _ _

theorem concurs_checkLookUp (name : String) :
    Concurs (c.checkLookUp name) (c.configured.checkLookUp name) := by
  have hrelocated := c.configured_question (·.isRelocated) rfl
  refine (c.concurs_ensureLive _).bind fun _ => (c.concurs_ensure hrelocated _ _).bind fun _ => ?_
  exact (Concurs.boundaryText _ name).bind fun t => .ok _

theorem concurs_checkSetting (operation : String) {setting : Except BindError Setting}
    (h : Concurs setting setting) :
    Concurs (c.checkSetting operation setting) (c.configured.checkSetting operation setting) :=
  (c.concurs_ensureOpen _).bind fun _ => h.bind fun _ => .ok _

end Context

theorem Operation.concurs_injection (symbol : InjectedSymbol) :
    Concurs (injection symbol) (injection symbol) :=
  (Concurs.boundaryText _ symbol.name).bind fun _ => .ok _

/-- The checks of an operation let pass the same, with the same task. -/
theorem Operation.concurs (c : Context) (operation : Operation) :
    Concurs (operation.check c) (operation.check c.configured) := by
  cases operation with
  | setErrorSink sink => exact (c.concurs_ensureLive _).bind fun _ => .ok _
  | clearErrorSink => exact (c.concurs_ensureLive _).bind fun _ => .ok _
  | setBeforeCompile hook => exact (c.concurs_ensureLive _).bind fun _ => .ok _
  | setLibPath path => exact c.concurs_checkSetting _ ((Concurs.boundaryPath path).map _)
  | setOptions options => exact c.concurs_checkSetting _ ((Concurs.boundaryText _ options).map _)
  | addIncludePath path => exact c.concurs_checkSetting _ ((Concurs.boundaryPath path).map _)
  | addSysIncludePath path => exact c.concurs_checkSetting _ ((Concurs.boundaryPath path).map _)
  | addLibraryPath path => exact c.concurs_checkSetting _ ((Concurs.boundaryPath path).map _)
  | addLibrary name =>
    refine (c.concurs_ensureOpen _).bind fun _ => ?_
    exact (Concurs.boundaryText _ name).bind fun t => .ok _
  | defineSymbol name value? =>
    apply c.concurs_checkSetting
    refine (Concurs.boundaryText _ name).bind fun t => ?_
    cases value? with
    | none => exact .ok _
    | some value => exact ((Concurs.boundaryText _ value).map some).bind fun v => .ok _
  | undefineSymbol name => exact c.concurs_checkSetting _ ((Concurs.boundaryText _ name).map _)
  | setOutputType type =>
    refine (c.concurs_ensureOpen _).bind fun _ => ?_
    rw [c.configured_typeFixed, c.configured_outputType]
    exact .ite ((c.concurs_ensure rfl _ _).bind fun _ => .ok _) (.ok _)
  | compileString source =>
    refine (c.concurs_ensureOpen _).bind fun _ => ?_
    exact (Concurs.boundaryText _ source).bind fun t => .ok _
  | addFile path =>
    refine (c.concurs_ensureOpen _).bind fun _ => ?_
    exact (Concurs.boundaryPath path).bind fun t => .ok _
  | injectFunction name convention address =>
    refine (c.concurs_ensureInjectable name).bind fun _ => ?_
    exact (c.concurs_ensureCallable name convention).bind fun _ => concurs_injection _
  | injectData name address =>
    exact (c.concurs_ensureInjectable name).bind fun _ => concurs_injection _
  | injectRaw name kind address =>
    exact (c.concurs_ensureInjectable name).bind fun _ => concurs_injection _
  | relocate => exact (c.concurs_ensureRelocatable _).bind fun _ => .ok _
  | relocationSize => exact (c.concurs_ensureRelocatable _).bind fun _ => .ok _
  | relocateInto => exact (c.concurs_ensureRelocatable _).bind fun _ => .ok _
  | getSymbol name => exact c.concurs_checkLookUp name
  | resolveFunction typeName size name => exact .ite (c.concurs_checkLookUp name) (.error rfl)
  | run arguments =>
    have hrelocated := c.configured_question (·.isRelocated) rfl
    refine (c.concurs_ensureLive _).bind fun _ => ?_
    rw [c.configured_outputType]
    refine (c.concurs_ensure rfl _ _).bind fun _ => ?_
    refine (c.concurs_ensure hrelocated _ _).bind fun _ => ?_
    exact (Concurs.boundaryArguments arguments).bind fun ts => .ok _
  | outputFile path =>
    have hready := c.configured_question (fun s => s = .compiled ∨ s = .finalized .emitted) rfl
    refine (c.concurs_ensureLive _).bind fun _ => ?_
    rw [c.configured_relocateAttempted, c.configured_outputType]
    refine (c.concurs_ensure rfl _ _).bind fun _ => (c.concurs_ensure rfl _ _).bind fun _ => ?_
    refine (c.concurs_ensure hready _ _).bind fun _ => ?_
    exact (Concurs.boundaryPath path).bind fun t => .ok _
  | dispose =>
    have hlive := c.configured_question (!·.isDisposed) rfl
    exact (c.concurs_ensure hlive _ _).bind fun _ => .ok _

/-- The checks of a job look at the files and at nothing that differs. -/
theorem Job.concurs (files : FileSystem) (c : Context) (job : Job) :
    Concurs (job.check files c) (job.check files c.configured) := by
  have hexists (path : Path) :
      Concurs (if files.isFile path then .ok () else .error (.io path .noSource))
        (if files.isFile path then .ok () else .error (.io path .noSource)) :=
    .ite (.ok ()) (.error rfl)
  cases job with
  | compileSourceTo => exact c.concurs_ensure rfl _ _
  | compileFileTo path kind destination =>
    exact (c.concurs_ensure rfl _ _).bind fun _ => hexists path
  | runFile path arguments => exact hexists path

end Checks

section Work

variable (compiler : Compiler σ) {c : Context}

namespace ContextAction.Alike

/-- A change to anything but the stage. -/
theorem modify_rest {f : Context → Context}
    (h : ∀ c stage, f { c with stage } = { f c with stage }) :
    Alike (σ := σ) c (ContextAction.modify f) (ContextAction.modify f) := by
  apply modify
  have hstage : (f c).stage = c.stage := by
    have := congrArg Context.stage (h c c.stage)
    exact this
  unfold Context.configured
  rw [hstage]
  split
  · exact h c _
  · rfl

theorem setSink (sink? : Option Sink) :
    Alike (σ := σ) c
      (Action.modify fun s => { s with world := s.world.setSink s.context.number sink? })
      (Action.modify fun s => { s with world := s.world.setSink s.context.number sink? }) := by
  intro w
  refine ⟨rfl, rfl, ?_, rfl⟩
  simp only [Action.modify, Context.configured_number]

theorem fixType : Alike c (ContextAction.fixType compiler) (ContextAction.fixType compiler) := by
  apply context_bind
  rw [Context.configured_typeFixed, Context.configured_outputType]
  refine ite (pure _) ((call compiler _).bind fun answer c => ?_)
  exact (checkStatus _ _ _).bind fun _ c => (modify_rest fun _ _ => rfl).bind fun _ c => log _

theorem runHook : Alike (σ := σ) c ContextAction.runHook ContextAction.runHook := by
  apply context_bind
  rw [Context.configured_hook?, Context.configured_handle?]
  cases c.hook? with
  | none => exact pure _
  | some hook => exact emit _

theorem configure (setting : Setting) :
    Alike c (ContextAction.configure compiler setting)
      (ContextAction.configure compiler setting) := by
  refine (call compiler _).bind fun answer c => ?_
  cases setting.reportsStatus with
  | true => exact (checkStatus _ _ _).bind fun _ c => markConfigured
  | false => exact (pure PUnit.unit).bind fun _ c => markConfigured

theorem addLibrary (name : CText) :
    Alike c (ContextAction.addLibrary compiler name)
      (ContextAction.addLibrary compiler name) := by
  refine (fixType compiler).bind fun _ c => (call compiler _).bind fun answer c => ?_
  exact (checkStatus _ _ _).bind fun _ c => markConfigured

theorem compile (unit : SourceUnit) :
    Alike c (ContextAction.compile compiler unit) (ContextAction.compile compiler unit) := by
  refine (fixType compiler).bind fun _ c => runHook.bind fun _ c => ?_
  refine (call compiler _).bind fun answer c => ite ((log _).bind fun _ c => fail rfl) ?_
  refine (log _).bind fun _ c => (modify_rest fun _ _ => rfl).bind fun _ c => ?_
  exact advance (by decide) (by decide)

theorem inject (name : CText) (symbol : InjectedSymbol) :
    Alike c (ContextAction.inject compiler name symbol)
      (ContextAction.inject compiler name symbol) := by
  refine (call compiler _).bind fun answer c => ite (fail rfl) (context_bind ?_)
  rw [Context.configured_symbols]
  exact (modify_rest fun _ _ => rfl).bind fun _ c => log _

theorem relocate (target : Target) :
    Alike c (ContextAction.relocate compiler target) (ContextAction.relocate compiler target) := by
  refine (modify_rest fun _ _ => rfl).bind fun _ c => (call compiler _).bind fun answer c => ?_
  apply ite
  · refine (modify_rest fun _ _ => rfl).bind fun _ c => (log _).bind fun _ c => fail rfl
  · have hdone (c : Context) : Alike (σ := σ) c
        (ContextAction.advance .relocated >>= fun _ => Pure.pure Value.none)
        (ContextAction.advance .relocated >>= fun _ => Pure.pure Value.none) :=
      (advance (by decide) (by decide)).bind fun _ _ => pure _
    cases target with
    | size => exact pure _
    | auto =>
      apply context_bind
      rw [Context.configured_symbols]
      exact (log _).bind fun _ c => hdone c
    | memory => exact (log _).bind fun _ c => hdone c

theorem lookUp (name : CText) :
    Alike c (ContextAction.lookUp compiler name) (ContextAction.lookUp compiler name) :=
  (call compiler _).bind fun _ _ =>
    (advance (by decide) (by decide)).bind fun _ _ => pure _

theorem run (arguments : List CText) :
    Alike c (ContextAction.run compiler arguments) (ContextAction.run compiler arguments) := by
  refine (log _).bind fun _ c => (call compiler _).bind fun answer c => ?_
  cases answer.address.nonNull? with
  | none => exact (log _).bind fun _ c => fail rfl
  | some main =>
    refine (enter compiler _ _).bind fun status c => (log _).bind fun _ c => ?_
    exact (advance (by decide) (by decide)).bind fun _ _ => pure _

theorem outputFile (path : CText) :
    Alike c (ContextAction.outputFile compiler path)
      (ContextAction.outputFile compiler path) := by
  refine (call compiler _).bind fun answer c => ?_
  apply ite
  · exact (log _).bind fun _ c => fail rfl
  · apply context_bind
    rw [Context.configured_outputType]
    exact (log _).bind fun _ c => advance (by decide) (by decide)

theorem dispose :
    Alike c (ContextAction.dispose compiler) (ContextAction.dispose compiler) :=
  (release compiler).bind fun _ _ => advance (by decide) (by decide)

end ContextAction.Alike

open ContextAction

theorem Task.alike (task : Task) : Alike c (task.perform compiler) (task.perform compiler) := by
  have hsetting {x : ContextAction σ Unit} (hx : Alike c x x) :
      Alike c (x >>= fun _ => ContextAction.markConfigured)
        (x >>= fun _ => ContextAction.markConfigured) :=
    hx.bind fun _ _ => Alike.markConfigured
  cases task with
  | installSink sink? => exact (hsetting (Alike.setSink sink?)).silent
  | installHook hook => exact (hsetting (Alike.modify_rest fun _ _ => rfl)).silent
  | configure setting => exact (Alike.configure compiler setting).silent
  | addLibrary name => exact (Alike.addLibrary compiler name).silent
  | chooseType type => exact (hsetting (Alike.modify_rest fun _ _ => rfl)).silent
  | keepType => exact Alike.pure _
  | compile unit => exact (Alike.compile compiler unit).silent
  | inject name symbol => exact (Alike.inject compiler name symbol).silent
  | relocate target => exact Alike.relocate compiler target
  | lookUp name => exact Alike.lookUp compiler name
  | run arguments => exact Alike.run compiler arguments
  | outputFile path => exact (Alike.outputFile compiler path).silent
  | dispose => exact (Alike.dispose compiler).silent

theorem Operation.alike (operation : Operation) :
    Alike c (operation.perform compiler) (operation.perform compiler) := by
  apply Alike.context_bind
  exact Alike.ofExcept_bind (operation.concurs c) fun task _ => task.alike compiler

theorem Operation.alike_performAll (operations : List Operation) :
    Alike c (performAll compiler operations) (performAll compiler operations) := by
  induction operations generalizing c with
  | nil => exact Alike.pure _
  | cons operation rest ih =>
    cases rest with
    | nil => exact operation.alike compiler
    | cons next rest => exact (operation.alike compiler).bind fun _ _ => ih

theorem Job.alike (job : Job) : Alike c (job.perform compiler) (job.perform compiler) := by
  intro w
  have hwork : Alike c
      (Action.ofExcept (job.check (w.files compiler) c) >>= fun _ =>
        Operation.performAll compiler job.operations)
      (Action.ofExcept (job.check (w.files compiler) c.configured) >>= fun _ =>
        Operation.performAll compiler job.operations) :=
    Alike.ofExcept_bind (job.concurs _ c) fun _ _ => Operation.alike_performAll compiler _
  simpa [Job.perform, Bind.bind, Action.bind, Action.get] using hwork w

end Work

end EmbeddedC
