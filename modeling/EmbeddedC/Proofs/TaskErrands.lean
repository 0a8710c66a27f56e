import EmbeddedC.Proofs.Errand
/-!
# Tasks as errands

A task on a context without a hook, as errands: a request of its own, and before the first unit or
library the output type. If they succeed the context they leave is known. Operations add their
checks in front, so a row of settings is a row of errands.
-/

namespace EmbeddedC

variable {σ : Type}

theorem Context.FixesType.eq {c c' : Context} {ds : List Deed} (hf : c.FixesType ds c') :
    c' = { c with typeFixed := true } := by
  cases hf with
  | known hc => rw [← hc]
  | sent => rfl

namespace Task

def errands (c : Context) : Task → List (Errand BindError)
  | installSink _ | installHook _ | chooseType _ | keepType => []
  | configure setting => [.ask (.configure setting)]
  | addLibrary name => Errand.telling c.typeFixed c.outputType [.ask (.addLibrary name)]
  | compile unit => Errand.telling c.typeFixed c.outputType [.ask (.compile unit)]
  | inject name symbol => [.ask (.addSymbol name symbol.address)]
  | relocate target => [.ask (.relocate target)]
  | lookUp name => [.ask (.getSymbol name)]
  | run arguments =>
    [.enter ContextAction.mainName (.program arguments)
      (.missingEntryPoint ContextAction.mainName.text)]
  | outputFile path => [.ask (.outputFile path)]
  | dispose => [.ask .delete]

/-- The context that a task leaves if it succeeds. -/
def after (c : Context) : Task → Context
  | installSink _ | configure _ => c.configured
  | installHook hook => { c with hook? := some hook }.configured
  | addLibrary _ => { c with typeFixed := true }.configured
  | chooseType type => { c with outputType := type }.configured
  | keepType => c
  | compile _ => { c with typeFixed := true, relocationFailed := false, stage := .compiled }
  | inject _ symbol => { c with symbols := (c.symbols.record symbol).2 }
  | relocate .size => { c with relocateAttempted := true }
  | relocate _ => { c with relocateAttempted := true, stage := .relocated }
  | lookUp _ => { c with stage := .finalized .resolved }
  | run _ => { c with stage := .finalized .ran }
  | outputFile _ => { c with stage := .finalized .emitted }
  | dispose => { c with handle? := none, symbols := .empty, hook? := none, stage := .disposed }

variable {c c' : Context} {task : Task} {ds ds' : List Deed} {r : Except BindError Value}

theorem Does.eq_after {value : Value} (hd : task.Does c ds (.ok value) c') :
    c' = task.after c := by
  cases hd with
  | libraryAdded hf | compiled hf =>
    rw [hf.eq]
    rfl
  | @relocated target ht =>
    cases target with
    | size => exact absurd rfl ht
    | auto | memory => rfl
  | _ => rfl

theorem Does.handle?_kept (hd : task.Does c ds r c') (hk : task.kind ≠ .disposal) :
    c'.handle? = c.handle? := by
  cases hd with
  | libraryAdded hf => exact (Context.configured_handle? _).trans hf.handle?
  | libraryRefused hf | compiled hf | compileFailed hf => exact hf.handle?
  | disposed => exact absurd rfl hk
  | _ => simp

variable {compiler : Compiler σ}

private theorem carries_telling (hf : c.FixesType ds c') {request : Request}
    {r : Except BindError Unit} (h : (Errand.ask request).Ends compiler id ds' r) :
    Carries compiler id (Errand.telling c.typeFixed c.outputType [.ask request]) (ds ++ ds') r := by
  cases hf with
  | known hc =>
    rw [hc, Errand.telling_told]
    exact .one h
  | sent answer hc ha =>
    rw [hc]
    exact .next (.granted answer fun _ => ha) (.one h)

private theorem hookDeeds_nil (hh : c.hook? = none) : c.hookDeeds = [] := by
  rw [Context.hookDeeds, hh]
  rfl

private theorem hook_of_fixesType (hf : c.FixesType ds c') (hh : c.hook? = none) :
    c'.hook? = none := by
  rw [hf.eq]
  exact hh

/-- A task without a hook comes to its errands. -/
theorem Does.carries (ht : task.Timely c) (hh : c.hook? = none) (hd : task.Does c ds r c') :
    Carries compiler id (task.errands c) ds (r.map fun _ => ()) := by
  cases hd with
  | sinkInstalled | hookInstalled | typeChosen | typeKept => exact .done
  | @configured setting answer ha =>
    refine .one (.granted answer fun hs => ha ?_)
    apply Decidable.byContradiction
    intro hn
    simp [Request.failure?, hn] at hs
  | @configureRefused setting answer hs ha =>
    exact .one (.refused answer (if_pos hs) ha)
  | typeRefused answer hneeds hc ha =>
    have hrefused : (Errand.ask (.setOutputType c.outputType.code)).Ends compiler id
        [.called (.setOutputType c.outputType.code) answer] _ :=
      .refused answer (Request.failure?_setOutputType _ _) ha
    cases task with
    | addLibrary | compile =>
      simp only [errands, hc]
      exact .cut hrefused
    | _ => exact Bool.noConfusion hneeds
  | libraryAdded hf answer ha => exact carries_telling hf (.granted answer fun _ => ha)
  | libraryRefused hf answer ha => exact carries_telling hf (.refused answer rfl ha)
  | compiled hf answer ha =>
    rw [hookDeeds_nil (hook_of_fixesType hf hh)]
    exact carries_telling hf (.granted answer fun _ => ha)
  | compileFailed hf answer ha =>
    rw [hookDeeds_nil (hook_of_fixesType hf hh)]
    exact carries_telling hf (.refused answer rfl ha)
  | injected answer ha => exact .one (.granted answer fun _ => ha)
  | @injectionRefused name symbol answer ha =>
    refine .one (.refused answer ?_ ha)
    rw [Request.failure?, CText.text_of_ofString? ht.2]
  | sized answer ha | relocated _ answer ha | emitted answer ha =>
    exact .one (.granted answer fun _ => ha)
  | relocationFailed answer ha | emissionFailed answer ha => exact .one (.refused answer rfl ha)
  | lookedUp answer | disposed answer => exact .one (.granted answer (by simp [Request.failure?]))
  | ran answer hm status => exact .one (.entered answer hm)
  | noMain answer hm => exact .one (.absent answer hm)

open EmbeddedC.Action

variable (compiler) {handle : Handle}

theorem follows (hc : c.handle? = some handle) (hh : c.hook? = none) (ht : task.Timely c)
    (hk : task.kind ≠ .disposal) :
    Follows compiler id handle (task.perform compiler) c (task.errands c)
      fun _ _ c' => c' = task.after c := by
  apply Follows.of_yields (task.yields_perform compiler hc)
  intro ds r c' hd
  refine ⟨hd.carries ht hh, ?_, (hd.handle?_kept hk).trans hc⟩
  intro value hvalue
  subst hvalue
  exact hd.eq_after

end Task

namespace Operation

open EmbeddedC.Action

variable (compiler : Compiler σ) {handle : Handle} {c : Context} {operation : Operation}

/-- An operation that is in order comes to its task. -/
theorem follows (hc : c.handle? = some handle) (hh : c.hook? = none) {task : Task}
    (hk : operation.check c = .ok task) (hd : operation.kind ≠ .disposal) :
    Follows compiler id handle (operation.perform compiler) c (task.errands c)
      fun _ _ c' => c' = task.after c := by
  obtain ⟨hkind, ht⟩ := (operation.checks c).of_ok task hk
  intro w
  rw [operation.perform_of_check compiler (s := ⟨c, w⟩) hk]
  exact task.follows compiler hc hh ht (hkind ▸ hd) w

/-- One that is not comes to nothing. -/
theorem follows_stop (hc : c.handle? = some handle) {e : BindError}
    (hk : operation.check c = .error e) {post : List Deed → Value → Context → Prop} :
    Follows compiler id handle (operation.perform compiler) c [.stop e] post := by
  intro w
  rw [operation.perform_of_check_error compiler (s := ⟨c, w⟩) hk]
  exact Follows.stop hc e w

/-- An operation that only has to bring its argument across the boundary comes to one request, with
the type told before it where it must be. -/
theorem follows_request {α : Type} {argument : Except BindError α} {task : α → Task}
    {request : α → Request} {told : Bool} {type : OutputType} {c' : Context}
    (hc : c.handle? = some handle) (hh : c.hook? = none)
    (hk : operation.check c = argument.map task) (hd : operation.kind ≠ .disposal)
    (he : ∀ a, (task a).errands c = Errand.telling told type [.ask (request a)])
    (ha : ∀ a, (task a).after c = c') :
    Follows compiler id handle (operation.perform compiler) c
      (Errand.telling told type [.ofExcept (argument.map request)])
      fun _ _ d => d = c' ∧ (Errand.ofExcept (argument.map request)).asks := by
  cases argument with
  | error e =>
    have hstop : Errand.telling told type [.ofExcept ((Except.error e).map request)] = [.stop e] :=
      rfl
    rw [hstop]
    exact follows_stop compiler hc hk
  | ok a =>
    have hask := follows compiler hc hh hk hd
    rw [he, ha] at hask
    exact hask.mono fun _ _ _ h => ⟨h, rfl⟩

/-- The setting that an operation asks for, if it asks for one. -/
def setting? : Operation → Option (Except BindError Setting)
  | setLibPath path => some (.libPath <$> boundaryPath path)
  | setOptions options => some (.options <$> boundaryText "compiler options" options)
  | addIncludePath path => some (.includePath <$> boundaryPath path)
  | addSysIncludePath path => some (.sysIncludePath <$> boundaryPath path)
  | addLibraryPath path => some (.libraryPath <$> boundaryPath path)
  | defineSymbol name value? => some do
    let name ← boundaryText "macro name" name
    pure (.define name (← value?.mapM (boundaryText "macro value")))
  | undefineSymbol name => some (.undefine <$> boundaryText "macro name" name)
  | _ => none

variable {setting : Except BindError Setting}

theorem check_setting (h : operation.setting? = some setting) (ho : c.stage.isOpen) :
    operation.check c = setting.map .configure := by
  have hopen : ∀ name, c.ensureOpen name = .ok () :=
    fun _ => (Context.guards_ensureOpen (b := true)).1 ho
  have hcheck : ∀ name, c.checkSetting name setting = setting.map .configure := by
    intro name
    rw [Context.checkSetting, hopen]
    cases setting <;> rfl
  cases operation with
  | setLibPath | setOptions | addIncludePath | addSysIncludePath | addLibraryPath | defineSymbol
  | undefineSymbol =>
    cases h
    exact hcheck _
  | _ => exact nomatch h

theorem kind_of_setting? (h : operation.setting? = some setting) : operation.kind = .setting := by
  cases operation with
  | setLibPath | setOptions | addIncludePath | addSysIncludePath | addLibraryPath | defineSymbol
  | undefineSymbol => rfl
  | _ => exact nomatch h

theorem follows_setting (hc : c.handle? = some handle) (hh : c.hook? = none)
    (ho : c.stage.isOpen) (h : operation.setting? = some setting) :
    Follows compiler id handle (operation.perform compiler) c
      [.ofExcept (setting.map .configure)] fun _ _ c' => c' = c.configured := by
  have hk := check_setting h ho
  cases setting with
  | error e => exact follows_stop compiler hc hk
  | ok s => exact follows compiler hc hh hk (by simp [kind_of_setting? h])

/-- Settings in a row. -/
theorem follows_settings (operations : List Operation) {settings : List (Except BindError Setting)}
    (h : operations.map setting? = settings.map some) (hc : c.handle? = some handle)
    (hh : c.hook? = none) (ho : c.stage.isOpen) :
    Follows compiler id handle (performAll compiler operations) c
      (settings.map fun setting => .ofExcept (setting.map .configure))
      fun _ _ c' => c' = if operations = [] then c else c.configured := by
  induction operations generalizing c settings with
  | nil =>
    cases List.map_eq_nil_iff.1 h.symm
    exact Follows.pure hc (if_pos rfl).symm
  | cons operation rest ih =>
    cases settings with
    | nil => exact nomatch h
    | cons setting settings =>
      obtain ⟨hfirst, hrest⟩ := List.cons.inj h
      have hstep : Follows compiler id handle (operation.perform compiler) c _ _ :=
        follows_setting compiler hc hh ho hfirst
      cases rest with
      | nil =>
        cases List.map_eq_nil_iff.1 hrest.symm
        exact hstep.mono fun _ _ _ h => h
      | cons next rest =>
        apply Follows.bind hstep
        intro ds value c' hconfigured hc'
        subst hconfigured
        have hlast := ih hrest hc' (by simpa using hh) (by simpa using ho)
        exact hlast.mono fun _ _ _ h => by simpa using h

end Operation

end EmbeddedC
