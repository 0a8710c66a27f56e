import EmbeddedC.Proofs.ActionLogic
/-!
# What a task does

Every way a task can go on a live context: the deeds done, the result and the context left behind.
All that is chosen elsewhere is how the other side answers. The main statement is that performing a
task goes one of these ways; what holds of them holds of the program.
-/

namespace EmbeddedC

inductive Context.FixesType (c : Context) : List Deed → Context → Prop
  | known (hc : c.typeFixed) : c.FixesType [] c
  | sent (answer : Answer) (hc : c.typeFixed = false) (ha : 0 ≤ answer.status) :
    c.FixesType [.called (.setOutputType c.outputType.code) answer] { c with typeFixed := true }

theorem Context.FixesType.handle? {c c' : Context} {ds : List Deed} (hf : c.FixesType ds c') :
    c'.handle? = c.handle? := by
  cases hf <;> rfl

theorem Context.FixesType.isOpen {c c' : Context} {ds : List Deed} (hf : c.FixesType ds c')
    (ho : c.stage.isOpen) : c'.stage.isOpen := by
  cases hf <;> exact ho

theorem Context.FixesType.typeFixed {c c' : Context} {ds : List Deed} (hf : c.FixesType ds c') :
    c'.typeFixed := by
  cases hf with
  | known hc => exact hc
  | sent => rfl

theorem Context.FixesType.outputType {c c' : Context} {ds : List Deed} (hf : c.FixesType ds c') :
    c'.outputType = c.outputType := by
  cases hf <;> rfl

def Context.hookDeeds (c : Context) : List Deed :=
  (c.hook?.map fun hook => .hookRan hook.tag).toList

namespace Task

/-- The tasks that first make the output type known. -/
def needsType : Task → Bool
  | addLibrary _ | compile _ => true
  | _ => false

inductive Does (c : Context) : Task → List Deed → Except BindError Value → Context → Prop
  | sinkInstalled (sink? : Option Sink) : Does c (installSink sink?) [] (.ok .none) c.configured
  | hookInstalled (hook : Hook) :
    Does c (installHook hook) [] (.ok .none) { c with hook? := some hook }.configured
  | configured {setting : Setting} (answer : Answer)
    (ha : setting.reportsStatus → 0 ≤ answer.status) :
    Does c (configure setting) [.called (.configure setting) answer] (.ok .none) c.configured
  | configureRefused {setting : Setting} (answer : Answer) (hs : setting.reportsStatus)
    (ha : answer.status < 0) :
    Does c (configure setting) [.called (.configure setting) answer]
      (.error (.rejected setting.entry.name setting.argument.text answer.status)) c
  | typeRefused {task : Task} (answer : Answer) (ht : task.needsType) (hc : c.typeFixed = false)
    (ha : answer.status < 0) :
    Does c task [.called (.setOutputType c.outputType.code) answer]
      (.error (.rejected Entry.setOutputType.name c.outputType.text answer.status)) c
  | libraryAdded {name : CText} {ds : List Deed} {c' : Context} (hf : c.FixesType ds c')
    (answer : Answer) (ha : 0 ≤ answer.status) :
    Does c (addLibrary name) (ds ++ [.called (.addLibrary name) answer]) (.ok .none) c'.configured
  | libraryRefused {name : CText} {ds : List Deed} {c' : Context} (hf : c.FixesType ds c')
    (answer : Answer) (ha : answer.status < 0) :
    Does c (addLibrary name) (ds ++ [.called (.addLibrary name) answer])
      (.error (.rejected Entry.addLibrary.name name.text answer.status)) c'
  | typeChosen (type : OutputType) :
    Does c (chooseType type) [] (.ok .none) { c with outputType := type }.configured
  | typeKept : Does c keepType [] (.ok .none) c
  | compiled {unit : SourceUnit} {ds : List Deed} {c' : Context} (hf : c.FixesType ds c')
    (answer : Answer) (ha : 0 ≤ answer.status) :
    Does c (compile unit) (ds ++ (c'.hookDeeds ++ [.called (.compile unit) answer])) (.ok .none)
      { c' with relocationFailed := false, stage := .compiled }
  | compileFailed {unit : SourceUnit} {ds : List Deed} {c' : Context} (hf : c.FixesType ds c')
    (answer : Answer) (ha : answer.status < 0) :
    Does c (compile unit) (ds ++ (c'.hookDeeds ++ [.called (.compile unit) answer]))
      (.error (.compile unit.name answer.status)) c'
  | injected {name : CText} {symbol : InjectedSymbol} (answer : Answer) (ha : 0 ≤ answer.status) :
    Does c (inject name symbol) [.called (.addSymbol name symbol.address) answer] (.ok .none)
      { c with symbols := (c.symbols.record symbol).2 }
  | injectionRefused {name : CText} {symbol : InjectedSymbol} (answer : Answer)
    (ha : answer.status < 0) :
    Does c (inject name symbol) [.called (.addSymbol name symbol.address) answer]
      (.error (.injection (.rejected symbol.name answer.status))) c
  | sized (answer : Answer) (ha : 0 ≤ answer.status) :
    Does c (relocate .size) [.called (.relocate .size) answer]
      (.ok (.size answer.status.toInt.toNat)) { c with relocateAttempted := true }
  | relocated {target : Target} (ht : target ≠ .size) (answer : Answer) (ha : 0 ≤ answer.status) :
    Does c (relocate target) [.called (.relocate target) answer] (.ok .none)
      { c with relocateAttempted := true, stage := .relocated }
  | relocationFailed {target : Target} (answer : Answer) (ha : answer.status < 0) :
    Does c (relocate target) [.called (.relocate target) answer]
      (.error (.relocation answer.status))
      { c with relocateAttempted := true, relocationFailed := true }
  | lookedUp {name : CText} (answer : Answer) :
    Does c (lookUp name) [.called (.getSymbol name) answer]
      (.ok (.address answer.address.nonNull?)) { c with stage := .finalized .resolved }
  | ran {arguments : List CText} (answer : Answer) {main : Address}
    (hm : answer.address.nonNull? = some main) (status : Int32) :
    Does c (run arguments)
      [.called (.getSymbol ContextAction.mainName) answer, .entered main (.program arguments)]
      (.ok (.status status)) { c with stage := .finalized .ran }
  | noMain {arguments : List CText} (answer : Answer) (hm : answer.address.nonNull? = none) :
    Does c (run arguments) [.called (.getSymbol ContextAction.mainName) answer]
      (.error (.missingEntryPoint ContextAction.mainName.text)) c
  | emitted {path : CText} (answer : Answer) (ha : 0 ≤ answer.status) :
    Does c (outputFile path) [.called (.outputFile path) answer] (.ok .none)
      { c with stage := .finalized .emitted }
  | emissionFailed {path : CText} (answer : Answer) (ha : answer.status < 0) :
    Does c (outputFile path) [.called (.outputFile path) answer]
      (.error (.emit ⟨path.bytes⟩ answer.status)) c
  | disposed (answer : Answer) :
    Does c dispose [.called .delete answer] (.ok .none)
      { c with handle? := none, symbols := .empty, hook? := none, stage := .disposed }

end Task

namespace ContextAction.Yields

variable {σ : Type} {compiler : Compiler σ} {handle : Handle} {c : Context}
variable {post : List Deed → Except BindError Unit → Context → Prop}

theorem fixType (hc : c.handle? = some handle)
    (hok : ∀ ds c', c.FixesType ds c' → post ds (.ok ()) c')
    (herr : ∀ answer : Answer, c.typeFixed = false → answer.status < 0 →
      post [.called (.setOutputType c.outputType.code) answer]
        (.error (.rejected Entry.setOutputType.name c.outputType.text answer.status)) c) :
    Yields handle (ContextAction.fixType compiler) c post := by
  apply context_bind
  cases ht : c.typeFixed with
  | true => exact pure (hok _ _ (.known ht))
  | false =>
    refine bind (call compiler hc fun answer => bind (checkStatus (fun ha => ?_) (herr answer ht)))
    exact bind (modify (log (hok _ _ (.sent answer ht ha))))

theorem runHook (hc : c.handle? = some handle) (h : post c.hookDeeds (.ok ()) c) :
    Yields (σ := σ) handle ContextAction.runHook c post := by
  apply context_bind
  cases hh : c.hook? with
  | none => exact pure (by simpa [Context.hookDeeds, hh] using h)
  | some hook => exact hookRan hc (by simpa [Context.hookDeeds, hh] using h)

theorem configure (hc : c.handle? = some handle) (setting : Setting)
    (hok : ∀ answer : Answer, (setting.reportsStatus → 0 ≤ answer.status) →
      post [.called (.configure setting) answer] (.ok ()) c.configured)
    (herr : ∀ answer : Answer, setting.reportsStatus → answer.status < 0 →
      post [.called (.configure setting) answer]
        (.error (.rejected setting.entry.name setting.argument.text answer.status)) c) :
    Yields handle (ContextAction.configure compiler setting) c post := by
  refine bind (call compiler hc fun answer => ?_)
  cases hs : setting.reportsStatus with
  | true =>
    refine bind (checkStatus (fun ha => markConfigured ?_) (herr answer hs))
    exact hok answer fun _ => ha
  | false => exact bind (pure (markConfigured (hok answer (by simp [hs]))))

theorem release (hc : c.handle? = some handle)
    (h : ∀ answer, post [.called .delete answer] (.ok ())
      { c with handle? := none, symbols := .empty, hook? := none }) :
    Yields handle (ContextAction.release compiler) c post := by
  apply context_bind
  rw [hc]
  exact bind (call compiler hc fun answer => bind (modify (log (h answer))))

theorem release_released (hc : c.handle? = none) (h : post [] (.ok ()) c) :
    Yields handle (ContextAction.release compiler) c post := by
  apply context_bind
  rw [hc]
  exact pure h

theorem silent {x : ContextAction σ Unit}
    {post : List Deed → Except BindError Value → Context → Prop}
    (hx : Yields handle x c fun ds r c' => post ds (r.map fun _ => .none) c') :
    Yields handle (ContextAction.silent x) c post := by
  refine bind (hx.mono fun ds r c' h => ?_)
  cases r with
  | error e => exact h
  | ok u => exact pure (by rwa [List.append_nil])

end ContextAction.Yields

namespace Task

open ContextAction

variable {σ : Type} {compiler : Compiler σ} {handle : Handle} {c : Context}

private theorem yields_addLibrary (hc : c.handle? = some handle) (name : CText) :
    Yields handle ((addLibrary name).perform compiler) c (Does c (addLibrary name)) := by
  refine Yields.silent (Yields.bind (Yields.fixType hc (fun ds c' hf => ?_) fun answer ht ha => ?_))
  · refine Yields.bind (Yields.call compiler (hf.handle?.trans hc) fun answer => ?_)
    refine Yields.bind (Yields.checkStatus (fun ha => Yields.markConfigured ?_) fun ha => ?_)
    · exact .libraryAdded hf answer ha
    · exact .libraryRefused hf answer ha
  · exact .typeRefused answer rfl ht ha

private theorem yields_compile (hc : c.handle? = some handle) (unit : SourceUnit) :
    Yields handle ((compile unit).perform compiler) c (Does c (compile unit)) := by
  refine Yields.silent (Yields.bind (Yields.fixType hc (fun ds c' hf => ?_) fun answer ht ha => ?_))
  · have hc' := hf.handle?.trans hc
    refine Yields.bind (Yields.runHook hc' (Yields.bind (Yields.call compiler hc' fun answer => ?_)))
    apply Yields.ite <;> intro ha
    · exact Yields.bind (Yields.log (Yields.fail (.compileFailed hf answer ha)))
    · refine Yields.bind (Yields.log (Yields.bind (Yields.modify (Yields.advance ?_))))
      exact .compiled hf answer (Int32.not_lt.1 ha)
  · exact .typeRefused answer rfl ht ha

private theorem yields_inject (hc : c.handle? = some handle) (name : CText)
    (symbol : InjectedSymbol) :
    Yields handle ((inject name symbol).perform compiler) c (Does c (inject name symbol)) := by
  refine Yields.silent (Yields.bind (Yields.call compiler hc fun answer => ?_))
  apply Yields.ite <;> intro ha
  · exact Yields.fail (.injectionRefused answer ha)
  · refine Yields.context_bind (Yields.bind (Yields.modify (Yields.log ?_)))
    exact .injected answer (Int32.not_lt.1 ha)

private theorem yields_relocate (hc : c.handle? = some handle) (target : Target) :
    Yields handle ((relocate target).perform compiler) c (Does c (relocate target)) := by
  refine Yields.bind (Yields.modify (Yields.bind (Yields.call compiler hc fun answer => ?_)))
  apply Yields.ite <;> intro ha
  · refine Yields.bind (Yields.modify (Yields.bind (Yields.log (Yields.fail ?_))))
    exact .relocationFailed answer ha
  · have ha := Int32.not_lt.1 ha
    cases target with
    | size => exact Yields.pure (.sized answer ha)
    | auto =>
      refine Yields.context_bind (Yields.bind (Yields.log (Yields.bind (Yields.advance ?_))))
      exact Yields.pure (.relocated (by decide) answer ha)
    | memory =>
      refine Yields.bind (Yields.log (Yields.bind (Yields.advance ?_)))
      exact Yields.pure (.relocated (by simp) answer ha)

private theorem yields_run (hc : c.handle? = some handle) (arguments : List CText) :
    Yields handle ((run arguments).perform compiler) c (Does c (run arguments)) := by
  refine Yields.bind (Yields.log (Yields.bind (Yields.call compiler hc fun answer => ?_)))
  dsimp only
  cases hm : answer.address.nonNull? with
  | none => exact Yields.bind (Yields.log (Yields.fail (.noMain answer hm)))
  | some main =>
    refine Yields.bind (Yields.enter compiler hc fun outside => ?_)
    refine Yields.bind (Yields.log (Yields.bind (Yields.advance (Yields.pure ?_))))
    exact .ran answer hm _

private theorem yields_outputFile (hc : c.handle? = some handle) (path : CText) :
    Yields handle ((outputFile path).perform compiler) c (Does c (outputFile path)) := by
  refine Yields.silent (Yields.bind (Yields.call compiler hc fun answer => ?_))
  apply Yields.ite <;> intro ha
  · exact Yields.bind (Yields.log (Yields.fail (.emissionFailed answer ha)))
  · refine Yields.context_bind (Yields.bind (Yields.log (Yields.advance ?_)))
    exact .emitted answer (Int32.not_lt.1 ha)

private theorem yields_dispose (hc : c.handle? = some handle) :
    Yields handle (dispose.perform compiler) c (Does c dispose) := by
  refine Yields.silent (Yields.bind (Yields.release hc fun answer => Yields.advance ?_))
  exact .disposed answer

/-- A task on a context that holds a state goes one of the ways that `Does` lists. -/
theorem yields_perform (compiler : Compiler σ) (hc : c.handle? = some handle) (task : Task) :
    Yields handle (task.perform compiler) c (Does c task) := by
  cases task with
  | installSink sink? =>
    exact Yields.silent (Yields.bind (Yields.setSink (Yields.markConfigured (.sinkInstalled sink?))))
  | installHook hook =>
    exact Yields.silent (Yields.bind (Yields.modify (Yields.markConfigured (.hookInstalled hook))))
  | configure setting =>
    exact Yields.silent (Yields.configure hc setting .configured fun a hs => .configureRefused a hs)
  | addLibrary name => exact yields_addLibrary hc name
  | chooseType type =>
    exact Yields.silent (Yields.bind (Yields.modify (Yields.markConfigured (.typeChosen type))))
  | keepType => exact Yields.pure .typeKept
  | compile unit => exact yields_compile hc unit
  | inject name symbol => exact yields_inject hc name symbol
  | relocate target => exact yields_relocate hc target
  | lookUp name =>
    refine Yields.bind (Yields.call compiler hc fun answer => ?_)
    exact Yields.bind (Yields.advance (Yields.pure (.lookedUp answer)))
  | run arguments => exact yields_run hc arguments
  | outputFile path => exact yields_outputFile hc path
  | dispose => exact yields_dispose hc

end Task

end EmbeddedC
