import EmbeddedC.CommandLine.Command
import EmbeddedC.Proofs.Opening
import EmbeddedC.Proofs.JobErrands
/-!
# Scripts of commands

What each command does with its context, written down as errands: the settings that the flags ask
for, then the libraries and the unit with the output type before the first of them, then what the
command is for. Each command follows its script.
-/

namespace EmbeddedC.CommandLine

open EmbeddedC.Action

/-- A request that has to be put into words first. -/
def asking (request : Except BindError Request) : Errand CommandError :=
  .ofExcept (request.mapError .bind)

/-- A macro as the command line gives it. -/
def defining (raw : String) : Errand CommandError :=
  match Define.parse raw with
  | .error e => .stop e
  | .ok d => asking do
    let name ← boundaryText "macro name" d.name
    let value? ← d.value?.mapM (boundaryText "macro value")
    pure (.configure (.define name value?))

/-- The settings that the flags ask for. -/
def Flags.settings (f : Flags) : List (Errand CommandError) :=
  f.includeDirs.map
      (fun dir => asking ((boundaryPath dir).map fun t => .configure (.includePath t))) ++
    f.libraryDirs.map
      (fun dir => asking ((boundaryPath dir).map fun t => .configure (.libraryPath t))) ++
    f.defines.map defining ++
    f.options?.toList.map fun options =>
      asking ((boundaryText "compiler options" options).map fun t => .configure (.options t))

/-- Errands that are reported in the words of the command line. -/
def reported (errands : List (Errand BindError)) : List (Errand CommandError) :=
  errands.map (.map CommandError.bind)

/-- The libraries that the flags name. -/
def Flags.linking (f : Flags) : List (Errand CommandError) :=
  reported (f.libraries.map .linking)

def runScript (f : Flags) (file : Path) (arguments : List String) : List (Errand CommandError) :=
  f.settings ++ Errand.telling false .memory
    (f.linking ++ reported (Job.runFile file (file.display :: arguments)).errands)

def buildScript (f : Flags) (file output : Path) (type : OutputType) : List (Errand CommandError) :=
  f.settings ++ Errand.telling false type
    (f.linking ++ reported (Job.compileFileTo file type output).errands)

/-- The name of the function that the demo calls. -/
def demoName : CText := .upToNul (Text.Utf8.encode "foo")

/-- A host function that the demo's program calls by its name. -/
def injecting (name : String) : Errand BindError :=
  .ofExcept ((boundaryText "symbol name" name).map fun t => .addSymbol t (.host name))

def demoScript (f : Flags) : List (Errand CommandError) :=
  f.settings ++ Errand.telling false .memory
    (reported [.compilingText demoSource, injecting "add", injecting "hello",
        .ask (.relocate .auto)] ++
      [.enter demoName (.numbers [demoNumber]) (.missingSymbol "foo")])

/-- The script of a command, if its result has a name. -/
def Invocation.script (i : Invocation) : Except CommandError (List (Errand CommandError)) :=
  match i.command with
  | .run file arguments => .ok (runScript i.flags file arguments)
  | .build file output? kind => do
    let output ← output?.elim (defaultOutput file kind) .ok
    pure (buildScript i.flags file output kind.outputType)
  | .demo => .ok (demoScript i.flags)

theorem Invocation.script_cases {i : Invocation} {script : List (Errand CommandError)}
    (h : i.script = .ok script) :
    (∃ file arguments, i.command = .run file arguments ∧
        script = runScript i.flags file arguments) ∨
      (∃ file output? kind output, i.command = .build file output? kind ∧
        output?.elim (defaultOutput file kind) .ok = .ok output ∧
          script = buildScript i.flags file output kind.outputType) ∨
      i.command = .demo ∧ script = demoScript i.flags := by
  cases hc : i.command with
  | run file arguments =>
    simp only [Invocation.script, hc] at h
    cases h
    exact .inl ⟨file, arguments, rfl, rfl⟩
  | build file output? kind =>
    simp only [Invocation.script, hc] at h
    cases ho : output?.elim (defaultOutput file kind) .ok with
    | error e =>
      rw [ho] at h
      cases h
    | ok output =>
      rw [ho] at h
      cases h
      exact .inr (.inl ⟨file, output?, kind, output, rfl, ho, rfl⟩)
  | demo =>
    simp only [Invocation.script, hc] at h
    cases h
    exact .inr (.inr ⟨rfl, rfl⟩)

section Settings

variable {σ : Type} (compiler : Compiler σ) {handle : Handle} {c : Context}

/-- What an operation that the flags ask for comes to. -/
def asked? : Except CommandError Operation → Option (Errand CommandError)
  | .error e => some (.stop e)
  | .ok o => o.setting?.map fun setting => asking (setting.map .configure)

theorem CommandAction.follows_operation {o : Operation} {errands : List (Errand BindError)}
    {post : List Deed → Value → Context → Prop}
    (h : Follows compiler id handle (o.perform compiler) c errands post) :
    Follows compiler CommandError.bind handle (CommandAction.operation compiler o) c
      (errands.map (.map CommandError.bind)) post :=
  h.mapError CommandError.bind

/-- Settings on a configured context leave it as it is. -/
theorem CommandAction.follows_settings {os : List (Except CommandError Operation)}
    {errands : List (Errand CommandError)} (h : os.map asked? = errands.map some)
    (hc : c.handle? = some handle) (hh : c.hook? = none) (hs : c.stage = .configured) :
    Follows compiler CommandError.bind handle (CommandAction.operations compiler os) c errands
      fun _ _ c' => c' = c := by
  induction os generalizing errands with
  | nil =>
    cases List.map_eq_nil_iff.1 h.symm
    exact Follows.pure hc rfl
  | cons o rest ih =>
    cases errands with
    | nil => cases h
    | cons errand errands =>
      obtain ⟨hfirst, hrest⟩ := List.cons.inj h
      cases o with
      | error e =>
        cases hfirst
        have hstop : Follows compiler CommandError.bind handle (Action.ofExcept (.error e)) c
            [.stop e] fun _ (_ : Operation) _ => False := Follows.stop hc e
        exact Follows.bind hstop fun _ _ _ h => h.elim
      | ok o =>
        obtain ⟨setting, hsetting, rfl⟩ := Option.map_eq_some_iff.1 hfirst
        have hopen : c.stage.isOpen := by rw [hs]; rfl
        have hstep := follows_operation compiler
          (Operation.follows_setting compiler hc hh hopen hsetting)
        rw [List.map_singleton, Errand.ofExcept_map] at hstep
        refine Follows.ofExcept_bind (Follows.bind hstep fun ds _ c' hc' _ => ?_)
        subst hc'
        rw [Context.configured_of_ne (by rw [hs]; decide)]
        exact ih hrest

end Settings

section Commands

variable {σ : Type} (compiler : Compiler σ) (table : EntryTable) (handle : Handle)
  (type : OutputType) (told : Bool)

theorem reported_telling (told : Bool) (type : OutputType) (errands : List (Errand BindError)) :
    reported (Errand.telling told type errands) = Errand.telling told type (reported errands) :=
  Errand.telling_map _ told type errands

theorem CommandAction.follows_link (f : Flags) :
    Follows compiler CommandError.bind handle (CommandAction.link compiler f)
      (.primed table handle type told) (Errand.telling told type f.linking)
      fun _ _ c' => c' = .primed table handle type (told || f.linking.any Errand.asks) := by
  unfold CommandAction.link Flags.linking
  induction f.libraries generalizing told with
  | nil => exact Follows.pure rfl (by simp [reported])
  | cons name rest ih =>
    have hfirst := follows_operation compiler
      (Operation.follows_addLibrary compiler table handle type told name)
    rw [List.map_cons, List.map_cons, reported, List.map_cons, Errand.telling_cons]
    rw [Errand.telling_map] at hfirst
    refine Follows.ofExcept_bind (Follows.bind hfirst fun ds _ c' hc' _ => ?_)
    obtain ⟨rfl, hasks⟩ := hc'
    simp only [Errand.asks_map, hasks, Bool.or_true, List.any_cons, Bool.true_or]
    exact ih true

/-- The operations of the flags make the settings of the flags. -/
theorem Flags.operations_settings (f : Flags) : f.operations.map asked? = f.settings.map some := by
  have hinclude : ∀ dir, asked? (.ok (.addIncludePath dir)) =
      some (asking ((boundaryPath dir).map fun t => .configure (.includePath t))) := by
    intro dir
    simp only [asked?, Operation.setting?, Option.map_some]
    cases boundaryPath dir <;> rfl
  have hlibrary : ∀ dir, asked? (.ok (.addLibraryPath dir)) =
      some (asking ((boundaryPath dir).map fun t => .configure (.libraryPath t))) := by
    intro dir
    simp only [asked?, Operation.setting?, Option.map_some]
    cases boundaryPath dir <;> rfl
  have hdefine : ∀ raw, asked? ((Define.parse raw).map fun d => .defineSymbol d.name d.value?) =
      some (defining raw) := by
    intro raw
    unfold defining
    cases Define.parse raw with
    | error e => rfl
    | ok d =>
      simp only [Except.map, asked?, Operation.setting?, Option.map_some]
      cases boundaryText "macro name" d.name with
      | error e => rfl
      | ok name => cases d.value?.mapM (boundaryText "macro value") <;> rfl
  have hoptions : ∀ options, asked? (.ok (.setOptions options)) =
      some (asking ((boundaryText "compiler options" options).map
        fun t => .configure (.options t))) := by
    intro options
    simp only [asked?, Operation.setting?, Option.map_some]
    cases boundaryText "compiler options" options <;> rfl
  simp only [Flags.operations, Flags.settings, List.map_append]
  rw [map_map_some _ _ _ hinclude, map_map_some _ _ _ hlibrary, map_map_some _ _ _ hdefine,
    map_map_some _ _ _ hoptions]

/-- The flags are applied to a new context, with settings of its config or without. -/
theorem CommandAction.follows_applyFlags (f : Flags) {c : Context}
    (hc : c = .fresh table handle ∨ c = .primed table handle .memory false) :
    Follows compiler CommandError.bind handle (CommandAction.applyFlags compiler f) c f.settings
      fun _ _ c' => c' = .primed table handle .memory false := by
  have hsink : Follows compiler id handle
      ((Operation.setErrorSink messageSink).perform compiler) c []
      fun _ _ c' => c' = .primed table handle .memory false := by
    rcases hc with rfl | rfl
    · have hcheck : (Operation.setErrorSink messageSink).check (.fresh table handle) =
          .ok (.installSink (some messageSink)) := rfl
      exact Operation.follows compiler rfl rfl hcheck (by simp [Operation.kind])
    · have hcheck : (Operation.setErrorSink messageSink).check
          (.primed table handle .memory false) = .ok (.installSink (some messageSink)) := rfl
      exact Operation.follows compiler rfl rfl hcheck (by simp [Operation.kind])
  apply Follows.ofExcept_bind
  refine Follows.bind_idle (follows_operation compiler hsink) fun _ _ c' hc' _ => ?_
  subst hc'
  exact follows_settings compiler f.operations_settings rfl rfl rfl

variable {compiler table handle type} in
/-- What all commands begin with: the flags, and the type of what they make. -/
theorem CommandAction.follows_typed {α : Type} (f : Flags) {c : Context}
    (hc : c = .fresh table handle ∨ c = .primed table handle .memory false)
    {x : CommandAction σ α} {errands : List (Errand CommandError)}
    {post : List Deed → α → Context → Prop}
    (hx : ∀ past, Follows compiler CommandError.bind handle x (.primed table handle type false)
      errands fun ds a c' => post (past ++ ds) a c') :
    Follows compiler CommandError.bind handle
      (CommandAction.applyFlags compiler f >>= fun _ =>
        CommandAction.operation compiler (.setOutputType type) >>= fun _ => x)
      c (f.settings ++ errands) post := by
  have htype : Follows compiler id handle ((Operation.setOutputType type).perform compiler)
      (.primed table handle .memory false) []
      fun _ _ c' => c' = .primed table handle type false := by
    have hcheck : (Operation.setOutputType type).check (.primed table handle .memory false) =
        .ok (.chooseType type) := rfl
    exact Operation.follows compiler rfl rfl hcheck (by simp [Operation.kind])
  refine Follows.bind (follows_applyFlags compiler table handle f hc) fun ds _ c' hc' _ => ?_
  subst hc'
  refine Follows.bind_idle (follows_operation compiler htype) fun ds' _ c' hc' _ => ?_
  subst hc'
  simpa using hx (ds ++ ds')

variable {compiler table handle type} in
/-- The libraries that the flags name, with the type told before the first of them. -/
theorem CommandAction.follows_linked {α : Type} (f : Flags) {x : CommandAction σ α}
    {errands : List (Errand CommandError)} {post : List Deed → α → Context → Prop}
    (hx : ∀ told past, Follows compiler CommandError.bind handle x (.primed table handle type told)
      (Errand.telling told type errands) fun ds a c' => post (past ++ ds) a c') :
    Follows compiler CommandError.bind handle (CommandAction.link compiler f >>= fun _ => x)
      (.primed table handle type false) (Errand.telling false type (f.linking ++ errands))
      post := by
  rw [Errand.telling_append]
  refine Follows.bind (follows_link compiler table handle type false f) fun ds _ c' hc' _ => ?_
  subst hc'
  exact hx _ ds

theorem CommandAction.follows_job (job : Job) (hf : job.hasForm) :
    Follows compiler CommandError.bind handle (CommandAction.job compiler job)
      (.primed table handle job.outputType told)
      (Errand.telling told job.outputType (reported job.errands))
      fun ds value _ => ∀ path arguments, job = .runFile path arguments →
        Returned compiler arguments ds value := by
  rw [← reported_telling]
  exact (job.follows compiler table handle told hf).mapError CommandError.bind

theorem CommandAction.follows_run (f : Flags) (file : Path) (arguments : List String) {c : Context}
    (hc : c = .fresh table handle ∨ c = .primed table handle .memory false) :
    Follows compiler CommandError.bind handle (CommandAction.run compiler f file arguments) c
      (runScript f file arguments)
      fun ds status _ => Returned compiler (file.display :: arguments) ds (.status status) := by
  apply follows_typed f hc
  intro past
  apply follows_linked f
  intro told past'
  apply Follows.bind_last
    (follows_job compiler table handle told (.runFile file (file.display :: arguments)) rfl)
  intro ds value c' hvalue hc'
  obtain ⟨argv, main, outside, hargv, hentered, rfl⟩ := hvalue file _ rfl
  have hlog : Follows compiler CommandError.bind handle
      (CommandAction.log (.exited file (compiler.enter main (.program argv) outside).1)) c' []
      fun _ _ d => d = c' := Follows.emit hc' (by simp [Event.isQuiet]) rfl
  apply Follows.bind_idle hlog
  intro ds' _ d hd _
  subst hd
  apply Follows.pure hc'
  exact ⟨argv, main, outside, hargv, by simp [hentered], rfl⟩

theorem CommandAction.follows_build (f : Flags) (file output : Path) (hf : type.isFile)
    {c : Context} (hc : c = .fresh table handle ∨ c = .primed table handle .memory false) :
    Follows compiler CommandError.bind handle (CommandAction.build compiler f file output type) c
      (buildScript f file output type) fun _ _ _ => True := by
  apply follows_typed f hc
  intro past
  apply follows_linked f
  intro told past'
  apply Follows.bind_last
    (follows_job compiler table handle told (.compileFileTo file type output) hf)
  intro ds value c' _ hc'
  exact Follows.emit hc' (by simp [Event.isQuiet]) trivial

/-- What the demo does with the address that it has looked up. -/
def CommandAction.callDemo : Value → CommandAction σ Unit
  | .address (some foo) => do
    let result ← (ContextAction.enter compiler foo (.numbers [demoNumber])).mapError .bind
    print ("foo(" ++ toString demoNumber ++ ") = " ++ toString result)
  | _ => Action.fail (.missingSymbol "foo")

private theorem callDemo_eq {c : Context} (hc : c.handle? = some handle) (foo : Address)
    (w : World σ) :
    ∃ w' events, CommandAction.callDemo compiler (.address (some foo)) ⟨c, w⟩ =
        ⟨.ok (), ⟨c, w'⟩, .entered (some handle) foo (.numbers [demoNumber]) :: events⟩ ∧
      ∀ e ∈ events, e.isQuiet := by
  obtain ⟨status, w', events, henter, hquiet, _⟩ :=
    World.enter_eq compiler (some handle) foo (.numbers [demoNumber]) w
  let line := "foo(" ++ toString demoNumber ++ ") = " ++ toString status
  refine ⟨w', events ++ [.printed line], ?_, ?_⟩
  · simp only [CommandAction.callDemo, CommandAction.print, Bind.bind, Action.bind,
      Action.mapError, ContextAction.enter, Action.step, Action.emit, hc, henter, Action.mapError_ok,
      List.cons_append]
    rfl
  · exact List.forall_mem_append.2 ⟨hquiet, by simp [Event.isQuiet]⟩

/-- The demo's program has a function of that name, which is called; or it has none. -/
theorem CommandAction.follows_callDemo {c : Context} (hc : c.handle? = some handle)
    (hs : c.stage = .relocated) :
    let o := Operation.resolveFunction "extern \"C\" fn(i32) -> i32" (pointerBits / 8) "foo"
    Follows compiler CommandError.bind handle (operation compiler o >>= callDemo compiler) c
      [.enter demoName (.numbers [demoNumber]) (.missingSymbol "foo")] fun _ _ _ => True := by
  -- the look-up and the call are one errand, so the two cannot be bound one after the other
  intro o w
  have hcheck : o.check c = .ok (.lookUp demoName) := by
    simp only [o, Operation.check, Context.checkLookUp, Context.ensureLive, Context.ensure, hs]
    rfl
  have hyields := (Task.lookUp demoName).yields_perform compiler hc w
  rw [← o.perform_of_check compiler (s := ⟨c, w⟩) hcheck] at hyields
  rcases ho : o.perform compiler ⟨c, w⟩ with ⟨r, ⟨c', w'⟩, events⟩
  rw [ho] at hyields
  obtain ⟨hdoes, hkeeps, _⟩ := hyields
  dsimp only at hdoes hkeeps
  generalize hds : deeds handle events = ds at hdoes
  cases hdoes with
  | typeRefused _ hn => exact Bool.noConfusion hn
  | lookedUp answer =>
    simp only [Bind.bind, Action.bind, operation, Action.mapError, ho, Action.mapError_ok]
    cases hm : answer.address.nonNull? with
    | none =>
      refine ⟨?_, fun _ _ => trivial, hc, ?_⟩
      · simp only [callDemo, Action.fail, List.append_nil, hds]
        exact .one (.absent answer hm)
      · simpa only [callDemo, Action.fail, List.append_nil] using hkeeps
    | some foo =>
      obtain ⟨w'', more, hcall, hquiet⟩ := callDemo_eq compiler handle
        (c := { c with stage := .finalized .resolved }) hc foo w'
      rw [hcall]
      refine ⟨?_, fun _ _ => trivial, hc, ?_⟩
      · simp only [deeds_append, deeds_cons, hds, Event.deed?, deeds_of_quiet hquiet, if_pos]
        exact .one (.entered answer hm)
      · have hmore : ∀ e ∈ more, e.Keeps handle := fun e he =>
          Event.keeps_of_isQuiet (hquiet e he) handle
        exact List.forall_mem_append.2 ⟨hkeeps, List.forall_mem_cons.2 ⟨.inr rfl, hmore⟩⟩

/-- A host function is injected into a context that has compiled something. -/
theorem CommandAction.follows_inject {c : Context} (hc : c.handle? = some handle)
    (hh : c.hook? = none) (hs : c.stage = .compiled) {name : String} (hn : isSymbolName name) :
    Follows compiler CommandError.bind handle
      (operation compiler (.injectFunction name .cdecl (.host name))) c
      (reported [injecting name]) fun _ _ c' => ∃ symbols, c' = { c with symbols } := by
  have hcheck : (Operation.injectFunction name .cdecl (.host name)).check c =
      (boundaryText "symbol name" name).map fun t => .inject t ⟨name, .function, .host name⟩ := by
    have hinject : c.ensureInjectable name = .ok () := by
      simp [Context.ensureInjectable, Context.ensureLive, Context.ensure, hs, hn, Stage.isDisposed,
        Stage.isSealed]
    have hcall : c.ensureCallable name .cdecl = .ok () := by
      simp [Context.ensureCallable, Convention.interchangeable, Convention.agreeOnHost]
    rw [Operation.check, hinject, hcall]
    simp only [Operation.injection]
    cases boundaryText "symbol name" name <;> rfl
  apply follows_operation
  unfold injecting
  cases ht : boundaryText "symbol name" name with
  | error e =>
    rw [ht] at hcheck
    exact Operation.follows_stop compiler hc hcheck
  | ok t =>
    rw [ht] at hcheck
    have hinject := Operation.follows compiler hc hh hcheck (by simp [Operation.kind])
    exact hinject.mono fun _ _ _ h => ⟨_, h⟩

theorem CommandAction.follows_demo (f : Flags) {c : Context}
    (hc : c = .fresh table handle ∨ c = .primed table handle .memory false) :
    Follows compiler CommandError.bind handle (CommandAction.demo compiler f) c (demoScript f)
      fun _ _ _ => True := by
  apply follows_typed f hc
  intro past
  have hunit := follows_operation compiler
    (Operation.follows_compileString compiler table handle .memory false demoSource)
  rw [Errand.telling_map] at hunit
  simp only [reported, List.map_cons, List.map_nil, List.cons_append, List.nil_append]
  rw [Errand.telling_cons]
  refine Follows.bind hunit fun _ _ c' hc' _ => ?_
  obtain ⟨rfl, hasks⟩ := hc'
  rw [Errand.asks_map, hasks, Bool.or_true, Errand.telling_told]
  have hadd := follows_inject compiler handle (c := .built table handle .memory) rfl rfl rfl
    (by decide : isSymbolName "add")
  refine Follows.bind hadd fun _ _ c' hc' _ => ?_
  obtain ⟨symbols, rfl⟩ := hc'
  have hhello := follows_inject compiler handle
    (c := { Context.built table handle .memory with symbols }) rfl rfl rfl
    (by decide : isSymbolName "hello")
  refine Follows.bind hhello fun _ _ c' hc' _ => ?_
  obtain ⟨symbols', rfl⟩ := hc'
  have hcheck : Operation.relocate.check
      { Context.built table handle .memory with symbols := symbols' } = .ok (.relocate .auto) := rfl
  have hrelocate := follows_operation compiler
    (Operation.follows compiler rfl rfl hcheck (by simp [Operation.kind]))
  refine Follows.bind hrelocate fun _ _ c' hc' _ => ?_
  subst hc'
  exact follows_callDemo compiler handle rfl rfl

end Commands

end EmbeddedC.CommandLine
