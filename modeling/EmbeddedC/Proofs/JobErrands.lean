import EmbeddedC.Proofs.TaskErrands
import EmbeddedC.Proofs.TypeAgreement
/-!
# One-shot jobs as errands

A job on a context that already has the job's output type: a source file must be there, the unit is
compiled, and what was compiled is written to a file, or is relocated and run. None of its
operations is ever out of order, so what the job comes to is known before it begins.
-/

namespace EmbeddedC

open EmbeddedC.Action

variable {σ : Type}

/-- A new context after its first setting, with an output type of which the compiler may have been
told. -/
def Context.primed (table : EntryTable) (handle : Handle) (type : OutputType) (told : Bool) :
    Context :=
  { Context.fresh table handle with stage := .configured, outputType := type, typeFixed := told }

/-- A context is opened as it was created if there is nothing to set, and configured if there is. -/
theorem Context.fresh_or_primed (table : EntryTable) (handle : Handle) (p : Prop) [Decidable p] :
    let c := { Context.fresh table handle with stage := if p then .created else .configured }
    c = .fresh table handle ∨ c = .primed table handle .memory false := by
  by_cases h : p
  · exact .inl (by rw [if_pos h]; rfl)
  · exact .inr (by rw [if_neg h]; rfl)

/-- The same context after its first unit. -/
def Context.built (table : EntryTable) (handle : Handle) (type : OutputType) : Context :=
  { Context.fresh table handle with stage := .compiled, outputType := type, typeFixed := true }

/-- The same context, relocated. -/
def Context.loaded (table : EntryTable) (handle : Handle) : Context :=
  { Context.built table handle .memory with stage := .relocated, relocateAttempted := true }

def Errand.linking (name : String) : Errand BindError :=
  .ofExcept ((boundaryText "library name" name).map .addLibrary)

/-- A program is entered with its arguments. -/
def Errand.running (arguments : List String) : Errand BindError :=
  match boundaryArguments arguments with
  | .ok arguments => .enter ContextAction.mainName (.program arguments)
    (.missingEntryPoint ContextAction.mainName.text)
  | .error e => .stop e

def Errand.compilingFile (path : Path) : Errand BindError :=
  .ofExcept ((boundaryPath path).map fun t => .compile (.file t))

def Errand.compilingText (source : String) : Errand BindError :=
  .ofExcept ((boundaryText "source text" source).map fun t => .compile (.text t))

def Errand.writing (destination : Path) : Errand BindError :=
  .ofExcept ((boundaryPath destination).map .outputFile)

namespace Job

/-- Whether the job's kind, if it names one, can be written to a file. -/
def hasForm : Job → Bool
  | compileSourceTo _ kind _ | compileFileTo _ kind _ => kind.isFile
  | runFile _ _ => true

/-- What a job comes to, telling the output type apart. -/
def errands : Job → List (Errand BindError)
  | compileSourceTo source _ destination => [.compilingText source, .writing destination]
  | compileFileTo path _ destination =>
    [.source path, .compilingFile path, .writing destination]
  | runFile path arguments =>
    [.source path, .compilingFile path, .ask (.relocate .auto), .running arguments]

end Job

section Steps

variable (compiler : Compiler σ) (table : EntryTable) (handle : Handle) (type : OutputType)
  (told : Bool)

open Context

/-- Choosing the type that a context has comes to nothing, whether the compiler knows it or not. -/
theorem Operation.follows_sameType :
    Follows compiler id handle ((setOutputType type).perform compiler)
      (primed table handle type told) [] fun _ _ c' => c' = primed table handle type told := by
  cases told with
  | false =>
    have hcheck : (setOutputType type).check (primed table handle type false) =
        .ok (.chooseType type) := rfl
    exact follows compiler rfl rfl hcheck (by simp [kind])
  | true =>
    have hcheck : (setOutputType type).check (primed table handle type true) = .ok .keepType := by
      cases type <;> rfl
    exact follows compiler rfl rfl hcheck (by simp [kind])

theorem Operation.follows_addLibrary (name : String) :
    Follows compiler id handle ((addLibrary name).perform compiler)
      (primed table handle type told) (Errand.telling told type [.linking name])
      fun _ _ c' => c' = primed table handle type true ∧ (Errand.linking name).asks := by
  have hcheck : (addLibrary name).check (primed table handle type told) =
      (boundaryText "library name" name).map .addLibrary := by
    rw [check, show (primed table handle type told).ensureOpen _ = .ok () from rfl]
    cases boundaryText "library name" name <;> rfl
  exact follows_request compiler rfl rfl hcheck (by simp [kind]) (fun _ => rfl) fun _ => rfl

theorem Operation.follows_compileString (source : String) :
    Follows compiler id handle ((compileString source).perform compiler)
      (primed table handle type told) (Errand.telling told type [.compilingText source])
      fun _ _ c' => c' = built table handle type ∧ (Errand.compilingText source).asks := by
  have hcheck : (compileString source).check (primed table handle type told) =
      (boundaryText "source text" source).map fun t => .compile (.text t) := by
    rw [check, show (primed table handle type told).ensureOpen _ = .ok () from rfl]
    cases boundaryText "source text" source <;> rfl
  exact follows_request compiler rfl rfl hcheck (by simp [kind]) (fun _ => rfl) fun _ => rfl

theorem Operation.follows_addFile (path : Path) :
    Follows compiler id handle ((addFile path).perform compiler)
      (primed table handle type told) (Errand.telling told type [.compilingFile path])
      fun _ _ c' => c' = built table handle type ∧ (Errand.compilingFile path).asks := by
  have hcheck : (addFile path).check (primed table handle type told) =
      (boundaryPath path).map fun t => .compile (.file t) := by
    rw [check, show (primed table handle type told).ensureOpen _ = .ok () from rfl]
    cases boundaryPath path <;> rfl
  exact follows_request compiler rfl rfl hcheck (by simp [kind]) (fun _ => rfl) fun _ => rfl

theorem Operation.follows_outputFile (hf : type.isFile) (destination : Path) :
    Follows compiler id handle ((outputFile destination).perform compiler)
      (built table handle type) [.writing destination] fun _ _ _ => True := by
  have hcheck : (outputFile destination).check (built table handle type) =
      (boundaryPath destination).map .outputFile := by
    have hform : (built table handle type).outputType.isFile = true := hf
    have hstage : decide ((built table handle type).stage = .compiled ∨
        (built table handle type).stage = .finalized .emitted) = true := rfl
    rw [check, hform, hstage]
    cases boundaryPath destination <;> rfl
  have hask : ∀ t : CText, (Task.outputFile t).errands (built table handle type) =
      Errand.telling true type [.ask (.outputFile t)] := fun _ => rfl
  have h := follows_request compiler rfl rfl hcheck (by simp [kind]) hask fun _ => rfl
  rw [Errand.telling_told] at h
  exact h.mono fun _ _ _ _ => trivial

theorem Operation.follows_relocate :
    Follows compiler id handle (relocate.perform compiler) (built table handle .memory)
      [.ask (.relocate .auto)] fun _ _ c' => c' = loaded table handle := by
  have hcheck : relocate.check (built table handle .memory) = .ok (.relocate .auto) := rfl
  exact follows compiler rfl rfl hcheck (by simp [kind])

/-- A value that a program returned: code was entered with the arguments, and this came of it. -/
def Returned (arguments : List String) (ds : List Deed) (value : Value) : Prop :=
  ∃ argv main outside, boundaryArguments arguments = .ok argv ∧
    .entered main (.program argv) ∈ ds ∧
      value = .status (compiler.enter main (.program argv) outside).1

private theorem yields_run {c : Context} (hc : c.handle? = some handle) (argv : List CText) :
    ContextAction.Yields handle (ContextAction.run compiler argv) c fun ds r _ =>
      ∀ value, r = .ok value → ∃ main outside, .entered main (.program argv) ∈ ds ∧
        value = .status (compiler.enter main (.program argv) outside).1 := by
  refine .bind (.log (.bind (.call compiler hc fun answer => ?_)))
  dsimp only
  cases answer.address.nonNull? with
  | none => exact .bind (.log (.fail (by simp)))
  | some main =>
    refine .bind (.enter compiler hc fun outside => ?_)
    refine .bind (.log (.bind (.advance (.pure ?_))))
    intro value hvalue
    exact ⟨main, outside, by simp, (Except.ok.inj hvalue).symm⟩

theorem Operation.follows_run (arguments : List String) :
    Follows compiler id handle ((run arguments).perform compiler) (loaded table handle)
      [.running arguments] fun ds value _ => Returned compiler arguments ds value := by
  have hcheck : (run arguments).check (loaded table handle) =
      (boundaryArguments arguments).map .run := by
    rw [check]
    cases boundaryArguments arguments <;> rfl
  unfold Errand.running Returned
  cases ha : boundaryArguments arguments with
  | error e =>
    rw [ha] at hcheck
    exact follows_stop compiler rfl hcheck
  | ok argv =>
    rw [ha] at hcheck
    intro w
    obtain ⟨hcarried, _, hholds, hkeeps⟩ := follows compiler rfl rfl hcheck (by simp [kind]) w
    refine ⟨hcarried, ?_, hholds, hkeeps⟩
    intro value hvalue
    have hperform :=
      (run arguments).perform_of_check compiler (s := ⟨loaded table handle, w⟩) hcheck
    have hc : (loaded table handle).handle? = some handle := rfl
    obtain ⟨hpost, _⟩ := yields_run compiler handle hc argv w
    rw [hperform] at hvalue ⊢
    obtain ⟨main, outside, hentered, hstatus⟩ := hpost value hvalue
    exact ⟨argv, main, outside, rfl, hentered, hstatus⟩

variable {compiler type} in
/-- The first unit, compiled with the type that the context has, and what comes after it. -/
theorem Operation.follows_unit {o : Operation} {errand : Errand BindError}
    {rest : List (Errand BindError)} {x : ContextAction σ Value}
    {post : List Deed → Value → Context → Prop}
    (ho : Follows compiler id handle (o.perform compiler) (primed table handle type told)
      (Errand.telling told type [errand])
      fun _ _ c' => c' = built table handle type ∧ errand.asks)
    (hx : ∀ past, Follows compiler id handle x (built table handle type) rest
      fun ds value c' => post (past ++ ds) value c') :
    Follows compiler id handle
      ((setOutputType type).perform compiler >>= fun _ => o.perform compiler >>= fun _ => x)
      (primed table handle type told) (Errand.telling told type (errand :: rest)) post := by
  have hset := follows_sameType compiler table handle type told
  rw [Errand.telling_cons]
  refine Follows.bind_idle hset fun ds _ c' hc' _ => ?_
  subst hc'
  refine Follows.bind ho fun ds' _ c'' hc'' _ => ?_
  obtain ⟨rfl, hasks⟩ := hc''
  rw [hasks, Bool.or_true, Errand.telling_told]
  simpa using hx (ds ++ ds')

end Steps

theorem Job.follows (compiler : Compiler σ) (table : EntryTable) (handle : Handle) (told : Bool)
    (job : Job) (hf : job.hasForm) :
    Follows compiler id handle (job.perform compiler) (.primed table handle job.outputType told)
      (Errand.telling told job.outputType job.errands)
      fun ds value _ => ∀ path arguments, job = .runFile path arguments →
        Returned compiler arguments ds value := by
  apply Follows.get_bind
  intro w
  have hsource (path : Path) (type : OutputType) :
      Follows compiler id handle
        (Action.ofExcept (if (w.files compiler).isFile path then .ok ()
          else .error (.io path .noSource))) (.primed table handle type told) [.source path]
        fun _ _ c' => c' = .primed table handle type told := Follows.source rfl w path
  cases job with
  | compileSourceTo source kind destination =>
    have hform : kind.isFile = true := hf
    have hcheck : check (w.files compiler) (.primed table handle kind told)
        (.compileSourceTo source kind destination) = .ok () := by
      rw [check_compileSourceTo, hform]
      rfl
    dsimp only [outputType]
    rw [hcheck]
    apply Follows.ofExcept_bind
    apply Operation.follows_unit table handle told
      (Operation.follows_compileString compiler table handle kind told source)
    intro past
    exact (Operation.follows_outputFile compiler table handle kind hform destination).mono
      fun _ _ _ _ => nofun
  | compileFileTo path kind destination =>
    have hform : kind.isFile = true := hf
    have hcheck : check (w.files compiler) (.primed table handle kind told)
        (.compileFileTo path kind destination) =
          if (w.files compiler).isFile path then .ok () else .error (.io path .noSource) := by
      rw [check_compileFileTo, hform]
      rfl
    dsimp only [outputType]
    rw [hcheck]
    refine Follows.bind (hsource path kind) fun ds _ c' hc' _ => ?_
    subst hc'
    apply Operation.follows_unit table handle told
      (Operation.follows_addFile compiler table handle kind told path)
    intro past
    exact (Operation.follows_outputFile compiler table handle kind hform destination).mono
      fun _ _ _ _ => nofun
  | runFile path arguments =>
    dsimp only [outputType]
    rw [check_runFile]
    refine Follows.bind (hsource path .memory) fun ds _ c' hc' _ => ?_
    subst hc'
    apply Operation.follows_unit table handle told
      (Operation.follows_addFile compiler table handle .memory told path)
    intro past
    apply Follows.bind (Operation.follows_relocate compiler table handle)
    intro ds' _ c'' hc'' _
    subst hc''
    apply (Operation.follows_run compiler table handle arguments).mono
    intro ds'' value _ hreturned path' arguments' hjob
    cases hjob
    obtain ⟨argv, main, outside, hargv, hentered, hvalue⟩ := hreturned
    refine ⟨argv, main, outside, hargv, ?_, hvalue⟩
    simp [hentered]

end EmbeddedC
