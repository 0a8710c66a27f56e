import EmbeddedC.Proofs.Script
/-!
# The errands of scripts

No errand of a script is ever out of order, so nothing is refused but a source file that is missing;
none deletes the state; and code is entered by one errand at most.
-/

namespace EmbeddedC

section Entries

variable {σ ε δ : Type}

/-- The errands that enter code. -/
def Errand.enters : Errand ε → Bool
  | enter _ _ _ => true
  | _ => false

@[simp] theorem Errand.enters_map (f : ε → δ) (errand : Errand ε) :
    (errand.map f).enters = errand.enters := by
  cases errand <;> rfl

@[simp] theorem Errand.enters_ofExcept (request : Except ε Request) :
    (Errand.ofExcept request).enters = false := by
  cases request <;> rfl

theorem Errand.filter_enters_telling (told : Bool) (type : OutputType) (errands : List (Errand ε)) :
    (Errand.telling told type errands).filter Errand.enters = errands.filter Errand.enters := by
  induction errands with
  | nil => rfl
  | cons errand rest ih =>
    cases told <;> cases errand <;> simp_all [Errand.telling, Errand.enters, List.filter_cons]

variable {compiler : Compiler σ} {wrap : BindError → ε}

/-- Code is entered no more often than the errands do. -/
theorem Carries.entries_le {errands : List (Errand ε)} {ds : List Deed} {r : Except ε Unit}
    (h : Carries compiler wrap errands ds r) :
    ds.countP Deed.isEntry ≤ (errands.filter Errand.enters).length := by
  have hends : ∀ {errand : Errand ε} {ds r}, errand.Ends compiler wrap ds r →
      ds.countP Deed.isEntry ≤ ([errand].filter Errand.enters).length := by
    intro errand ds r hs
    cases hs <;> simp [Deed.isEntry, Errand.enters, List.filter_cons]
  have hcons : ∀ (errand : Errand ε) rest, ((errand :: rest).filter Errand.enters).length =
      ([errand].filter Errand.enters).length + (rest.filter Errand.enters).length := by
    intro errand rest
    rw [← List.length_append, ← List.filter_append, List.singleton_append]
  induction h with
  | done => exact Nat.le_refl 0
  | cut hs =>
    rw [hcons]
    exact Nat.le_add_right_of_le (hends hs)
  | next hs _ ih =>
    rw [hcons, List.countP_append]
    exact Nat.add_le_add (hends hs) ih

/-- What is entered is what one of the errands says. -/
theorem Carries.entry_mem {errands : List (Errand ε)} {ds : List Deed} {r : Except ε Unit}
    (h : Carries compiler wrap errands ds r) {address : Address} {arguments : Arguments}
    (hd : .entered address arguments ∈ ds) :
    ∃ name e, .enter name arguments e ∈ errands.filter Errand.enters := by
  obtain ⟨errand, hmem, _, _, hends, hentered⟩ := h.exists_of_mem hd
  cases hends with
  | @entered name _ e answer _ hm =>
    simp only [List.mem_cons, List.not_mem_nil, or_false, reduceCtorEq, false_or] at hentered
    cases hentered
    exact ⟨name, e, List.mem_filter.2 ⟨hmem, rfl⟩⟩
  | _ => simp at hentered

end Entries

section Arguments

theorem boundaryText_text {what value : String} {t : CText} (h : boundaryText what value = .ok t) :
    t.text = value := by
  unfold boundaryText at h
  cases hs : CText.ofString? value with
  | none =>
    rw [hs] at h
    cases h
  | some u =>
    rw [hs] at h
    cases h
    exact CText.text_of_ofString? hs

/-- Arguments that cross the boundary are read as they are. -/
theorem boundaryArguments_text {arguments : List String} {argv : List CText}
    (h : boundaryArguments arguments = .ok argv) : argv.map CText.text = arguments := by
  have hfrom : ∀ i (as : List String) ts, boundaryArgumentsFrom i as = .ok ts →
      ts.map CText.text = as := by
    intro i as
    induction as generalizing i with
    | nil =>
      intro ts h
      cases h
      rfl
    | cons a rest ih =>
      intro ts h
      simp only [boundaryArgumentsFrom] at h
      cases ht : boundaryText ("argument " ++ toString i) a with
      | error e =>
        rw [ht] at h
        cases h
      | ok t =>
        cases hr : boundaryArgumentsFrom (i + 1) rest with
        | error e =>
          rw [ht, hr] at h
          cases h
        | ok ts' =>
          rw [ht, hr] at h
          cases h
          rw [List.map_cons, boundaryText_text ht, ih _ _ hr]
  unfold boundaryArguments at h
  cases hts : boundaryArgumentsFrom 0 arguments with
  | error e =>
    rw [hts] at h
    cases h
  | ok ts =>
    rw [hts] at h
    simp only [Bind.bind, Except.bind] at h
    split at h
    · cases h
    · cases h
      exact hfrom 0 arguments _ hts

end Arguments

/-- A request is never answered with a refusal. -/
theorem Request.not_refusal_of_failure? {request : Request} {status : Int32} {e : BindError}
    (h : request.failure? status = some e) : e.isRefusal = false := by
  cases request with
  | configure setting =>
    simp only [failure?] at h
    split at h
    · cases h
      rfl
    · cases h
  | setErrorFunc | delete | getSymbol | run => cases h
  | _ =>
    cases h
    rfl

namespace CommandLine

variable {σ : Type} {compiler : Compiler σ}

/-- An errand that leaves the state to whoever created it, and has no words of refusal. -/
def Plain : Errand CommandError → Prop
  | .ask request => request ≠ .delete
  | .stop e | .enter _ _ e => ∀ e', e = .bind e' → e'.isRefusal = false
  | .source _ => True

/-- Nothing is refused but a source that is missing. -/
theorem Plain.refusal {errand : Errand CommandError} (hp : Plain errand) {ds : List Deed}
    {e : BindError} (h : errand.Ends compiler CommandError.bind ds (.error (.bind e)))
    (he : e.isRefusal) : ∃ path, e = .io path .noSource := by
  generalize hr : (.error (.bind e) : Except CommandError Unit) = r at h
  cases h with
  | granted | found | entered => cases hr
  | refused answer hf =>
    cases hr
    rw [Request.not_refusal_of_failure? hf] at he
    cases he
  | stopped | absent =>
    cases hr
    rw [hp e rfl] at he
    cases he
  | missing =>
    cases hr
    exact ⟨_, rfl⟩

theorem Plain.request?_ne {errand : Errand CommandError} (hp : Plain errand) :
    errand.request? ≠ some .delete := by
  cases errand with
  | ask request => exact fun h => hp (Option.some.inj h)
  | stop | source | enter => simp [Errand.request?]

/-- An errand that may lack the words for its request. -/
theorem plain_ofExcept {x : Except BindError Request} (hx : ¬Refused x) (hd : x ≠ .ok .delete) :
    Plain ((Errand.ofExcept x).map CommandError.bind) := by
  cases x with
  | ok request => exact fun h => hd (congrArg Except.ok h)
  | error e =>
    intro e' he
    cases he
    rw [refused_error, Bool.not_eq_true] at hx
    exact hx

theorem plain_crossing {α : Type} {x : Except BindError α} (hx : ¬Refused x) {request : α → Request}
    (hd : ∀ a, request a ≠ .delete) :
    Plain ((Errand.ofExcept (x.map request)).map CommandError.bind) := by
  apply plain_ofExcept (not_refused_map hx request)
  cases x with
  | ok a => exact fun h => hd a (Except.ok.inj h)
  | error e => simp [Except.map]

theorem plain_asking {α : Type} {x : Except BindError α} (hx : ¬Refused x) {request : α → Request}
    (hd : ∀ a, request a ≠ .delete) : Plain (asking (x.map request)) := by
  rw [asking, ← Errand.ofExcept_map]
  exact plain_crossing hx hd

theorem plain_telling {told : Bool} {type : OutputType} {errands : List (Errand CommandError)}
    (h : ∀ errand ∈ errands, Plain errand) :
    ∀ errand ∈ Errand.telling told type errands, Plain errand := by
  induction errands with
  | nil => exact h
  | cons errand rest ih =>
    rw [List.forall_mem_cons] at h
    have hrest := ih h.2
    cases errand with
    | ask request =>
      cases told with
      | true => exact List.forall_mem_cons.2 h
      | false => exact List.forall_mem_cons.2 ⟨by simp [Plain], List.forall_mem_cons.2 h⟩
    | stop | source | enter => exact List.forall_mem_cons.2 ⟨h.1, hrest⟩

theorem plain_plan (t : Toolchain) : ∀ errand ∈ reported t.errands, Plain errand := by
  simp only [reported, Toolchain.errands, List.forall_mem_map]
  intro setting hs
  apply plain_crossing ?_ (by simp)
  rintro ⟨e, rfl, he⟩
  obtain ⟨what, rfl⟩ := Toolchain.setting_error hs
  cases he

theorem Define.error_of_parse {raw : String} {e : CommandError} (h : Define.parse raw = .error e) :
    e = .badDefine raw := by
  simp only [Define.parse] at h
  split at h
  · cases h
    rfl
  · cases h

theorem plain_defining (raw : String) : Plain (defining raw) := by
  unfold defining
  cases hd : Define.parse raw with
  | error e =>
    rw [Define.error_of_parse hd]
    simp [Plain]
  | ok d =>
    have hvalue : ¬Refused (d.value?.mapM (boundaryText "macro value")) := by
      cases d.value? with
      | none => exact not_refused_ok _
      | some value => exact not_refused_map not_refused_boundaryText some
    dsimp only
    rw [asking, ← Errand.ofExcept_map]
    apply plain_ofExcept
    · refine not_refused_bind not_refused_boundaryText fun _ => ?_
      exact not_refused_bind hvalue fun _ => not_refused_ok _
    · cases boundaryText "macro name" d.name with
      | error e => intro h; cases h
      | ok name =>
        cases d.value?.mapM (boundaryText "macro value") <;>
          (intro h; cases h)

theorem plain_settings (f : Flags) : ∀ errand ∈ f.settings, Plain errand := by
  simp only [Flags.settings, List.forall_mem_append, List.forall_mem_map]
  have hdir (dir : Path) (setting : CText → Setting) :
      Plain (asking ((boundaryPath dir).map fun t => .configure (setting t))) :=
    plain_asking not_refused_boundaryPath (by simp)
  have hoptions (options : String) : Plain (asking
      ((boundaryText "compiler options" options).map fun t => .configure (.options t))) :=
    plain_asking not_refused_boundaryText (by simp)
  exact ⟨⟨⟨fun dir _ => hdir dir .includePath, fun dir _ => hdir dir .libraryPath⟩,
    fun raw _ => plain_defining raw⟩, fun options _ => hoptions options⟩

theorem plain_linking (f : Flags) : ∀ errand ∈ f.linking, Plain errand := by
  simp only [Flags.linking, reported, List.forall_mem_map]
  exact fun name _ => plain_crossing not_refused_boundaryText (by simp)

theorem plain_running (arguments : List String) :
    Plain ((Errand.running arguments).map CommandError.bind) := by
  unfold Errand.running
  cases h : boundaryArguments arguments with
  | ok argv =>
    intro e' he
    cases he
    rfl
  | error e =>
    intro e' he
    cases he
    have hx : ¬Refused (boundaryArguments arguments) := not_refused_boundaryArguments
    rw [h, refused_error, Bool.not_eq_true] at hx
    exact hx

theorem plain_compilingText (source : String) :
    Plain ((Errand.compilingText source).map CommandError.bind) :=
  plain_crossing not_refused_boundaryText (by simp)

theorem plain_job (job : Job) : ∀ errand ∈ reported job.errands, Plain errand := by
  have hfile (path : Path) : Plain ((Errand.compilingFile path).map CommandError.bind) :=
    plain_crossing not_refused_boundaryPath (by simp)
  have hwriting (path : Path) : Plain ((Errand.writing path).map CommandError.bind) :=
    plain_crossing not_refused_boundaryPath (by simp)
  have hsource (path : Path) : Plain ((Errand.source path).map CommandError.bind) := trivial
  have hrelocate : Plain ((Errand.ask (.relocate .auto)).map CommandError.bind) := by
    simp [Errand.map, Plain]
  simp only [reported, List.forall_mem_map]
  cases job <;>
    simp [Job.errands, hfile, plain_compilingText, hwriting, hsource, hrelocate, plain_running]

/-- What the demo does, whatever its source says. -/
theorem plain_demo (source : String) :
    ∀ errand ∈ reported [.compilingText source, injecting "add", injecting "hello",
        .ask (.relocate .auto)] ++
      [.enter demoName (.numbers [demoNumber]) (.missingSymbol "foo")], Plain errand := by
  have hinjecting (name : String) : Plain ((injecting name).map CommandError.bind) :=
    plain_crossing not_refused_boundaryText (by simp)
  have hrelocate : Plain ((Errand.ask (.relocate .auto)).map CommandError.bind) := by
    simp [Errand.map, Plain]
  rw [List.forall_mem_append]
  constructor
  · simp [reported, plain_compilingText, hinjecting, hrelocate]
  · intro errand he
    rw [List.mem_singleton.1 he]
    simp [Plain]

/-- Every errand of a script is plain. -/
theorem plain_script {i : Invocation} {script : List (Errand CommandError)}
    (h : i.script = .ok script) : ∀ errand ∈ script, Plain errand := by
  have hflags := plain_settings i.flags
  have hjob (job : Job) (type : OutputType) : ∀ errand ∈ i.flags.settings ++
      Errand.telling false type (i.flags.linking ++ reported job.errands), Plain errand := by
    have hrest := List.forall_mem_append.2 ⟨plain_linking i.flags, plain_job job⟩
    exact List.forall_mem_append.2 ⟨hflags, plain_telling hrest⟩
  obtain ⟨file, arguments, _, rfl⟩ | ⟨file, output?, kind, output, _, _, rfl⟩ | ⟨_, rfl⟩ :=
    Invocation.script_cases h
  · exact hjob (.runFile file (file.display :: arguments)) .memory
  · exact hjob (.compileFileTo file kind.outputType output) kind.outputType
  · exact List.forall_mem_append.2 ⟨hflags, plain_telling (plain_demo demoSource)⟩

/-- The code that a command enters: its program, or the demo's function. -/
def Command.entry : Command → List (Errand CommandError)
  | .run file arguments =>
    (reported [.running (file.display :: arguments)]).filter Errand.enters
  | .build _ _ _ => []
  | .demo => [.enter demoName (.numbers [demoNumber]) (.missingSymbol "foo")]

theorem Command.entry_length_le (command : Command) : command.entry.length ≤ 1 := by
  cases command with
  | run file arguments =>
    exact List.length_filter_le Errand.enters (reported [.running (file.display :: arguments)])
  | build => exact Nat.zero_le 1
  | demo => exact Nat.le_refl 1

/-- A program is entered with its file's name, as displayed, and its own arguments. -/
theorem Command.arguments_of_entry {file : Path} {arguments : List String} {name : CText}
    {a : Arguments} {e : CommandError} (h : .enter name a e ∈ (Command.run file arguments).entry) :
    ∃ argv, a = .program argv ∧ argv.map CText.text = file.display :: arguments := by
  obtain ⟨hmem, _⟩ := List.mem_filter.1 h
  have hrunning := List.mem_singleton.1 hmem
  unfold Errand.running at hrunning
  cases hargv : boundaryArguments (file.display :: arguments) with
  | error e' =>
    rw [hargv] at hrunning
    cases hrunning
  | ok argv =>
    rw [hargv] at hrunning
    cases hrunning
    exact ⟨argv, rfl, boundaryArguments_text hargv⟩

theorem filter_reported (errands : List (Errand BindError)) :
    (reported errands).filter Errand.enters = reported (errands.filter Errand.enters) := by
  rw [reported, List.filter_map]
  congr 1
  exact List.filter_congr fun errand _ => Errand.enters_map _ errand

theorem filter_settings (f : Flags) : f.settings.filter Errand.enters = [] := by
  have hdefining (raw : String) : (defining raw).enters = false := by
    unfold defining
    split
    · rfl
    · exact Errand.enters_ofExcept _
  rw [List.filter_eq_nil_iff]
  simp only [Flags.settings, List.forall_mem_append, List.forall_mem_map, asking,
    Errand.enters_ofExcept, hdefining]
  simp

theorem filter_linking (f : Flags) : f.linking.filter Errand.enters = [] := by
  rw [Flags.linking, filter_reported, List.filter_eq_nil_iff.2]
  · rfl
  · simp [Errand.linking]

theorem filter_plan (t : Toolchain) : (reported t.errands).filter Errand.enters = [] := by
  rw [filter_reported, List.filter_eq_nil_iff.2]
  · rfl
  · simp [Toolchain.errands]

theorem filter_job (job : Job) : (reported job.errands).filter Errand.enters =
    match job with
    | .runFile _ arguments => (reported [.running arguments]).filter Errand.enters
    | _ => [] := by
  have hfile (path : Path) : ¬(Errand.compilingFile path).enters := by simp [Errand.compilingFile]
  have htext (source : String) : ¬(Errand.compilingText source).enters := by
    simp [Errand.compilingText]
  have hwriting (path : Path) : ¬(Errand.writing path).enters := by simp [Errand.writing]
  have hsource (path : Path) : ¬(Errand.source path : Errand BindError).enters :=
    Bool.false_ne_true
  have hask (request : Request) : ¬(Errand.ask request : Errand BindError).enters :=
    Bool.false_ne_true
  rw [filter_reported]
  cases job with
  | compileSourceTo source _ destination =>
    rw [Job.errands, List.filter_cons_of_neg (htext source),
      List.filter_cons_of_neg (hwriting destination)]
    rfl
  | compileFileTo path _ destination =>
    rw [Job.errands, List.filter_cons_of_neg (hsource path), List.filter_cons_of_neg (hfile path),
      List.filter_cons_of_neg (hwriting destination)]
    rfl
  | runFile path arguments =>
    rw [Job.errands, List.filter_cons_of_neg (hsource path), List.filter_cons_of_neg (hfile path),
      List.filter_cons_of_neg (hask _)]
    exact (filter_reported _).symm

/-- What a script enters. -/
theorem filter_script {i : Invocation} {script : List (Errand CommandError)}
    (h : i.script = .ok script) : script.filter Errand.enters = i.command.entry := by
  have hscript (type : OutputType) (rest : List (Errand CommandError)) :
      (i.flags.settings ++ Errand.telling false type rest).filter Errand.enters =
        rest.filter Errand.enters := by
    rw [List.filter_append, filter_settings, Errand.filter_enters_telling, List.nil_append]
  obtain ⟨file, arguments, hc, rfl⟩ | ⟨file, output?, kind, output, hc, _, rfl⟩ | ⟨hc, rfl⟩ :=
    Invocation.script_cases h
  · rw [hc, runScript, hscript, List.filter_append, filter_linking, filter_job]
    rfl
  · rw [hc, buildScript, hscript, List.filter_append, filter_linking, filter_job]
    rfl
  · rw [hc, demoScript, hscript, List.filter_append, filter_reported]
    simp only [injecting, Errand.compilingText, List.filter_cons, Errand.enters_ofExcept]
    rfl

end CommandLine

end EmbeddedC
