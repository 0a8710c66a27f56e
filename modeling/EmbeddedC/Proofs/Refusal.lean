import EmbeddedC.Proofs.History
/-!
# Refusals

What is refused has not been begun: the compiler is not called, no hook runs, and everything is left
as it was. For a single operation the check alone decides that. A job strings operations together,
and there it takes the past of the context: once the first has passed, none of the rest is refused.
-/

namespace EmbeddedC

namespace BindError

/-- The errors that turn a request down before it is begun. -/
def isRefusal : BindError → Bool
  | outOfOrder _ _ _ | io _ _ => true
  | injection (.isSealed _ _) | injection (.invalidName _) => true
  | injection (.conventionMismatch _ _ _ _) => true
  | _ => false

def isInvalidArgument : BindError → Bool
  | invalidArgument _ _ => true
  | _ => false

end BindError

def Refused {α : Type} (x : Except BindError α) : Prop :=
  ∃ e, x = .error e ∧ e.isRefusal

section Refused

variable {α β : Type} {e : BindError} {x : Except BindError α} {f : α → Except BindError β}

theorem not_refused_ok (a : α) : ¬Refused (.ok a) := by
  rintro ⟨e, h, _⟩
  exact nomatch h

theorem refused_error : Refused (.error e : Except BindError α) ↔ e.isRefusal := by
  constructor
  · rintro ⟨_, h, he⟩
    cases h
    exact he
  · intro he
    exact ⟨e, rfl, he⟩

theorem not_refused_bind (hx : ¬Refused x) (hf : ∀ a, ¬Refused (f a)) : ¬Refused (x >>= f) := by
  cases x with
  | ok a => exact hf a
  | error e =>
    intro h
    exact hx (refused_error.2 (refused_error.1 h))

theorem not_refused_map (hx : ¬Refused x) (g : α → β) : ¬Refused (x.map g) := by
  cases x with
  | ok a => exact not_refused_ok _
  | error e =>
    intro h
    exact hx (refused_error.2 (refused_error.1 h))

theorem not_refused_invalidArgument {what reason : String} :
    ¬Refused (.error (.invalidArgument what reason) : Except BindError α) := by
  intro h
  exact Bool.noConfusion (refused_error.1 h)

theorem not_refused_boundaryText {what value : String} : ¬Refused (boundaryText what value) := by
  unfold boundaryText
  split
  · exact not_refused_ok _
  · exact not_refused_invalidArgument

theorem not_refused_boundaryPath {path : Path} : ¬Refused (boundaryPath path) := by
  unfold boundaryPath
  split
  · exact not_refused_ok _
  · exact not_refused_invalidArgument

theorem not_refused_boundaryArguments {arguments : List String} :
    ¬Refused (boundaryArguments arguments) := by
  have hfrom : ∀ i (as : List String), ¬Refused (boundaryArgumentsFrom i as) := by
    intro i as
    induction as generalizing i with
    | nil => exact not_refused_ok _
    | cons a as ih =>
      refine not_refused_bind not_refused_boundaryText fun _ => ?_
      exact not_refused_bind (ih _) fun _ => not_refused_ok _
  refine not_refused_bind (hfrom 0 arguments) fun ts => ?_
  split
  · exact not_refused_invalidArgument
  · exact not_refused_ok _

theorem Guards.of_ok {b : Bool} {guard : Except BindError Unit} {p : Prop}
    (hg : Guards b guard p) (h : guard = .ok ()) : p := by
  apply Classical.byContradiction
  intro hp
  obtain ⟨e, he, _⟩ := hg.2 hp
  exact nomatch h.symm.trans he

/-- A guard that holds refuses nothing, and leaves that to what follows. -/
theorem Guards.not_refused {guard : Except BindError Unit} {p : Prop}
    (hg : Guards true guard p) (hp : p) (hx : ¬Refused x) :
    ¬Refused (guard >>= fun _ => x) := by
  rw [hg.1 hp]
  exact hx

end Refused

/-- What the compiler answers is never a refusal, and never about an argument. -/
theorem Task.Does.begun {c c' : Context} {task : Task} {ds : List Deed} {e : BindError}
    (hd : task.Does c ds (.error e) c') : e.isRefusal = false ∧ e.isInvalidArgument = false := by
  cases hd <;> exact ⟨rfl, rfl⟩

namespace Operation

variable {c c' : Context} {operation : Operation} {ds : List Deed} {r : Except BindError Value}

theorem Does.not_refused (hd : operation.Does c ds r c') (hk : ¬Refused (operation.check c)) :
    ¬Refused r := by
  cases hd with
  | refused hc =>
    rw [hc] at hk
    intro h
    exact hk (refused_error.2 (refused_error.1 h))
  | performed hc hd =>
    rintro ⟨e, rfl, he⟩
    rw [hd.begun.1] at he
    exact Bool.noConfusion he

section Checks

theorem not_refused_compile (hk : operation.kind = .compile) (ho : c.stage.isOpen) :
    ¬Refused (operation.check c) := by
  cases operation with
  | compileString source =>
    refine Context.guards_ensureOpen.not_refused ho ?_
    exact not_refused_bind not_refused_boundaryText fun _ => not_refused_ok _
  | addFile path =>
    refine Context.guards_ensureOpen.not_refused ho ?_
    exact not_refused_bind not_refused_boundaryPath fun _ => not_refused_ok _
  | _ => exact nomatch hk

theorem not_refused_relocate (hr : c.Relocatable) : ¬Refused (relocate.check c) :=
  Context.guards_ensureRelocatable.not_refused hr (not_refused_ok _)

theorem not_refused_run (hm : c.outputType = .memory) (hr : c.stage.isRelocated)
    (arguments : List String) : ¬Refused ((run arguments).check c) := by
  refine Context.guards_ensureLive.not_refused (Stage.live_of_isRelocated hr) ?_
  refine Context.guards_ensure.not_refused (decide_eq_true hm) ?_
  refine Context.guards_ensure.not_refused hr ?_
  exact not_refused_bind not_refused_boundaryArguments fun _ => not_refused_ok _

theorem not_refused_outputFile (ha : c.relocateAttempted = false) (hf : c.outputType.isFile)
    (hs : c.stage = .compiled) (path : Path) : ¬Refused ((outputFile path).check c) := by
  refine Context.guards_ensureLive.not_refused (by simp [hs]) ?_
  refine Context.guards_ensure.not_refused (by simp [ha]) ?_
  refine Context.guards_ensure.not_refused hf ?_
  refine Context.guards_ensure.not_refused (decide_eq_true (.inl hs)) ?_
  exact not_refused_bind not_refused_boundaryPath fun _ => not_refused_ok _

end Checks

/-- A type that is asked for is chosen, or it is the one that is fixed already. -/
theorem check_setOutputType {type : OutputType} {task : Task}
    (hc : (setOutputType type).check c = .ok task) :
    c.stage.isOpen ∧ (task = .chooseType type ∨ task = .keepType ∧ c.outputType = type) := by
  have htimely : c.stage.isOpen ∧ (c.typeFixed → type = c.outputType) := by
    apply Decidable.byContradiction
    intro hn
    obtain ⟨e, he, _⟩ := ((setOutputType type).checks c).untimely_iff.2 hn
    exact nomatch hc.symm.trans he
  obtain ⟨ho, htype⟩ := htimely
  have hopen : c.ensureOpen "set_output_type" = .ok () :=
    (Context.guards_ensureOpen (b := true)).1 ho
  rw [check, hopen] at hc
  refine ⟨ho, ?_⟩
  cases hf : c.typeFixed with
  | true =>
    rw [hf, htype hf] at hc
    simp only [Context.ensure, decide_true] at hc
    exact .inr ⟨(Except.ok.inj hc).symm, (htype hf).symm⟩
  | false =>
    rw [hf] at hc
    exact .inl (Except.ok.inj hc).symm

/-- Setting the output type is no deed. What comes next finds that type. -/
theorem Does.typeSet {type : OutputType} {value : Value}
    (hd : (setOutputType type).Does c ds (.ok value) c') :
    ds = [] ∧ c'.stage.isOpen ∧ c'.outputType = type := by
  cases hd with
  | performed hc hd =>
    obtain ⟨ho, rfl | ⟨rfl, htype⟩⟩ := check_setOutputType hc
    · cases hd with
      | typeChosen => exact ⟨rfl, by simpa using ho, by simp⟩
    · cases hd with
      | typeKept => exact ⟨rfl, ho, htype⟩

/-- A unit that has been compiled can be linked, whatever failed before. -/
theorem Does.unitCompiled {value : Value} (hk : operation.kind = .compile)
    (hd : operation.Does c ds (.ok value) c') :
    c'.stage = .compiled ∧ c'.relocationFailed = false ∧ c'.outputType = c.outputType := by
  cases hd with
  | @performed task _ _ _ hc hd =>
    have hkind : task.kind = .compile := ((operation.checks c).of_ok task hc).1.trans hk
    cases hd with
    | compiled hf =>
      have htype := hf.outputType
      exact ⟨rfl, rfl, htype⟩
    | _ => exact nomatch hkind

theorem Does.codePlaced {value : Value} (hd : relocate.Does c ds (.ok value) c') :
    c'.stage.isRelocated ∧ c'.outputType = c.outputType := by
  cases hd with
  | @performed task _ _ _ hc hd =>
    have hkind : task.kind = .relocation .auto := (relocate.checks c).of_ok task hc |>.1
    cases hd with
    | relocated => exact ⟨rfl, rfl⟩
    | _ => exact nomatch hkind

theorem Does.tracks {past : List Deed} (h : c.Tracks past) (hd : operation.Does c ds r c') :
    c'.Tracks (past ++ ds) := by
  cases hd with
  | refused => rwa [List.append_nil]
  | performed hc hd => exact h.task ((operation.checks c).of_ok _ hc).2 hd

end Operation

/-- Only memory output is ever relocated. -/
theorem Context.Tracks.unattempted {c : Context} {past : List Deed} (h : c.Tracks past)
    (hf : c.outputType.isFile) : c.relocateAttempted = false := by
  rw [h.attempted]
  apply Bool.eq_false_iff.2
  intro hr
  rw [(h.memory hr).1] at hf
  exact Bool.noConfusion hf

private theorem ok_of_bind {x y : Except BindError Unit} (h : (x >>= fun _ => y) = .ok ()) :
    x = .ok () := by
  cases x with
  | error e => exact nomatch h
  | ok u => rfl

section Rest

open ContextAction

variable {σ : Type} (compiler : Compiler σ) {c : Context} {past : List Deed}
  {operation : Operation}

private theorem yields_cons (hc : c.Coherent) (hk : ¬Refused (operation.check c))
    (next : Operation) (rest : List Operation)
    (hrest : ∀ ds value c', operation.Does c ds (.ok value) c' → c'.Coherent →
      Yields c'.number (Operation.performAll compiler (next :: rest)) c' fun _ r _ => ¬Refused r) :
    Yields c.number (Operation.performAll compiler (operation :: next :: rest)) c
      fun _ r _ => ¬Refused r := by
  apply Yields.bind
  apply (operation.yields_perform compiler hc).mono
  intro ds r c' hd
  cases r with
  | error e => exact fun h => hd.not_refused hk (refused_error.2 (refused_error.1 h))
  | ok value =>
    have hreach := hd.reaches
    have := hrest ds value c' hd (hreach.coherent hc)
    rwa [hreach.number] at this

private theorem yields_last (hc : c.Coherent) (hk : ¬Refused (operation.check c)) :
    Yields c.number (Operation.performAll compiler [operation]) c fun _ r _ => ¬Refused r := by
  apply (operation.yields_perform compiler hc).mono
  intro ds r c' hd
  exact hd.not_refused hk

private theorem yields_toFile (hc : c.Coherent) (h : c.Tracks past) (ho : c.stage.isOpen)
    (hf : c.outputType.isFile) (hk : operation.kind = .compile) (destination : Path) :
    Yields c.number (Operation.performAll compiler [operation, .outputFile destination]) c
      fun _ r _ => ¬Refused r := by
  apply yields_cons compiler hc (Operation.not_refused_compile hk ho)
  intro ds value c' hd hc'
  obtain ⟨hs, _, htype⟩ := hd.unitCompiled hk
  rw [← htype] at hf
  have ha : c'.relocateAttempted = false := (hd.tracks h).unattempted hf
  exact yields_last compiler hc' (Operation.not_refused_outputFile ha hf hs destination)

private theorem yields_toProgram (hc : c.Coherent) (ho : c.stage.isOpen)
    (hm : c.outputType = .memory) (path : Path) (arguments : List String) :
    Yields c.number (Operation.performAll compiler [.addFile path, .relocate, .run arguments]) c
      fun _ r _ => ¬Refused r := by
  apply yields_cons compiler hc (Operation.not_refused_compile rfl ho)
  intro ds value c' hd hc'
  obtain ⟨hs, hfailed, htype⟩ := hd.unitCompiled rfl
  rw [← htype] at hm
  apply yields_cons compiler hc' (Operation.not_refused_relocate ⟨hs, hm, hfailed⟩)
  intro ds' value' c'' hd' hc''
  obtain ⟨hr, htype'⟩ := hd'.codePlaced
  rw [← htype'] at hm
  exact yields_last compiler hc'' (Operation.not_refused_run hm hr arguments)

/-- The operation that a job begins with. -/
def Job.first : Job → Operation
  | compileSourceTo _ kind _ | compileFileTo _ kind _ => .setOutputType kind
  | runFile _ _ => .setOutputType .memory

private theorem Job.yields_begun (hc : c.Coherent) (h : c.Tracks past) {files : FileSystem}
    {job : Job} (hj : job.check files c = .ok ()) (hk : ¬Refused (job.first.check c)) :
    Yields c.number (Operation.performAll compiler job.operations) c fun _ r _ => ¬Refused r := by
  cases job with
  | compileSourceTo source kind destination =>
    have hfile : kind.isFile := (Context.guards_ensure (b := true)).of_ok hj
    apply yields_cons compiler hc hk
    intro ds value c' hd hc'
    obtain ⟨rfl, ho, rfl⟩ := hd.typeSet
    exact yields_toFile compiler hc' (hd.tracks h) ho hfile rfl destination
  | compileFileTo path kind destination =>
    have hfile : kind.isFile := (Context.guards_ensure (b := true)).of_ok (ok_of_bind hj)
    apply yields_cons compiler hc hk
    intro ds value c' hd hc'
    obtain ⟨rfl, ho, rfl⟩ := hd.typeSet
    exact yields_toFile compiler hc' (hd.tracks h) ho hfile rfl destination
  | runFile path arguments =>
    apply yields_cons compiler hc hk
    intro ds value c' hd hc'
    obtain ⟨rfl, ho, hm⟩ := hd.typeSet
    exact yields_toProgram compiler hc' ho hm path arguments

end Rest

section Unchanged

variable {σ : Type} (compiler : Compiler σ) {s : Live σ} {operation : Operation} {e : BindError}

theorem Operation.perform_of_check_error (hk : operation.check s.context = .error e) :
    operation.perform compiler s = ⟨.error e, s, []⟩ := by
  simp [Operation.perform, Bind.bind, Action.bind, ContextAction.context, Action.get, Pure.pure,
    Action.pure, Action.ofExcept, hk]

theorem Operation.perform_of_check {task : Task} (hk : operation.check s.context = .ok task) :
    operation.perform compiler s = task.perform compiler s := by
  simp [Operation.perform, Bind.bind, Action.bind, ContextAction.context, Action.get, Pure.pure,
    Action.pure, Action.ofExcept, hk]

theorem Operation.performAll_of_check_error (hk : operation.check s.context = .error e)
    (rest : List Operation) :
    performAll compiler (operation :: rest) s = ⟨.error e, s, []⟩ := by
  have hp := operation.perform_of_check_error compiler hk
  cases rest with
  | nil => exact hp
  | cons next rest => simp [performAll, Bind.bind, Action.bind, hp]

/-- An operation that is refused, or whose arguments are, changes nothing. -/
theorem Operation.unchanged (hc : s.context.Coherent)
    (hr : (operation.perform compiler s).result = .error e)
    (he : e.isRefusal ∨ e.isInvalidArgument) :
    operation.perform compiler s = ⟨.error e, s, []⟩ := by
  have hd := (operation.yields_perform compiler hc s.world).post
  rw [hr] at hd
  generalize deeds s.context.number _ = ds at hd
  generalize (operation.perform compiler ⟨s.context, s.world⟩).state.context = c' at hd
  cases hd with
  | refused hk => exact operation.perform_of_check_error compiler hk
  | performed hk hd =>
    obtain ⟨hrefusal, hargument⟩ := hd.begun
    rw [hrefusal, hargument] at he
    exact he.elim Bool.noConfusion Bool.noConfusion

theorem Job.operations_eq_cons (job : Job) : ∃ rest, job.operations = job.first :: rest := by
  cases job <;> exact ⟨_, rfl⟩

/-- A job that is refused changes nothing. -/
theorem Job.unchanged (hc : s.context.Coherent) {past : List Deed} (h : s.context.Tracks past)
    {job : Job} (hr : (job.perform compiler s).result = .error e) (he : e.isRefusal) :
    job.perform compiler s = ⟨.error e, s, []⟩ := by
  rw [job.perform_eq] at hr ⊢
  cases hj : job.check (s.world.files compiler) s.context with
  | error e' =>
    rw [hj] at hr
    rw [Except.error.inj hr]
  | ok u =>
    rw [hj] at hr
    obtain ⟨rest, hrest⟩ := job.operations_eq_cons
    cases hk : job.first.check s.context with
    | error e' =>
      have hall := Operation.performAll_of_check_error compiler hk rest
      simp only [hrest, hall] at hr ⊢
      rw [Except.error.inj hr]
    | ok task =>
      have hbegun : ¬Refused (job.first.check s.context) := by
        rw [hk]
        exact not_refused_ok task
      have hpost := (job.yields_begun compiler hc h hj hbegun s.world).post
      exact absurd ⟨e, hr, he⟩ hpost

end Unchanged

/-- Contexts know their past all through a session. -/
theorem law_tracks : Law Context.Tracks fun _ => True where
  idle := trivial
  fresh := .fresh
  task := fun _ h ht hd => h.task ht hd
  release := fun _ _ _ => trivial

namespace Session

variable {σ : Type} (compiler : Compiler σ)

/-- Work that fails without a trace leaves no trace in the session. -/
theorem on_of_error {s : Session σ} {i : Nat} {c : Context} (hi : s.context? i = some c)
    {x : ContextAction σ Value} {e : BindError}
    (hx : x ⟨c, s.world⟩ = ⟨.error e, ⟨c, s.world⟩, []⟩) :
    s.on i x = ⟨.error (.bind e), s, []⟩ := by
  have hset : s.contexts.set i (some c) = s.contexts := by
    obtain ⟨hlt, hget⟩ := List.getElem?_eq_some_iff.1 (Option.join_eq_some_iff.1 hi)
    rw [← hget, List.set_getElem_self]
  simp only [on, hi, hx, hset]
  rfl

private theorem on_unchanged {s : Session σ} {i : Nat} {x : ContextAction σ Value} {e : BindError}
    (hr : (s.on i x).result = .error (.bind e))
    (hx : ∀ c, s.context? i = some c → (x ⟨c, s.world⟩).result = .error e →
      x ⟨c, s.world⟩ = ⟨.error e, ⟨c, s.world⟩, []⟩) :
    s.on i x = ⟨.error (.bind e), s, []⟩ := by
  cases hi : s.context? i with
  | none => simp [on, hi] at hr
  | some c =>
    have hresult : (x ⟨c, s.world⟩).result = .error e := by
      simp only [on, hi] at hr
      cases ho : (x ⟨c, s.world⟩).result with
      | ok value =>
        rw [ho] at hr
        cases hr
      | error e' =>
        rw [ho] at hr
        rw [MoveError.bind.inj (Except.error.inj hr)]
    exact on_of_error hi (hx c hi hresult)

/-- All through a session, whatever is refused leaves everything as it was and nothing to be seen;
so does an operation, though not a job, whose argument cannot be passed on. -/
theorem refusal_changes_nothing (toolchain : Toolchain) (w : World σ) (moves : List Move) (i : Nat)
    (e : BindError) :
    let s := (play compiler ⟨toolchain, w, []⟩ moves).1
    (∀ operation : Operation,
      (move compiler (.perform i operation) s).result = .error (.bind e) →
      e.isRefusal ∨ e.isInvalidArgument →
        move compiler (.perform i operation) s = ⟨.error (.bind e), s, []⟩) ∧
    ∀ job : Job, (move compiler (.runJob i job) s).result = .error (.bind e) → e.isRefusal →
      move compiler (.runJob i job) s = ⟨.error (.bind e), s, []⟩ := by
  intro s
  have hs := law_tracks.play compiler toolchain w moves
  constructor
  · intro operation hr he
    apply on_unchanged hr
    intro c hi hresult
    exact operation.unchanged compiler (s := ⟨c, s.world⟩) (hs.coherent i c hi) hresult he
  · intro job hr he
    apply on_unchanged hr
    intro c hi hresult
    have hc : c.Coherent := hs.coherent i c hi
    exact job.unchanged compiler (s := ⟨c, s.world⟩) hc (hs.held i c hi) hresult he

/-- A program in memory is not written to a file, by an operation or by a job. -/
theorem emission_refused_after_relocation :
    let toolchain : Toolchain := ⟨⟨.wide, ⟨[]⟩⟩, ⟨⟨[]⟩⟩, {}⟩
    let s := (play .agreeable ⟨toolchain, ⟨(), []⟩, []⟩
      [.openContext true, .perform 0 (.compileString "int x;"), .perform 0 .relocate]).1
    let written : BindError := .outOfOrder "output_file" .relocated Reason.attempted
    let built : BindError := .outOfOrder "set_output_type" .relocated Reason.finished
    move .agreeable (.perform 0 (.outputFile ⟨[]⟩)) s = ⟨.error (.bind written), s, []⟩ ∧
      move .agreeable (.runJob 0 (.compileSourceTo "" .object ⟨[]⟩)) s =
        ⟨.error (.bind built), s, []⟩ := by
  intro toolchain s written built
  have hwritten := refusal_changes_nothing .agreeable toolchain ⟨(), []⟩
    [.openContext true, .perform 0 (.compileString "int x;"), .perform 0 .relocate] 0 written
  have hbuilt := refusal_changes_nothing .agreeable toolchain ⟨(), []⟩
    [.openContext true, .perform 0 (.compileString "int x;"), .perform 0 .relocate] 0 built
  exact ⟨hwritten.1 _ rfl (.inl rfl), hbuilt.2 _ rfl rfl⟩

end Session

end EmbeddedC
