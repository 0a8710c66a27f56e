import EmbeddedC.Proofs.Diagnostics
/-!
# Disposed contexts

Nothing is done any more with a context once it has been disposed of. Operations and jobs are
refused for the time, but for two things that are looked at before it: the size of the type that a
symbol is looked up as, and whether a job's source exists. What the context has been told stays
readable.
-/

namespace EmbeddedC

/-- A context as it is left when it is disposed of. -/
def Context.gone (c : Context) : Context :=
  { c with handle? := none, symbols := .empty, hook? := none, stage := .disposed }

/-- What is wrong with an operation at any time: a symbol is looked up as a type that no address
fits. -/
def Operation.misfit? : Operation → Option BindError
  | resolveFunction typeName size _ =>
    if size = pointerBits / 8 then none
    else some (.invalidArgument ("type " ++ typeName) Reason.notPointerSized)
  | _ => none

/-- What is wrong with a job at any time: its source is missing. A kind without a file form is
refused before that. -/
def Job.missing? (files : FileSystem) : Job → Option BindError
  | compileSourceTo _ _ _ => none
  | compileFileTo path kind _ =>
    if kind.isFile && !files.isFile path then some (.io path .noSource) else none
  | runFile path _ => if files.isFile path then none else some (.io path .noSource)

/-- Refused on a disposed context, unless something else is wrong and comes first. -/
def BarredBy (wrong? : Option BindError) (e : BindError) : Prop :=
  ∃ operation reason, e = wrong?.getD (.outOfOrder operation .disposed reason)

section Checks

variable {c : Context} (hd : c.stage = .disposed)
include hd

private theorem ensureLive_disposed (operation : String) :
    c.ensureLive operation = .error (.outOfOrder operation .disposed Reason.released) := by
  simp [Context.ensureLive, Context.ensure, Context.violation, hd, Stage.isDisposed]

theorem Operation.check_disposed (operation : Operation) :
    ∃ e, operation.check c = .error e ∧ BarredBy operation.misfit? e := by
  have hlive := ensureLive_disposed hd
  have hbarred : ∀ name reason, BarredBy none (.outOfOrder name .disposed reason) :=
    fun name reason => ⟨name, reason, rfl⟩
  have hlookUp : ∀ name, ∃ e, c.checkLookUp name = .error e ∧ BarredBy none e := by
    intro name
    rw [Context.checkLookUp, hlive]
    exact ⟨_, rfl, hbarred _ _⟩
  cases operation with
  | dispose =>
    simp only [check, Context.ensure, Context.violation, hd]
    exact ⟨_, rfl, hbarred _ _⟩
  | getSymbol name => exact hlookUp name
  | resolveFunction typeName size name =>
    by_cases hs : size = pointerBits / 8
    · simp only [check, misfit?, if_pos hs]
      exact hlookUp name
    · simp only [check, misfit?, if_neg hs]
      exact ⟨_, rfl, "", "", rfl⟩
  | _ =>
    simp only [check, Context.checkSetting, Context.ensureOpen, Context.ensureInjectable,
      Context.ensureRelocatable, hlive]
    exact ⟨_, rfl, hbarred _ _⟩

/-- A job is refused for its kind, or for its source, or else by its first operation. -/
theorem Job.check_disposed (files : FileSystem) (job : Job) :
    job.check files c = .ok () ∧ job.missing? files = none ∨
      ∃ e, job.check files c = .error e ∧ BarredBy (job.missing? files) e := by
  have hkind : ∀ operation, c.ensure false operation Reason.noFileForm =
      .error (.outOfOrder operation .disposed Reason.noFileForm) := by
    intro operation
    rw [← hd]
    rfl
  have hmissing : ∀ path, BarredBy (some (.io path .noSource)) (.io path .noSource) :=
    fun path => ⟨"", "", rfl⟩
  cases job with
  | compileSourceTo source kind destination =>
    rw [check_compileSourceTo]
    cases kind.isFile with
    | true => exact .inl ⟨rfl, rfl⟩
    | false => exact .inr ⟨_, hkind _, _, _, rfl⟩
  | compileFileTo path kind destination =>
    rw [check_compileFileTo, missing?]
    cases kind.isFile with
    | true =>
      cases files.isFile path with
      | true => exact .inl ⟨rfl, rfl⟩
      | false => exact .inr ⟨_, rfl, hmissing path⟩
    | false =>
      rw [hkind]
      exact .inr ⟨_, rfl, _, _, rfl⟩
  | runFile path arguments =>
    rw [check_runFile, missing?]
    cases files.isFile path with
    | true => exact .inl ⟨rfl, rfl⟩
    | false => exact .inr ⟨_, rfl, hmissing path⟩

end Checks

section Work

variable {σ : Type} (compiler : Compiler σ) {s : Live σ} (hd : s.context.stage = .disposed)
include hd

theorem Operation.perform_disposed (operation : Operation) :
    ∃ e, operation.perform compiler s = ⟨.error e, s, []⟩ ∧ BarredBy operation.misfit? e := by
  obtain ⟨e, hk, he⟩ := operation.check_disposed hd
  exact ⟨e, operation.perform_of_check_error compiler hk, he⟩

theorem Job.perform_disposed (job : Job) :
    ∃ e, job.perform compiler s = ⟨.error e, s, []⟩ ∧
      BarredBy (job.missing? (s.world.files compiler)) e := by
  rw [job.perform_eq]
  rcases job.check_disposed hd (s.world.files compiler) with ⟨hj, hfound⟩ | ⟨e, hj, he⟩
  · obtain ⟨e, hk, he⟩ := job.first.check_disposed hd
    obtain ⟨rest, hrest⟩ := job.operations_eq_cons
    have hfits : job.first.misfit? = none := by
      cases job <;> rfl
    rw [hj, hrest, hfound, ← hfits]
    exact ⟨e, Operation.performAll_of_check_error compiler hk rest, he⟩
  · rw [hj]
    exact ⟨e, rfl, he⟩

end Work

/-- Disposing of a live context works, and leaves all that the context was told readable. -/
theorem Operation.Does.gone {c c' : Context} {ds : List Deed} {r : Except BindError Value}
    (hl : c.stage ≠ .disposed) (hd : dispose.Does c ds r c') : r = .ok .none ∧ c' = c.gone := by
  have hlive : dispose.check c = .ok .dispose := by
    rw [check, Context.guards_live (b := true) |>.1 hl]
    rfl
  cases hd with
  | refused hk => cases hlive.symm.trans hk
  | performed hk hd =>
    cases hlive.symm.trans hk
    cases hd with
    | disposed => exact ⟨rfl, rfl⟩
    | typeRefused _ ht => exact Bool.noConfusion ht

namespace Session

variable {σ : Type} (compiler : Compiler σ) {s s' : Session σ} {i : Nat} {d : Context}

/-- A disposed context is there, as it is, until it is dropped. -/
theorem Leads.disposed {m : Move} {events : List Event} (hm : s.Leads m events s')
    (hi : s.context? i = some d) (hd : d.stage = .disposed) (hdrop : m ≠ .drop i) :
    s'.context? i = some d := by
  cases hm with
  | idle _ hcs | abandoned _ _ _ _ _ hcs => rwa [context?, hcs]
  | @worked _ j c c' _ _ _ hj _ hr hcs =>
    rw [context?_set hj hcs]
    split
    · next hij =>
      cases (hij ▸ hi).symm.trans hj
      rw [hr.eq_of_disposed hd]
    · exact hi
  | @dropped j c _ _ hj _ _ hcs =>
    have hij : i ≠ j := fun h => hdrop (h ▸ rfl)
    rw [context?_set hj hcs, if_neg hij]
    exact hi
  | opened _ _ _ _ hcs =>
    rw [context?_append hcs, if_neg (Nat.ne_of_lt (lt_of_context? hi))]
    exact hi

variable {events : List Event}

theorem disposed_play (hs : s.Obeys Context.Tracks (fun _ => True) events)
    (hi : s.context? i = some d) (hd : d.stage = .disposed) {moves : List Move}
    (hdrop : .drop i ∉ moves) : (s.play compiler moves).1.context? i = some d := by
  induction moves generalizing s events with
  | nil => exact hi
  | cons m rest ih =>
    have hm : m ≠ .drop i := fun h => hdrop (h ▸ .head _)
    have hstep := (leads_move compiler m s hs.coherent).disposed hi hd hm
    exact ih (hs.move compiler law_tracks m) hstep fun h => hdrop (.tail _ h)

/-- A context counts the messages sent to its state, and nothing else. -/
theorem delivered_play (hs : s.Obeys Context.Tracks (fun _ => True) events) (moves : List Move)
    (handle : Handle) :
    (s.play compiler moves).1.world.delivered handle =
      s.world.delivered handle + (messages handle (s.play compiler moves).2).length := by
  induction moves generalizing s events with
  | nil => rfl
  | cons m rest ih =>
    have hstep := (turn_relays compiler hs m).counted handle
    have hrest := ih (hs.move compiler law_tracks m)
    simp only [play, messages_append, List.length_append]
    rw [hrest, hstep, Nat.add_assoc]
    rfl

/-- Once a live context has been disposed of, it stays in the session as it was left, with its
interface and its output type, and without symbols. It has counted the messages that were sent and
no others; whatever is asked of it is refused and changes nothing. -/
theorem disposal_is_final (toolchain : Toolchain) (w : World σ) (before later : List Move)
    (i : Nat) (c : Context) :
    let s := (play compiler ⟨toolchain, w, []⟩ before).1
    let o := s.play compiler (.perform i .dispose :: later)
    s.context? i = some c → c.stage ≠ .disposed → .drop i ∉ later →
      o.1.context? i = some c.gone ∧
        o.1.world.delivered c.number =
          s.world.delivered c.number + (messages c.number o.2).length ∧
        (∀ operation : Operation, ∃ e, BarredBy operation.misfit? e ∧
          move compiler (.perform i operation) o.1 = ⟨.error (.bind e), o.1, []⟩) ∧
        ∀ job : Job, ∃ e, BarredBy (job.missing? (o.1.world.files compiler)) e ∧
          move compiler (.runJob i job) o.1 = ⟨.error (.bind e), o.1, []⟩ := by
  intro s o hi hl hdrop
  have hs := law_tracks.play compiler toolchain w before
  have hgone : (move compiler (.perform i .dispose) s).state.context? i = some c.gone := by
    let p := Operation.dispose.perform compiler ⟨c, s.world⟩
    have hdone := (Operation.dispose.yields_perform compiler (hs.coherent i c hi) s.world).post
    have hset : (move compiler (.perform i .dispose) s).state.contexts =
        s.contexts.set i (some p.state.context) := by
      simp only [move, on, hi, p]
    rw [context?_set hi hset, if_pos rfl, (hdone.gone hl).2]
  have hlast : o.1.context? i = some c.gone :=
    disposed_play compiler (hs.move compiler law_tracks _) hgone rfl hdrop
  refine ⟨hlast, delivered_play compiler hs _ c.number, ?_, ?_⟩
  · intro operation
    obtain ⟨e, hp, he⟩ := operation.perform_disposed compiler (s := ⟨c.gone, o.1.world⟩) rfl
    exact ⟨e, he, on_of_error hlast hp⟩
  · intro job
    obtain ⟨e, hp, he⟩ := job.perform_disposed compiler (s := ⟨c.gone, o.1.world⟩) rfl
    exact ⟨e, he, on_of_error hlast hp⟩

/-- The second disposal of a context is refused, whatever has been tried in between. -/
theorem second_disposal_refused :
    let toolchain : Toolchain := ⟨⟨.wide, ⟨[]⟩⟩, ⟨⟨[]⟩⟩, {}⟩
    let s := (play .agreeable ⟨toolchain, ⟨(), []⟩, []⟩ [.openContext true]).1
    let o := s.play .agreeable [.perform 0 .dispose, .perform 0 (.compileString "int x;")]
    s.context? 0 = some (.fresh toolchain.table 0) ∧ ∃ operation reason,
      move .agreeable (.perform 0 .dispose) o.1 =
        ⟨.error (.bind (.outOfOrder operation .disposed reason)), o.1, []⟩ := by
  intro toolchain s o
  have hi : s.context? 0 = some (.fresh toolchain.table 0) := rfl
  obtain ⟨_, _, hoperation, _⟩ := disposal_is_final .agreeable toolchain ⟨(), []⟩
    [.openContext true] [.perform 0 (.compileString "int x;")] 0 (.fresh toolchain.table 0) hi
    (by decide) (by simp)
  obtain ⟨e, ⟨operation, reason, rfl⟩, hmove⟩ := hoperation .dispose
  exact ⟨hi, operation, reason, hmove⟩

/-- A disposed context can refuse for something else than its stage: it is asked to run a file that
does not exist, or to look a symbol up as a single byte. -/
theorem disposal_not_always_named :
    let toolchain : Toolchain := ⟨⟨.wide, ⟨[]⟩⟩, ⟨⟨[]⟩⟩, {}⟩
    let s := (play .agreeable ⟨toolchain, ⟨(), []⟩, []⟩
      [.openContext true, .perform 0 .dispose]).1
    ¬((∀ job : Job, ∃ operation reason, (move .agreeable (.runJob 0 job) s).result =
        .error (.bind (.outOfOrder operation .disposed reason)))) ∧
      ¬∀ operation : Operation, ∃ name reason,
        (move .agreeable (.perform 0 operation) s).result =
          .error (.bind (.outOfOrder name .disposed reason)) := by
  intro toolchain s
  constructor
  · intro h
    obtain ⟨_, _, hrun⟩ := h (.runFile (.ofString "absent.c") [])
    have hmissing : (move .agreeable (.runJob 0 (.runFile (.ofString "absent.c") [])) s).result =
        .error (.bind (.io (.ofString "absent.c") .noSource)) := rfl
    exact nomatch hmissing.symm.trans hrun
  · intro h
    obtain ⟨_, _, hlookUp⟩ := h (.resolveFunction "u8" 1 "f")
    have hmisfit : (move .agreeable (.perform 0 (.resolveFunction "u8" 1 "f")) s).result =
        .error (.bind (.invalidArgument ("type " ++ "u8") Reason.notPointerSized)) := rfl
    exact nomatch hmisfit.symm.trans hlookUp

end Session

end EmbeddedC
