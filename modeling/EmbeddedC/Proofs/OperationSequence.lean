import EmbeddedC.Proofs.Opening
/-!
# Operations in a row

Operations in a row are done one after the other, up to the first that fails. A job is such a row
behind a check of its own, and a new context is prepared by one. No row does what only the host does
by hand: attach something to a context, inject symbols, or dispose of the context.
-/

namespace EmbeddedC

/-- What operations in a row can come to. -/
inductive Operation.DoAll :
    Context → List Operation → List Deed → Except BindError Value → Context → Prop
  | nil (c : Context) : DoAll c [] [] (.ok .none) c
  | last {c c' : Context} {operation : Operation} {ds : List Deed} {r : Except BindError Value}
    (hd : operation.Does c ds r c') : DoAll c [operation] ds r c'
  | stop {c c' : Context} {operation next : Operation} {rest : List Operation} {ds : List Deed}
    {e : BindError} (hd : operation.Does c ds (.error e) c') :
    DoAll c (operation :: next :: rest) ds (.error e) c'
  | step {c c' c'' : Context} {operation next : Operation} {rest : List Operation}
    {ds ds' : List Deed} {value : Value} {r : Except BindError Value}
    (hd : operation.Does c ds (.ok value) c') (hr : DoAll c' (next :: rest) ds' r c'') :
    DoAll c (operation :: next :: rest) (ds ++ ds') r c''

/-- What a job can come to, with the files there are. -/
inductive Job.Does (files : FileSystem) (c : Context) (job : Job) :
    List Deed → Except BindError Value → Context → Prop
  | refused {e : BindError} (hj : job.check files c = .error e) : job.Does files c [] (.error e) c
  | performed {ds : List Deed} {r : Except BindError Value} {c' : Context}
    (hj : job.check files c = .ok ()) (hd : Operation.DoAll c job.operations ds r c') :
    job.Does files c ds r c'

section Yields

variable {σ : Type} (compiler : Compiler σ) {c : Context}

theorem Operation.yields_doAll (hc : c.Coherent) (operations : List Operation) :
    ContextAction.Yields c.number (performAll compiler operations) c (DoAll c operations) := by
  induction operations generalizing c with
  | nil => exact ContextAction.Yields.pure (.nil c)
  | cons operation rest ih =>
    have hp := operation.yields_perform compiler hc
    cases rest with
    | nil => exact hp.mono fun _ _ _ => .last
    | cons next rest =>
      refine ContextAction.Yields.bind (hp.mono fun ds r c' hd => ?_)
      cases r with
      | error e => exact .stop hd
      | ok value =>
        have hrest := ih (hd.reaches.coherent hc)
        rw [hd.reaches.number] at hrest
        exact hrest.mono fun _ _ _ => .step hd

theorem Job.does_perform (hc : c.Coherent) (job : Job) (w : World σ) :
    (job.perform compiler ⟨c, w⟩).Meets c.number w (job.Does (w.files compiler) c) := by
  rw [Job.perform_eq]
  cases hj : job.check (w.files compiler) c with
  | error e => exact ⟨.refused hj, by simp, rfl⟩
  | ok u =>
    exact (Operation.yields_doAll compiler hc job.operations).mono
      (fun _ _ _ => .performed hj) w

end Yields

/-- The ways of opening a context with a row of operations: no state can be had; the row is done and
the context is there; or the row fails and the context is released. -/
inductive Session.Begins {σ : Type} (compiler : Compiler σ) (s : Session σ) (row : List Operation) :
    Outcome Event (Session σ) MoveError Reply → Prop
  | failed {e : MoveError} {s' : Session σ} {events : List Event}
    (hn : s.toolchain.table.abi.isHost = false ∨ (compiler.create s.world.outside).1 = false)
    (hc : s'.contexts = s.contexts) : s.Begins compiler row ⟨.error e, s', events⟩
  | opened {c : Context} {ds : List Deed} {value : Value} {s' : Session σ} {events : List Event}
    (answer : Answer) (hh : s.toolchain.table.abi.isHost)
    (hall : Operation.DoAll (.fresh s.toolchain.table s.world.channels.length) row ds (.ok value) c)
    (hd : deeds s.world.channels.length events = .created :: .called .setErrorFunc answer :: ds)
    (hc : s'.contexts = s.contexts ++ [some c]) :
    s.Begins compiler row ⟨.ok (.opened s.contexts.length), s', events⟩
  | abandoned {c : Context} {ds : List Deed} {e : BindError} {s' : Session σ}
    {events : List Event} (answer : Answer) (released : List Deed)
    (hall : Operation.DoAll (.fresh s.toolchain.table s.world.channels.length) row ds (.error e) c)
    (hd : deeds s.world.channels.length events =
      .created :: .called .setErrorFunc answer :: (ds ++ released))
    (hc : s'.contexts = s.contexts) : s.Begins compiler row ⟨.error (.bind e), s', events⟩

theorem Session.begins_openContext {σ : Type} (compiler : Compiler σ) (s : Session σ)
    (bare : Bool) :
    s.Begins compiler (if bare then [] else s.toolchain.plan) (s.openContext compiler bare) := by
  have hfailed : ∀ {e w events},
      Context.create compiler s.toolchain.table s.world = ⟨.error e, w, events⟩ →
        (s.toolchain.table.abi.isHost = false ∨ (compiler.create s.world.outside).1 = false) →
          s.Begins compiler (if bare then [] else s.toolchain.plan)
            (s.openContext compiler bare) := by
    intro e w events hc hn
    have ho : s.openContext compiler bare =
        ⟨.error (.bind e), { s with world := w }, events⟩ := by
      cases bare <;> simp [openContext, Toolchain.openContext, Bind.bind, Action.bind, hc]
    rw [ho]
    exact .failed hn rfl
  cases hh : s.toolchain.table.abi.isHost with
  | false => exact hfailed (Context.create_mismatch compiler hh s.world) (.inl hh)
  | true =>
    rcases hc : compiler.create s.world.outside with ⟨_ | _, outside⟩
    · exact hfailed (Context.create_exhausted compiler hh hc) (.inr (by rw [hc]))
    · obtain ⟨answer, w, said, ho, hquiet, _⟩ := Context.create_fresh compiler hh hc
      have hsaid := deeds_of_quiet hquiet s.world.channels.length
      cases bare with
      | true =>
        simp only [openContext, if_true, ho]
        refine .opened answer hh (.nil _) ?_ rfl
        simp [deeds_cons, Event.deed?, hsaid]
      | false =>
        have hall := (Operation.yields_doAll compiler
          (Context.Coherent.fresh s.toolchain.table s.world.channels.length) s.toolchain.plan
            w).post
        simp only [openContext, Bool.false_eq_true, if_false, Toolchain.openContext, Bind.bind,
          Action.bind, ho, Context.prepare]
        rcases hp : Operation.performAll compiler s.toolchain.plan
          ⟨.fresh s.toolchain.table s.world.channels.length, w⟩ with ⟨r, l, more⟩
        rw [hp] at hall
        cases r with
        | ok value =>
          refine .opened answer hh hall ?_ rfl
          simp [deeds_cons, Event.deed?, hsaid, Context.fresh]
        | error e =>
          refine .abandoned answer
            (deeds s.world.channels.length (ContextAction.release compiler l).events) hall ?_ rfl
          simp [deeds_cons, Event.deed?, hsaid, Context.fresh]

/-- Whether an operation is of a kind that rows are made of. -/
def Operation.isRoutine (operation : Operation) : Bool :=
  match operation.kind with
  | .attachment | .injection | .disposal => false
  | _ => true

theorem Job.isRoutine_of_mem {job : Job} {operation : Operation}
    (h : operation ∈ job.operations) : operation.isRoutine := by
  have hall : job.operations.all Operation.isRoutine := by
    cases job <;> rfl
  exact List.all_eq_true.1 hall operation h

/-- A config is made of settings. -/
theorem Toolchain.isRoutine_of_mem {t : Toolchain} {operation : Operation}
    (h : operation ∈ t.plan) : operation.isRoutine := by
  have hmem : operation.setting? ∈ t.settings.map some := by
    rw [← t.plan_settings]
    exact List.mem_map_of_mem h
  obtain ⟨setting, _, hs⟩ := List.mem_map.1 hmem
  simp [Operation.isRoutine, Operation.kind_of_setting? hs.symm]

/-- What is attached to a context is still there, and the context has not been disposed of since. -/
structure Context.Retains (c c' : Context) : Prop where
  symbols : c'.symbols = c.symbols
  hook? : c'.hook? = c.hook?
  disposed : c'.stage = .disposed ↔ c.stage = .disposed

namespace Context.Retains

variable {c c' c'' : Context}

theorem refl (c : Context) : c.Retains c := ⟨rfl, rfl, Iff.rfl⟩

theorem trans (h : c.Retains c') (h' : c'.Retains c'') : c.Retains c'' :=
  ⟨h'.symbols.trans h.symbols, h'.hook?.trans h.hook?, h'.disposed.trans h.disposed⟩

theorem configured (c : Context) : c.Retains c.configured :=
  ⟨c.configured_symbols, c.configured_hook?, c.configured_disposed_iff⟩

end Context.Retains

section Retains

variable {c c' : Context} {ds : List Deed} {r : Except BindError Value}

theorem Context.FixesType.retains (hf : c.FixesType ds c') : c.Retains c' := by
  cases hf with
  | known => exact .refl c
  | sent => exact ⟨rfl, rfl, Iff.rfl⟩

/-- A task that is routine, or that fails, leaves what is attached where it is. -/
theorem Task.Does.retains {task : Task} (ht : task.Timely c) (hd : task.Does c ds r c')
    (hk : task.kind ≠ .attachment ∧ task.kind ≠ .injection ∧ task.kind ≠ .disposal ∨
      ∃ e, r = .error e) : c.Retains c' := by
  have hl := ht.live
  have hmoved : ∀ {next : Stage}, next ≠ .disposed → (next = .disposed ↔ c.stage = .disposed) :=
    fun hn => iff_of_false hn hl
  cases hd with
  | sinkInstalled | hookInstalled | injected | disposed => simp [kind] at hk
  | typeKept | configureRefused | typeRefused | injectionRefused | noMain | emissionFailed =>
    exact .refl c
  | configured => exact .configured c
  | libraryAdded hf => exact hf.retains.trans (.configured _)
  | libraryRefused hf | compileFailed hf => exact hf.retains
  | typeChosen type =>
    have hchosen : c.Retains { c with outputType := type } := ⟨rfl, rfl, Iff.rfl⟩
    exact hchosen.trans (.configured _)
  | compiled hf => exact ⟨hf.retains.symbols, hf.retains.hook?, hmoved nofun⟩
  | sized | relocationFailed => exact ⟨rfl, rfl, Iff.rfl⟩
  | relocated | lookedUp | ran | emitted => exact ⟨rfl, rfl, hmoved nofun⟩

/-- A task that ends a context empties it. -/
theorem Task.Does.emptied {task : Task} (ht : task.Timely c) (hd : task.Does c ds r c')
    (hs : c'.stage = .disposed) : c'.symbols = .empty ∧ c'.hook? = none := by
  have hl := ht.live
  cases hd with
  | disposed => exact ⟨rfl, rfl⟩
  | libraryAdded hf | libraryRefused hf | compiled hf | compileFailed hf =>
    cases hf <;> simp_all [Context.configured_disposed_iff]
  | _ => simp_all [Context.configured_disposed_iff]

theorem Operation.Does.retains {operation : Operation} (hd : operation.Does c ds r c')
    (hk : operation.isRoutine ∨ ∃ e, r = .error e) : c.Retains c' := by
  cases hd with
  | refused => exact .refl c
  | performed hc hd =>
    obtain ⟨hkind, htimely⟩ := (operation.checks c).of_ok _ hc
    apply hd.retains htimely
    apply hk.imp_left
    intro hr
    rw [hkind]
    unfold isRoutine at hr
    split at hr <;> simp_all

theorem Operation.DoAll.retains {operations : List Operation} (hd : DoAll c operations ds r c')
    (hk : ∀ operation ∈ operations, operation.isRoutine) : c.Retains c' := by
  induction hd with
  | nil c => exact .refl c
  | last hd | stop hd => exact hd.retains (.inl (hk _ (.head _)))
  | step hd _ ih =>
    have hfirst := hd.retains (.inl (hk _ (.head _)))
    exact hfirst.trans (ih fun operation h => hk operation (.tail _ h))

theorem Job.Does.retains {files : FileSystem} {job : Job} (hd : job.Does files c ds r c') :
    c.Retains c' := by
  cases hd with
  | refused => exact .refl c
  | performed _ hd => exact hd.retains fun _ => Job.isRoutine_of_mem

end Retains

end EmbeddedC
