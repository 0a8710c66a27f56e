import EmbeddedC.Proofs.Operation
/-!
# The contexts that can be reached

A context in good order holds its state until it is disposed of. From there an operation either
leaves it as it was or does what one timely task does, and jobs and configs are operations in a row:
whatever timely tasks keep is kept by all of them.
-/

namespace EmbeddedC

/-- A context holds its own state as long as it lives, and none once it is disposed of. -/
def Context.Coherent (c : Context) : Prop :=
  c.handle? = if c.stage = .disposed then none else some c.number

namespace Context.Coherent

variable {c : Context}

theorem handle_of_live (hc : c.Coherent) (hl : c.stage ≠ .disposed) : c.handle? = some c.number := by
  rw [hc, if_neg hl]

theorem handle_eq_none_iff (hc : c.Coherent) : c.handle? = none ↔ c.stage = .disposed := by
  rw [hc]
  split <;> simp_all

theorem of_handle (hc : c.Coherent) {handle : Handle} (hh : c.handle? = some handle) :
    c.number = handle ∧ c.stage ≠ .disposed := by
  have hl : c.stage ≠ .disposed := fun hd => by simp [hc.handle_eq_none_iff.2 hd] at hh
  exact ⟨Option.some.inj ((hc.handle_of_live hl).symm.trans hh), hl⟩

theorem fresh (table : EntryTable) (handle : Handle) : (Context.fresh table handle).Coherent := rfl

end Context.Coherent

@[simp] theorem Context.configured_number (c : Context) : c.configured.number = c.number := by
  unfold configured
  split <;> rfl

@[simp] theorem Context.configured_handle? (c : Context) : c.configured.handle? = c.handle? := by
  unfold configured
  split <;> rfl

@[simp] theorem Context.configured_outputType (c : Context) :
    c.configured.outputType = c.outputType := by
  unfold configured
  split <;> rfl

@[simp] theorem Context.configured_typeFixed (c : Context) :
    c.configured.typeFixed = c.typeFixed := by
  unfold configured
  split <;> rfl

@[simp] theorem Context.configured_hook? (c : Context) : c.configured.hook? = c.hook? := by
  unfold configured
  split <;> rfl

@[simp] theorem Context.configured_relocateAttempted (c : Context) :
    c.configured.relocateAttempted = c.relocateAttempted := by
  unfold configured
  split <;> rfl

@[simp] theorem Context.configured_relocationFailed (c : Context) :
    c.configured.relocationFailed = c.relocationFailed := by
  unfold configured
  split <;> rfl

@[simp] theorem Context.configured_symbols (c : Context) : c.configured.symbols = c.symbols := by
  unfold configured
  split <;> rfl

@[simp] theorem Context.configured_configured (c : Context) :
    c.configured.configured = c.configured := by
  unfold configured
  split <;> simp_all

theorem Context.configured_of_ne {c : Context} (hc : c.stage ≠ .created) : c.configured = c :=
  if_neg hc

@[simp] theorem Context.configured_abi (c : Context) : c.configured.abi = c.abi := by
  unfold configured
  split <;> rfl

theorem Context.configured_stage (c : Context) :
    c.configured.stage = c.stage ∨ c.stage = .created ∧ c.configured.stage = .configured := by
  unfold configured
  split
  · exact .inr ⟨‹_›, rfl⟩
  · exact .inl rfl

theorem Context.configured_disposed_iff (c : Context) :
    c.configured.stage = .disposed ↔ c.stage = .disposed := by
  rcases c.configured_stage with h | ⟨hc, h⟩
  · rw [h]
  · simp [h, hc]

@[simp] theorem Context.configured_isOpen (c : Context) :
    c.configured.stage.isOpen = c.stage.isOpen := by
  rcases c.configured_stage with h | ⟨hc, h⟩
  · rw [h]
  · rw [h, hc]
    rfl

namespace Task

variable {c c' : Context} {task : Task} {ds : List Deed} {r : Except BindError Value}

theorem Timely.live (ht : task.Timely c) : c.stage ≠ .disposed := by
  intro hd
  cases task <;>
    simp [Timely, Context.Relocatable, Stage.isOpen, Stage.isRelocated, hd] at ht

theorem Timely.isOpen (ht : task.Timely c) (hn : task.needsType) : c.stage.isOpen := by
  cases task with
  | addLibrary | compile => exact ht
  | _ => exact Bool.noConfusion hn

theorem Does.number (hd : task.Does c ds r c') : c'.number = c.number := by
  cases hd with
  | libraryAdded hf | libraryRefused hf | compiled hf | compileFailed hf =>
    cases hf <;> simp
  | _ => simp

theorem Does.coherent (hc : c.Coherent) (ht : task.Timely c) (hd : task.Does c ds r c') :
    c'.Coherent := by
  have hh := hc.handle_of_live ht.live
  have hl := ht.live
  cases hd with
  | libraryAdded hf | libraryRefused hf | compiled hf | compileFailed hf =>
    cases hf <;> simp_all [Context.Coherent, Context.configured_disposed_iff]
  | _ => simp_all [Context.Coherent, Context.configured_disposed_iff]

end Task

/-- What an operation can come to. -/
inductive Operation.Does (c : Context) (operation : Operation) :
    List Deed → Except BindError Value → Context → Prop
  | refused {e : BindError} (hc : operation.check c = .error e) :
    operation.Does c [] (.error e) c
  | performed {task : Task} {ds : List Deed} {r : Except BindError Value} {c' : Context}
    (hc : operation.check c = .ok task) (hd : task.Does c ds r c') : operation.Does c ds r c'

theorem Task.Does.not_untimely {c c' : Context} {task : Task} {ds : List Deed}
    {r : Except BindError Value} (hd : task.Does c ds r c') {sealable : Bool} :
    ¬Untimely sealable r := by
  cases hd <;> first
    | exact not_untimely_ok _
    | exact fun h => Bool.noConfusion (untimely_error.1 h)

/-- An operation is refused for its time exactly when it is not timely. -/
theorem Operation.Does.untimely_iff {c c' : Context} {operation : Operation} {ds : List Deed}
    {r : Except BindError Value} (hd : operation.Does c ds r c') :
    Untimely (operation.sealable c) r ↔ ¬operation.Timely c := by
  rw [← (operation.checks c).untimely_iff]
  cases hd with
  | refused hk => rw [hk, untimely_error, untimely_error]
  | performed hk hd =>
    rw [hk]
    exact iff_of_false hd.not_untimely (not_untimely_ok _)

/-- Timely tasks in a row, with all their deeds. -/
inductive Context.Reaches : Context → List Deed → Context → Prop
  | refl (c : Context) : c.Reaches [] c
  | step {c c' c'' : Context} {task : Task} {ds ds' : List Deed} {r : Except BindError Value}
    (ht : task.Timely c) (hd : task.Does c ds r c') (hr : c'.Reaches ds' c'') :
    c.Reaches (ds ++ ds') c''

namespace Context.Reaches

variable {c c' c'' : Context} {ds ds' : List Deed}

theorem trans (h : c.Reaches ds c') (h' : c'.Reaches ds' c'') : c.Reaches (ds ++ ds') c'' := by
  induction h with
  | refl c => exact h'
  | step ht hd _ ih =>
    rw [List.append_assoc]
    exact .step ht hd (ih h')

theorem number (h : c.Reaches ds c') : c'.number = c.number := by
  induction h with
  | refl c => rfl
  | step _ hd _ ih => exact ih.trans hd.number

theorem coherent (hc : c.Coherent) (h : c.Reaches ds c') : c'.Coherent := by
  induction h with
  | refl c => exact hc
  | step ht hd _ ih => exact ih (hd.coherent hc ht)

/-- A context that is disposed of stays what it is. -/
theorem eq_of_disposed (h : c.Reaches ds c') (hd : c.stage = .disposed) : c' = c := by
  cases h with
  | refl => rfl
  | step ht => exact absurd hd ht.live

/-- Nothing is done with a context that is disposed of. -/
theorem deeds_of_disposed (h : c.Reaches ds c') (hd : c.stage = .disposed) : ds = [] := by
  cases h with
  | refl => rfl
  | step ht => exact absurd hd ht.live

end Context.Reaches

namespace Operation

variable {σ : Type} {c c' : Context} {operation : Operation} {ds : List Deed}
  {r : Except BindError Value}

theorem Does.reaches (hd : operation.Does c ds r c') : c.Reaches ds c' := by
  cases hd with
  | refused => exact .refl c
  | performed hk hd =>
    have := Context.Reaches.step ((operation.checks c).of_ok _ hk).2 hd (.refl _)
    rwa [List.append_nil] at this

/-- An operation on a coherent context is refused or does what one task does. -/
theorem yields_perform (compiler : Compiler σ) (hc : c.Coherent) (operation : Operation) :
    ContextAction.Yields c.number (operation.perform compiler) c (operation.Does c) := by
  refine ContextAction.Yields.context_bind (ContextAction.Yields.bind ?_)
  apply ContextAction.Yields.ofExcept
  cases hk : operation.check c with
  | error e => exact .refused hk
  | ok task =>
    have hl := (((operation.checks c).of_ok task hk).2).live
    exact (task.yields_perform compiler (hc.handle_of_live hl)).mono fun _ _ _ => .performed hk

theorem yields_performAll (compiler : Compiler σ) (hc : c.Coherent) (operations : List Operation) :
    ContextAction.Yields c.number (performAll compiler operations) c fun ds _ c' =>
      c.Reaches ds c' := by
  induction operations generalizing c with
  | nil => exact ContextAction.Yields.pure (.refl c)
  | cons operation rest ih =>
    have hp := operation.yields_perform compiler hc
    cases rest with
    | nil => exact hp.mono fun _ _ _ => Does.reaches
    | cons next rest =>
      refine ContextAction.Yields.bind (hp.mono fun ds r c' hd => ?_)
      have hr := hd.reaches
      cases r with
      | error e => exact hr
      | ok value =>
        rw [← hr.number]
        exact (ih (hr.coherent hc)).mono fun _ _ _ hr' => hr.trans hr'

end Operation

theorem Job.perform_eq {σ : Type} (compiler : Compiler σ) (job : Job) (s : Live σ) :
    job.perform compiler s =
      match job.check (s.world.files compiler) s.context with
      | .error e => ⟨.error e, s, []⟩
      | .ok () => Operation.performAll compiler job.operations s := by
  cases hj : job.check (s.world.files compiler) s.context <;>
    simp [Job.perform, Bind.bind, Action.bind, Action.get, Action.ofExcept, hj]

theorem Job.yields_perform {σ : Type} {c : Context} (compiler : Compiler σ) (hc : c.Coherent)
    (job : Job) :
    ContextAction.Yields c.number (job.perform compiler) c fun ds _ c' => c.Reaches ds c' := by
  refine ContextAction.Yields.get_bind fun w => ContextAction.Yields.bind ?_
  apply ContextAction.Yields.ofExcept
  cases job.check (w.files compiler) c with
  | error e => exact .refl c
  | ok u => exact Operation.yields_performAll compiler hc job.operations

end EmbeddedC
