import EmbeddedC.Proofs.Task
/-!
# When an operation is timely

The checks of an operation, read off once: exactly when it is refused for coming at the wrong time,
and what is known of the context when a check passes. An operation then leaves the context alone or
does what one task does.
-/

namespace EmbeddedC

/-- The errors that refuse an operation for its time alone. Injections have one of their own. -/
def BindError.isUntimely (sealable : Bool) : BindError → Bool
  | outOfOrder _ _ _ => true
  | injection (.isSealed _ _) => sealable
  | _ => false

def Untimely {α : Type} (sealable : Bool) (x : Except BindError α) : Prop :=
  ∃ e, x = .error e ∧ e.isUntimely sealable

/-- A check that passes exactly at certain times and otherwise refuses for the time. -/
def Guards (sealable : Bool) (x : Except BindError Unit) (timely : Prop) : Prop :=
  (timely → x = .ok ()) ∧ (¬timely → Untimely sealable x)

/-- A check that refuses for the time exactly outside certain times. It may fail in other ways. -/
structure Checks {α : Type} (sealable : Bool) (x : Except BindError α) (timely : Prop)
    (P : α → Prop) : Prop where
  untimely_iff : Untimely sealable x ↔ ¬timely
  of_ok : ∀ a, x = .ok a → P a

section Rules

variable {α β : Type} {b : Bool} {x y : Except BindError Unit} {p q : Prop} {P : α → Prop}
  {Q : β → Prop}

theorem not_untimely_ok (a : α) : ¬Untimely b (.ok a) := fun ⟨_, h, _⟩ => nomatch h

theorem untimely_error {e : BindError} : Untimely b (.error e : Except BindError α) ↔
    e.isUntimely b :=
  ⟨fun ⟨_, h, he⟩ => by cases h; exact he, fun he => ⟨e, rfl, he⟩⟩

theorem Untimely.bind {x : Except BindError α} (h : Untimely b x) (f : α → Except BindError β) :
    Untimely b (x >>= f) := by
  obtain ⟨e, rfl, he⟩ := h
  exact ⟨e, rfl, he⟩

theorem not_untimely_bind {x : Except BindError α} {f : α → Except BindError β}
    (hx : ¬Untimely b x) (hf : ∀ a, ¬Untimely b (f a)) : ¬Untimely b (x >>= f) := by
  cases x with
  | error e => exact fun h => hx (untimely_error.2 (untimely_error.1 h))
  | ok a => exact hf a

theorem not_untimely_map {x : Except BindError α} {f : α → β} (hx : ¬Untimely b x) :
    ¬Untimely b (f <$> x) := by
  cases x with
  | error e => exact fun h => hx (untimely_error.2 (untimely_error.1 h))
  | ok a => exact not_untimely_ok _

theorem Guards.bind (hx : Guards b x p) (hy : p → Guards b y q) :
    Guards b (x >>= fun _ => y) (p ∧ q) := by
  constructor
  · rintro ⟨hp, hq⟩
    rw [hx.1 hp]
    exact (hy hp).1 hq
  · intro hpq
    by_cases hp : p
    · rw [hx.1 hp]
      exact (hy hp).2 fun hq => hpq ⟨hp, hq⟩
    · exact (hx.2 hp).bind _

theorem Guards.checks {y : Except BindError α} (hx : Guards b x p) (hy : p → Checks b y q P) :
    Checks b (x >>= fun _ => y) (p ∧ q) P := by
  by_cases hp : p
  · rw [hx.1 hp]
    exact ⟨(hy hp).untimely_iff.trans (not_congr (and_iff_right hp).symm), (hy hp).of_ok⟩
  · obtain ⟨e, rfl, he⟩ := hx.2 hp
    exact ⟨iff_of_true ⟨e, rfl, he⟩ fun h => hp h.1, nofun⟩

theorem Checks.of_plain {x : Except BindError α} (hp : p) (hx : ¬Untimely b x)
    (h : ∀ a, x = .ok a → P a) : Checks b x p P :=
  ⟨iff_of_false hx (not_not_intro hp), h⟩

theorem Checks.bind {x : Except BindError α} {f : α → Except BindError β} (hx : Checks b x p P)
    (hf : ∀ a, P a → ¬Untimely b (f a)) (hQ : ∀ a b, P a → f a = .ok b → Q b) :
    Checks b (x >>= f) p Q := by
  cases x with
  | error e =>
    refine ⟨?_, nofun⟩
    rw [← hx.untimely_iff, untimely_error]
    exact untimely_error
  | ok a =>
    have hP := hx.of_ok a rfl
    refine ⟨?_, fun b => hQ a b hP⟩
    rw [← hx.untimely_iff]
    exact iff_of_false (hf a hP) (not_untimely_ok a)

theorem Guards.checks_plain {y : Except BindError α} (hx : Guards b x p) (hy : p → ¬Untimely b y)
    (h : p → ∀ a, y = .ok a → P a) : Checks b (x >>= fun _ => y) p P := by
  by_cases hp : p
  · rw [hx.1 hp]
    exact ⟨iff_of_false (hy hp) (not_not_intro hp), h hp⟩
  · obtain ⟨e, rfl, he⟩ := hx.2 hp
    exact ⟨iff_of_true ⟨e, rfl, he⟩ hp, nofun⟩

theorem Checks.of_iff {x : Except BindError α} (hx : Checks b x p P) (h : p ↔ q) : Checks b x q P :=
  ⟨hx.untimely_iff.trans (not_congr h), hx.of_ok⟩

end Rules

theorem eq_ok_of_bind {α : Type} {x : Except BindError Unit} {y : Except BindError α}
    {a : α} (h : (x >>= fun _ => y) = .ok a) : y = .ok a := by
  cases x with
  | error e => exact nomatch h
  | ok u => exact h

theorem bind_pure_eq_ok {α β : Type} {x : Except BindError α} {f : α → β} {b : β}
    (h : (x >>= fun a => pure (f a)) = .ok b) : ∃ a, x = .ok a ∧ f a = b := by
  cases x with
  | error e => exact nomatch h
  | ok a => exact ⟨a, rfl, Except.ok.inj h⟩

namespace Context

variable {b : Bool} {c : Context} {operation reason : String}

theorem guards_ensure {holds : Bool} :
    Guards b (c.ensure holds operation reason) (holds = true) := by
  cases holds with
  | true => exact ⟨fun _ => rfl, nofun⟩
  | false => exact ⟨nofun, fun _ => ⟨_, rfl, rfl⟩⟩

theorem guards_live :
    Guards b (c.ensure (!c.stage.isDisposed) operation reason) (c.stage ≠ .disposed) := by
  have h : (!c.stage.isDisposed) = true ↔ c.stage ≠ .disposed := by
    rw [Bool.not_eq_true', ← Bool.not_eq_true, Stage.isDisposed_iff]
  rw [← h]
  exact guards_ensure

theorem guards_ensureLive : Guards b (c.ensureLive operation) (c.stage ≠ .disposed) :=
  guards_live

theorem guards_ensureOpen : Guards b (c.ensureOpen operation) c.stage.isOpen := by
  have h : (c.stage ≠ .disposed ∧ c.stage.isOpen) ↔ c.stage.isOpen :=
    and_iff_right_of_imp Stage.live_of_isOpen
  rw [← h]
  exact guards_ensureLive.bind fun _ => guards_ensure

def Relocatable (c : Context) : Prop :=
  c.stage = .compiled ∧ c.outputType = .memory ∧ c.relocationFailed = false

theorem guards_ensureRelocatable : Guards b (c.ensureRelocatable operation) c.Relocatable := by
  have h : c.Relocatable ↔ c.stage ≠ .disposed ∧
      decide (c.stage ≠ .created ∧ c.stage ≠ .configured) = true ∧
      decide (c.stage = .compiled) = true ∧ decide (c.outputType = .memory) = true ∧
      (!c.relocationFailed) = true := by
    simp only [Relocatable, decide_eq_true_eq, Bool.not_eq_true']
    refine ⟨fun ⟨hs, ho, hf⟩ => ⟨by simp [hs], by simp [hs], hs, ho, hf⟩, ?_⟩
    rintro ⟨_, _, hs, ho, hf⟩
    exact ⟨hs, ho, hf⟩
  rw [h]
  exact guards_ensureLive.bind fun _ => guards_ensure.bind fun _ => guards_ensure.bind fun _ =>
    guards_ensure.bind fun _ => guards_ensure

theorem checks_ensureInjectable (hb : c.stage ≠ .disposed → b) {name : String} :
    Checks b (c.ensureInjectable name) c.stage.isOpen fun _ => c.stage.isOpen := by
  have hopen : c.stage ≠ .disposed → (c.stage.isSealed = false ↔ c.stage.isOpen) := fun hd => by
    rw [Stage.isSealed_eq_false_iff, or_iff_left hd]
  refine Checks.of_iff (p := c.stage ≠ .disposed ∧ c.stage.isOpen)
    (guards_ensureLive.checks fun hd => ?_) (and_iff_right_of_imp Stage.live_of_isOpen)
  cases hs : c.stage.isSealed with
  | true =>
    have ho : ¬c.stage.isOpen := fun ho => by simp [(hopen hd).2 ho] at hs
    exact ⟨iff_of_true ⟨_, rfl, hb hd⟩ ho, nofun⟩
  | false =>
    have ho := (hopen hd).1 hs
    refine .of_plain ho ?_ fun _ _ => ho
    cases isSymbolName name with
    | true => exact not_untimely_ok _
    | false => exact fun h => Bool.noConfusion (untimely_error.1 h)

end Context

theorem not_untimely_boundaryText {b : Bool} {what value : String} :
    ¬Untimely b (boundaryText what value) := by
  unfold boundaryText
  split
  · exact not_untimely_ok _
  · exact fun h => Bool.noConfusion (untimely_error.1 h)

theorem not_untimely_boundaryPath {b : Bool} {path : Path} : ¬Untimely b (boundaryPath path) := by
  unfold boundaryPath
  split
  · exact not_untimely_ok _
  · exact fun h => Bool.noConfusion (untimely_error.1 h)

theorem not_untimely_boundaryArguments {b : Bool} {arguments : List String} :
    ¬Untimely b (boundaryArguments arguments) := by
  have hfrom : ∀ i (as : List String), ¬Untimely b (boundaryArgumentsFrom i as) := by
    intro i as
    induction as generalizing i with
    | nil => exact not_untimely_ok _
    | cons a as ih =>
      exact not_untimely_bind not_untimely_boundaryText fun _ =>
        not_untimely_bind (ih _) fun _ => not_untimely_ok _
  refine not_untimely_bind (hfrom 0 arguments) fun ts => ?_
  split
  · exact fun h => Bool.noConfusion (untimely_error.1 h)
  · exact not_untimely_ok _

inductive Kind where
  | attachment
  | setting
  | library
  | outputType
  | compile
  | injection
  | relocation (target : Target)
  | lookUp
  | run
  | emission
  | disposal
  deriving DecidableEq, Repr

namespace Task

def kind : Task → Kind
  | installSink _ | installHook _ => .attachment
  | configure _ => .setting
  | addLibrary _ => .library
  | chooseType _ | keepType => .outputType
  | compile _ => .compile
  | inject _ _ => .injection
  | relocate target => .relocation target
  | lookUp _ => .lookUp
  | run _ => .run
  | outputFile _ => .emission
  | dispose => .disposal

/-- The contexts on which a task is ever performed. An injection goes by the name it is recorded
under. -/
def Timely (c : Context) : Task → Prop
  | installSink _ | installHook _ | dispose => c.stage ≠ .disposed
  | configure _ | addLibrary _ | compile _ => c.stage.isOpen
  | inject name symbol => c.stage.isOpen ∧ CText.ofString? symbol.name = some name
  | chooseType _ => c.stage.isOpen ∧ c.typeFixed = false
  | keepType => c.stage.isOpen ∧ c.typeFixed
  | relocate _ => c.Relocatable
  | lookUp _ => c.stage.isRelocated
  | run _ => c.outputType = .memory ∧ c.stage.isRelocated
  | outputFile _ => c.relocateAttempted = false ∧ c.outputType.isFile ∧
    (c.stage = .compiled ∨ c.stage = .finalized .emitted)

end Task

namespace Operation

def kind : Operation → Kind
  | setErrorSink _ | clearErrorSink | setBeforeCompile _ => .attachment
  | setLibPath _ | setOptions _ | addIncludePath _ | addSysIncludePath _ | addLibraryPath _
  | defineSymbol _ _ | undefineSymbol _ => .setting
  | addLibrary _ => .library
  | setOutputType _ => .outputType
  | compileString _ | addFile _ => .compile
  | injectFunction _ _ _ | injectData _ _ | injectRaw _ _ _ => .injection
  | relocate => .relocation .auto
  | relocationSize => .relocation .size
  | relocateInto memory => .relocation (.memory memory)
  | getSymbol _ | resolveFunction _ _ _ => .lookUp
  | run _ => .run
  | outputFile _ => .emission
  | dispose => .disposal

/-- An injection into a live context is refused as sealed. -/
def sealable (c : Context) (operation : Operation) : Bool :=
  operation.kind = .injection ∧ c.stage ≠ .disposed

/-- The contexts that do not refuse an operation for its time. -/
def Timely (c : Context) : Operation → Prop
  | setErrorSink _ | clearErrorSink | setBeforeCompile _ | dispose => c.stage ≠ .disposed
  | setLibPath _ | setOptions _ | addIncludePath _ | addSysIncludePath _ | addLibraryPath _
  | defineSymbol _ _ | undefineSymbol _ | addLibrary _ | compileString _ | addFile _
  | injectFunction _ _ _ | injectData _ _ | injectRaw _ _ _ => c.stage.isOpen
  | setOutputType type => c.stage.isOpen ∧ (c.typeFixed → type = c.outputType)
  | relocate | relocationSize | relocateInto _ => c.Relocatable
  | getSymbol _ => c.stage.isRelocated
  | resolveFunction _ size _ => size = pointerBits / 8 → c.stage.isRelocated
  | run _ => c.outputType = .memory ∧ c.stage.isRelocated
  | outputFile _ => c.relocateAttempted = false ∧ c.outputType.isFile ∧
    (c.stage = .compiled ∨ c.stage = .finalized .emitted)

variable {b : Bool} {c : Context}

private abbrev Sound (c : Context) (operation : Operation) (task : Task) : Prop :=
  task.kind = operation.kind ∧ task.Timely c

private theorem checks_setting {operation : Operation} {name : String}
    {setting : Except BindError Setting} (hk : operation.kind = .setting)
    (hs : ¬Untimely b setting) :
    Checks b (c.checkSetting name setting) c.stage.isOpen (Sound c operation) := by
  refine Context.guards_ensureOpen.checks_plain (fun _ => ?_) fun ho task h => ?_
  · exact not_untimely_bind hs fun _ => not_untimely_ok _
  · obtain ⟨s, _, rfl⟩ := bind_pure_eq_ok h
    exact ⟨hk.symm, ho⟩

private theorem not_untimely_ensureCallable {name : String} {convention : Convention} :
    ¬Untimely b (c.ensureCallable name convention) := by
  unfold Context.ensureCallable
  dsimp only
  split
  · exact not_untimely_ok _
  · exact fun h => Bool.noConfusion (untimely_error.1 h)

private theorem not_untimely_injection {symbol : InjectedSymbol} :
    ¬Untimely b (injection symbol) :=
  not_untimely_bind not_untimely_boundaryText fun _ => not_untimely_ok _

private theorem injection_sound {operation : Operation} {symbol : InjectedSymbol} {task : Task}
    (hk : operation.kind = .injection) (ho : c.stage.isOpen) (h : injection symbol = .ok task) :
    Sound c operation task := by
  unfold injection boundaryText at h
  split at h
  · next t ht =>
    cases h
    exact ⟨hk.symm, ho, ht⟩
  · exact nomatch h

private theorem checks_lookUp {operation : Operation} {name : String}
    (hk : operation.kind = .lookUp) :
    Checks b (c.checkLookUp name) c.stage.isRelocated (Sound c operation) := by
  have h : (c.stage ≠ .disposed ∧ c.stage.isRelocated) ↔ c.stage.isRelocated :=
    and_iff_right_of_imp Stage.live_of_isRelocated
  rw [← h]
  refine Context.guards_ensureLive.checks fun _ =>
    Context.guards_ensure.checks_plain (fun _ => ?_) fun hr task h => ?_
  · exact not_untimely_bind not_untimely_boundaryText fun _ => not_untimely_ok _
  · obtain ⟨t, _, rfl⟩ := bind_pure_eq_ok h
    exact ⟨hk.symm, hr⟩

private theorem checks_relocation {operation : Operation} {name : String} {target : Target}
    (hk : operation.kind = .relocation target) :
    Checks b (c.ensureRelocatable name >>= fun _ => pure (.relocate target)) c.Relocatable
      (Sound c operation) := by
  apply Context.guards_ensureRelocatable.checks_plain fun _ => not_untimely_ok _
  rintro hr task ⟨⟩
  exact ⟨hk.symm, hr⟩

/-- An operation is refused for its time exactly when it is not timely; one that passes its check has
a timely task of its kind. -/
theorem checks (operation : Operation) (c : Context) :
    Checks (operation.sealable c) (operation.check c) (operation.Timely c)
      (Sound c operation) := by
  have hsealable : operation.kind = .injection → c.stage ≠ .disposed →
      operation.sealable c := fun hk hd => by simp [sealable, hk, hd]
  cases operation with
  | setErrorSink | clearErrorSink | setBeforeCompile | dispose =>
    apply Context.guards_live.checks_plain fun _ => not_untimely_ok _
    rintro hl task ⟨⟩
    exact ⟨rfl, hl⟩
  | setLibPath | addIncludePath | addSysIncludePath | addLibraryPath =>
    exact checks_setting rfl (not_untimely_map not_untimely_boundaryPath)
  | setOptions | undefineSymbol =>
    exact checks_setting rfl (not_untimely_map not_untimely_boundaryText)
  | defineSymbol name value? =>
    refine checks_setting rfl (not_untimely_bind not_untimely_boundaryText fun _ => ?_)
    refine not_untimely_bind ?_ fun _ => not_untimely_ok _
    cases value? with
    | none => exact not_untimely_ok _
    | some value => exact not_untimely_map not_untimely_boundaryText
  | addLibrary =>
    refine Context.guards_ensureOpen.checks_plain (fun _ => ?_) fun ho task h => ?_
    · exact not_untimely_bind not_untimely_boundaryText fun _ => not_untimely_ok _
    · obtain ⟨t, _, rfl⟩ := bind_pure_eq_ok h
      exact ⟨rfl, ho⟩
  | setOutputType type =>
    refine Context.guards_ensureOpen.checks fun ho => ?_
    cases ht : c.typeFixed with
    | true =>
      have hsame : decide (type = c.outputType) = true ↔ (true = true → type = c.outputType) := by
        simp
      rw [← hsame]
      apply Context.guards_ensure.checks_plain fun _ => not_untimely_ok _
      rintro _ task ⟨⟩
      exact ⟨rfl, ho, ht⟩
    | false =>
      refine .of_plain nofun (not_untimely_ok _) ?_
      rintro task ⟨⟩
      exact ⟨rfl, ho, ht⟩
  | compileString =>
    refine Context.guards_ensureOpen.checks_plain (fun _ => ?_) fun ho task h => ?_
    · exact not_untimely_bind not_untimely_boundaryText fun _ => not_untimely_ok _
    · obtain ⟨t, _, rfl⟩ := bind_pure_eq_ok h
      exact ⟨rfl, ho⟩
  | addFile =>
    refine Context.guards_ensureOpen.checks_plain (fun _ => ?_) fun ho task h => ?_
    · exact not_untimely_bind not_untimely_boundaryPath fun _ => not_untimely_ok _
    · obtain ⟨t, _, rfl⟩ := bind_pure_eq_ok h
      exact ⟨rfl, ho⟩
  | injectFunction name convention address =>
    refine (Context.checks_ensureInjectable (hsealable rfl)).bind (fun _ _ => ?_)
      fun _ task ho h => ?_
    · exact not_untimely_bind not_untimely_ensureCallable fun _ => not_untimely_injection
    · exact injection_sound rfl ho (eq_ok_of_bind h)
  | injectData | injectRaw =>
    refine (Context.checks_ensureInjectable (hsealable rfl)).bind
      (fun _ _ => not_untimely_injection) ?_
    exact fun _ task ho h => injection_sound rfl ho h
  | relocate | relocationSize | relocateInto => exact checks_relocation rfl
  | getSymbol name => exact checks_lookUp rfl
  | resolveFunction typeName size name =>
    show Checks _ (if size = pointerBits / 8 then c.checkLookUp name else _)
      (size = pointerBits / 8 → _) _
    by_cases hs : size = pointerBits / 8
    · simp only [hs, true_implies]
      exact checks_lookUp rfl
    · rw [if_neg hs]
      exact .of_plain (fun h => absurd h hs) (fun h => Bool.noConfusion (untimely_error.1 h)) nofun
  | run arguments =>
    refine Checks.of_iff (Context.guards_ensureLive.checks fun _ => Context.guards_ensure.checks
      fun hm => Context.guards_ensure.checks_plain (fun _ => ?_) fun hr task h => ?_) ?_
    · exact not_untimely_bind not_untimely_boundaryArguments fun _ => not_untimely_ok _
    · obtain ⟨t, _, rfl⟩ := bind_pure_eq_ok h
      exact ⟨rfl, of_decide_eq_true hm, hr⟩
    · rw [decide_eq_true_eq]
      exact and_iff_right_of_imp fun ⟨_, hr⟩ => Stage.live_of_isRelocated hr
  | outputFile path =>
    refine Checks.of_iff (Context.guards_ensureLive.checks fun _ => Context.guards_ensure.checks
      fun ha => Context.guards_ensure.checks fun hf =>
        Context.guards_ensure.checks_plain (fun _ => ?_) fun hs task h => ?_) ?_
    · exact not_untimely_bind not_untimely_boundaryPath fun _ => not_untimely_ok _
    · obtain ⟨t, _, rfl⟩ := bind_pure_eq_ok h
      rw [Bool.not_eq_true'] at ha
      exact ⟨rfl, ha, hf, of_decide_eq_true hs⟩
    · rw [decide_eq_true_eq, Bool.not_eq_true']
      refine and_iff_right_of_imp fun ⟨_, _, hs⟩ hd => ?_
      rw [hd] at hs
      exact hs.elim nofun nofun

/-- A relocation is refused for its time or not at all. -/
theorem relocation_refused {operation : Operation} {target : Target} {e : BindError}
    (hk : operation.kind = .relocation target) (hc : operation.check c = .error e) :
    e.isUntimely b := by
  have hrefused : ∀ name target,
      (c.ensureRelocatable name >>= fun _ => pure (Task.relocate target)) = .error e →
        e.isUntimely b := by
    intro name target h
    have hg : Guards b (c.ensureRelocatable name) c.Relocatable :=
      Context.guards_ensureRelocatable
    by_cases hr : c.Relocatable
    · rw [hg.1 hr] at h
      exact nomatch h
    · have hu := (hg.2 hr).bind fun _ => pure (Task.relocate target)
      rw [h] at hu
      exact untimely_error.1 hu
  cases operation with
  | relocate | relocationSize | relocateInto => exact hrefused _ _ hc
  | _ => exact nomatch hk

end Operation

end EmbeddedC
