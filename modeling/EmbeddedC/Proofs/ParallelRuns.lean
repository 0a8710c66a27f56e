import EmbeddedC.Proofs.Session
/-!
# Runs side by side

The host's part of a run depends on the other side only through answers. So two runs of the same
work, on compilers that answer alike, stay together: they return the same, leave the same contexts,
and whatever relation between their worlds each exchange keeps is kept by all of the work. A relation
that only looks at one of two equal runs says what any run goes through.
-/

namespace EmbeddedC

variable {σ τ α β : Type}

/-- What the host notes without anything crossing the boundary. -/
def Event.isNote : Event → Bool
  | called none _ _ | entered _ _ _ | hookRan _ _ | printed _ => true
  | logged (.diagnostic _) | logged (.sinkPanicked _) => false
  | logged _ => true
  | _ => false

/-- A relation between two worlds, each with the events that led to it. -/
abbrev Pairing (σ τ : Type) : Type :=
  World σ → List Event → World τ → List Event → Prop

/-- The compilers answer alike, and each exchange with them keeps the relation. -/
structure Parallel (compiler : Compiler σ) (compiler' : Compiler τ) (S : Pairing σ τ) : Prop where
  channels : ∀ {w es w' es'}, S w es w' es' → w'.channels.length = w.channels.length
  files : ∀ {w es w' es'}, S w es w' es' → w'.files compiler' = w.files compiler
  note : ∀ {w es w' es'} {e : Event}, e.isNote → S w es w' es' →
    S w (es ++ [e]) w' (es' ++ [e])
  call : ∀ {w es w' es'} {handle : Handle} (request : Request), S w es w' es' →
    handle < w.channels.length →
      let o := World.call compiler handle request w
      let o' := World.call compiler' handle request w'
      o'.1 = o.1 ∧ S o.2.1 (es ++ o.2.2) o'.2.1 (es' ++ o'.2.2)
  enter : ∀ {w es w' es'} (state? : Option Handle) (address : Address) (arguments : Arguments),
    S w es w' es' →
      let o := World.enter compiler state? address arguments w
      let o' := World.enter compiler' state? address arguments w'
      o'.1 = o.1 ∧ S o.2.1 (es ++ o.2.2) o'.2.1 (es' ++ o'.2.2)
  create : ∀ {w es w' es'}, S w es w' es' →
    let o := World.create compiler w
    let o' := World.create compiler' w'
    o'.1 = o.1 ∧ S o.2.1 (es ++ o.2.2) o'.2.1 (es' ++ o'.2.2)

/-- A context has no state but one that has been created. -/
def Context.Within (c : Context) (w : World σ) : Prop :=
  ∀ handle, c.handle? = some handle → handle < w.channels.length

theorem Context.Within.of_channels {c : Context} {w : World σ} {w' : World τ} (hc : c.Within w)
    (hw : w'.channels.length = w.channels.length) : c.Within w' :=
  fun handle hh => hw ▸ hc handle hh

/-- Two outcomes of the same work. The first began in a world `w` after events `es`, the second
after `es'`. -/
structure Outcome.Pairs (S : Pairing σ τ) (w : World σ) (es es' : List Event)
    (o : Outcome Event (Live σ) BindError α) (o' : Outcome Event (Live τ) BindError α) : Prop where
  result : o'.result = o.result
  context : o'.state.context = o.state.context
  within : o.state.context.Within w
  channels : o.state.world.channels.length = w.channels.length
  related : S o.state.world (es ++ o.events) o'.state.world (es' ++ o'.events)

/-- Work that stays together when it is done in two worlds. -/
def ContextAction.Relates (S : Pairing σ τ) (x : ContextAction σ α) (x' : ContextAction τ α) :
    Prop :=
  ∀ c w es w' es', c.Within w → S w es w' es' →
    Outcome.Pairs S w es es' (x ⟨c, w⟩) (x' ⟨c, w'⟩)

namespace ContextAction.Relates

section Rules

variable {S : Pairing σ τ}

theorem pure (a : α) : Relates S (Pure.pure a) (Pure.pure a) := by
  intro c w es w' es' hc hS
  exact ⟨rfl, rfl, hc, rfl, by simpa [Pure.pure, Action.pure] using hS⟩

theorem fail (e : BindError) : Relates (α := α) S (Action.fail e) (Action.fail e) := by
  intro c w es w' es' hc hS
  exact ⟨rfl, rfl, hc, rfl, by simpa [Action.fail] using hS⟩

theorem bind {x : ContextAction σ α} {x' : ContextAction τ α} {f : α → ContextAction σ β}
    {f' : α → ContextAction τ β} (hx : Relates S x x') (hf : ∀ a, Relates S (f a) (f' a)) :
    Relates S (x >>= f) (x' >>= f') := by
  intro c w es w' es' hc hS
  obtain ⟨hresult, hcontext, hwithin, hchannels, hrelated⟩ := hx c w es w' es' hc hS
  simp only [Bind.bind, Action.bind]
  rcases ho : x ⟨c, w⟩ with ⟨r, ⟨d, v⟩, events⟩
  rcases ho' : x' ⟨c, w'⟩ with ⟨r', ⟨d', v'⟩, events'⟩
  rw [ho, ho'] at hresult hcontext hrelated
  rw [ho] at hwithin hchannels
  cases hresult
  cases hcontext
  cases r with
  | error e => exact ⟨rfl, rfl, hwithin, hchannels, hrelated⟩
  | ok a =>
    have hd : d.Within v := hwithin.of_channels hchannels
    obtain ⟨hresult', hcontext', hwithin', hchannels', hrelated'⟩ := hf a d v _ v' _ hd hrelated
    rw [List.append_assoc, List.append_assoc] at hrelated'
    have hwithin := hwithin'.of_channels hchannels.symm
    exact ⟨hresult', hcontext', hwithin, hchannels'.trans hchannels, hrelated'⟩

theorem ofExcept_bind {x : Except BindError α} {f : α → ContextAction σ β}
    {f' : α → ContextAction τ β} (hf : ∀ a, x = .ok a → Relates S (f a) (f' a)) :
    Relates S (Action.ofExcept x >>= f) (Action.ofExcept x >>= f') := by
  cases x with
  | error e => exact fail e
  | ok a => exact hf a rfl

theorem get_bind {f : Live σ → ContextAction σ α} {f' : Live τ → ContextAction τ α}
    (hf : ∀ c w es w' es', S w es w' es' → Relates S (f ⟨c, w⟩) (f' ⟨c, w'⟩)) :
    Relates S (Action.get >>= f) (Action.get >>= f') := by
  intro c w es w' es' hc hS
  exact hf c w es w' es' hS c w es w' es' hc hS

theorem ite {p : Prop} [Decidable p] {x y : ContextAction σ α} {x' y' : ContextAction τ α}
    (hx : Relates S x x') (hy : Relates S y y') :
    Relates S (if p then x else y) (if p then x' else y') := by
  by_cases h : p
  · rw [if_pos h, if_pos h]
    exact hx
  · rw [if_neg h, if_neg h]
    exact hy

theorem context : Relates S ContextAction.context ContextAction.context := by
  intro c w es w' es' hc hS
  exact ⟨rfl, rfl, hc, rfl, by
    simpa [ContextAction.context, Bind.bind, Action.bind, Action.get, Pure.pure, Action.pure]
      using hS⟩

/-- A context may lose its state, and it gets no other. -/
theorem modify {f : Context → Context}
    (hf : ∀ c handle, (f c).handle? = some handle → c.handle? = some handle) :
    Relates S (ContextAction.modify f) (ContextAction.modify f) := by
  intro c w es w' es' hc hS
  have hwithin : (f c).Within w := fun handle hh => hc handle (hf c handle hh)
  exact ⟨rfl, rfl, hwithin, rfl, by simpa [ContextAction.modify, Action.modify] using hS⟩

theorem silent {x : ContextAction σ Unit} {x' : ContextAction τ Unit} (hx : Relates S x x') :
    Relates S (ContextAction.silent x) (ContextAction.silent x') :=
  hx.bind fun _ => pure _

variable {compiler : Compiler σ} {compiler' : Compiler τ} (hS : Parallel compiler compiler' S)
include hS

theorem log {record : LogRecord} (hr : (Event.logged record).isNote) :
    Relates S (ContextAction.log record) (ContextAction.log record) := by
  intro c w es w' es' hc h
  exact ⟨rfl, rfl, hc, rfl, hS.note hr h⟩

theorem call (request : Request) :
    Relates S (ContextAction.call compiler request) (ContextAction.call compiler' request) := by
  intro c w es w' es' hc h
  cases hh : c.handle? with
  | none =>
    have hnote := hS.note (e := .called none request {}) rfl h
    simp only [ContextAction.call, Action.step, hh]
    exact ⟨rfl, rfl, hc, rfl, hnote⟩
  | some handle =>
    obtain ⟨hanswer, hrelated⟩ := hS.call request h (hc handle hh)
    obtain ⟨_, v, _, hcall, _, hlength⟩ := World.call_eq compiler handle request w
    simp only [ContextAction.call, Action.step, hh]
    refine ⟨congrArg Except.ok hanswer, rfl, hc, ?_, hrelated⟩
    rw [hcall]
    exact hlength

theorem enter (address : Address) (arguments : Arguments) :
    Relates S (ContextAction.enter compiler address arguments)
      (ContextAction.enter compiler' address arguments) := by
  intro c w es w' es' hc h
  obtain ⟨hstatus, hrelated⟩ := hS.enter c.handle? address arguments h
  obtain ⟨_, v, _, henter, _, hlength⟩ := World.enter_eq compiler c.handle? address arguments w
  simp only [ContextAction.enter, Action.step]
  refine ⟨congrArg Except.ok hstatus, rfl, hc, ?_, hrelated⟩
  rw [henter]
  exact hlength

theorem advance (next : Stage) :
    Relates S (ContextAction.advance next) (ContextAction.advance next) :=
  context.bind fun _ => ite (pure _) ((log hS (by rfl)).bind fun _ => modify (by simp))

theorem markConfigured : Relates S ContextAction.markConfigured ContextAction.markConfigured :=
  context.bind fun _ => ite (advance hS _) (pure _)

theorem checkStatus (entry : Entry) (argument : String) (status : Int32) :
    Relates S (ContextAction.checkStatus entry argument status)
      (ContextAction.checkStatus entry argument status) :=
  ite ((log hS (by rfl)).bind fun _ => fail _) (pure _)

theorem release : Relates S (ContextAction.release compiler) (ContextAction.release compiler') := by
  apply context.bind
  intro c
  cases c.handle? with
  | none => exact pure _
  | some _ =>
    refine (call hS _).bind fun _ => (modify ?_).bind fun _ => log hS (by rfl)
    exact fun _ _ h => nomatch h

theorem fixType : Relates S (ContextAction.fixType compiler) (ContextAction.fixType compiler') := by
  refine context.bind fun c => ite (pure _) ((call hS _).bind fun answer => ?_)
  refine (checkStatus hS _ _ _).bind fun _ => (modify (by simp)).bind fun _ => log hS (by rfl)

theorem runHook : Relates S ContextAction.runHook ContextAction.runHook := by
  apply context.bind
  intro c
  cases c.hook? with
  | none => exact pure _
  | some hook =>
    intro d w es w' es' hd h
    exact ⟨rfl, rfl, hd, rfl, hS.note rfl h⟩

theorem configure (setting : Setting) :
    Relates S (ContextAction.configure compiler setting)
      (ContextAction.configure compiler' setting) := by
  refine (call hS _).bind fun answer => ?_
  cases setting.reportsStatus with
  | true => exact (checkStatus hS _ _ _).bind fun _ => markConfigured hS
  | false => exact (pure PUnit.unit).bind fun _ => markConfigured hS

theorem addLibrary (name : CText) :
    Relates S (ContextAction.addLibrary compiler name)
      (ContextAction.addLibrary compiler' name) := by
  refine (fixType hS).bind fun _ => (call hS _).bind fun answer => ?_
  exact (checkStatus hS _ _ _).bind fun _ => markConfigured hS

theorem compile (unit : SourceUnit) :
    Relates S (ContextAction.compile compiler unit) (ContextAction.compile compiler' unit) := by
  refine (fixType hS).bind fun _ => (runHook hS).bind fun _ => (call hS _).bind fun answer => ?_
  apply ite
  · exact (log hS (by rfl)).bind fun _ => fail _
  · exact (log hS (by rfl)).bind fun _ => (modify (by simp)).bind fun _ => advance hS _

theorem inject (name : CText) (symbol : InjectedSymbol) :
    Relates S (ContextAction.inject compiler name symbol)
      (ContextAction.inject compiler' name symbol) := by
  refine (call hS _).bind fun answer => ite (fail _) (context.bind fun c => ?_)
  exact (modify (by simp)).bind fun _ => log hS (by rfl)

theorem relocate (target : Target) :
    Relates S (ContextAction.relocate compiler target)
      (ContextAction.relocate compiler' target) := by
  refine (modify (by simp)).bind fun _ => (call hS _).bind fun answer => ?_
  apply ite
  · exact (modify (by simp)).bind fun _ => (log hS (by rfl)).bind fun _ => fail _
  · cases target with
    | size => exact pure _
    | auto =>
      exact context.bind fun c => (log hS (by rfl)).bind fun _ => (advance hS _).bind fun _ => pure _
    | memory => exact (log hS (by rfl)).bind fun _ => (advance hS _).bind fun _ => pure _

theorem lookUp (name : CText) :
    Relates S (ContextAction.lookUp compiler name) (ContextAction.lookUp compiler' name) :=
  (call hS _).bind fun _ => (advance hS _).bind fun _ => pure _

theorem run (arguments : List CText) :
    Relates S (ContextAction.run compiler arguments) (ContextAction.run compiler' arguments) := by
  refine (log hS (by rfl)).bind fun _ => (call hS _).bind fun answer => ?_
  cases answer.address.nonNull? with
  | none => exact (log hS (by rfl)).bind fun _ => fail _
  | some main =>
    refine (enter hS _ _).bind fun status => (log hS (by rfl)).bind fun _ => ?_
    exact (advance hS _).bind fun _ => pure _

theorem outputFile (path : CText) :
    Relates S (ContextAction.outputFile compiler path)
      (ContextAction.outputFile compiler' path) := by
  refine (call hS _).bind fun answer => ?_
  apply ite
  · exact (log hS (by rfl)).bind fun _ => fail _
  · exact context.bind fun c => (log hS (by rfl)).bind fun _ => advance hS _

end Rules

end ContextAction.Relates

/-- The sink that a task puts in place of the one before, if it does. -/
def Task.sink? : Task → Option (Option Sink)
  | installSink sink? => some sink?
  | _ => none

/-- The sink that an operation asks for, if it does. -/
def Operation.sink? : Operation → Option (Option Sink)
  | setErrorSink sink => some (some sink)
  | clearErrorSink => some none
  | _ => none

/-- The same operation with another sink where it installs one. -/
def Operation.withSink (g : Sink → Sink) : Operation → Operation
  | setErrorSink sink => .setErrorSink (g sink)
  | operation => operation

/-- Installing corresponding sinks keeps the relation. -/
def Pairing.Installs (S : Pairing σ τ) (g : Sink → Sink) : Prop :=
  ∀ {w es w' es'} (handle : Handle) (sink? : Option Sink), S w es w' es' →
    S (w.setSink handle sink?) es (w'.setSink handle (sink?.map g)) es'

section Work

open ContextAction

variable {S : Pairing σ τ} {compiler : Compiler σ} {compiler' : Compiler τ}
  (hS : Parallel compiler compiler' S)
include hS

theorem Task.relates {task : Task} (hk : task.sink? = none) :
    Relates S (task.perform compiler) (task.perform compiler') := by
  cases task with
  | installSink => exact nomatch hk
  | installHook hook =>
    exact ((Relates.modify (by simp)).bind fun _ => Relates.markConfigured hS).silent
  | configure setting => exact (Relates.configure hS setting).silent
  | addLibrary name => exact (Relates.addLibrary hS name).silent
  | chooseType type =>
    exact ((Relates.modify (by simp)).bind fun _ => Relates.markConfigured hS).silent
  | keepType => exact Relates.pure _
  | compile unit => exact (Relates.compile hS unit).silent
  | inject name symbol => exact (Relates.inject hS name symbol).silent
  | relocate target => exact Relates.relocate hS target
  | lookUp name => exact Relates.lookUp hS name
  | run arguments => exact Relates.run hS arguments
  | outputFile path => exact (Relates.outputFile hS path).silent
  | dispose => exact ((Relates.release hS).bind fun _ => Relates.advance hS _).silent

theorem Task.relates_installSink {g : Sink → Sink} (hg : S.Installs g) (sink? : Option Sink) :
    Relates S ((installSink sink?).perform compiler)
      ((installSink (sink?.map g)).perform compiler') := by
  apply Relates.silent
  apply Relates.bind
  · intro c w es w' es' hc h
    have hinstalled := hg c.number sink? h
    rw [← List.append_nil es, ← List.append_nil es'] at hinstalled
    exact ⟨rfl, rfl, hc, by simp [Action.modify, World.setSink], hinstalled⟩
  · exact fun _ => Relates.markConfigured hS

omit hS in
/-- Tasks that install a sink come from the operations that ask for one. -/
theorem Operation.sink?_of_check {c : Context} {operation : Operation} {task : Task}
    (hc : operation.check c = .ok task) (hk : operation.sink? = none) : task.sink? = none := by
  have hkind : task.kind = operation.kind := ((operation.checks c).of_ok task hc).1
  cases operation with
  | setErrorSink | clearErrorSink => exact nomatch hk
  | setBeforeCompile hook =>
    simp only [check] at hc
    cases hl : c.ensureLive "set_before_compile" with
    | error e =>
      rw [hl] at hc
      exact nomatch hc
    | ok u =>
      rw [hl] at hc
      cases hc
      rfl
  | _ =>
    cases task with
    | installSink => exact nomatch hkind
    | _ => rfl

theorem Operation.relates {operation : Operation} (hk : operation.sink? = none) :
    Relates S (operation.perform compiler) (operation.perform compiler') := by
  apply Relates.context.bind
  intro c
  apply Relates.ofExcept_bind
  intro task hc
  exact task.relates hS (sink?_of_check hc hk)

theorem Operation.relates_withSink {g : Sink → Sink} (hg : S.Installs g) (operation : Operation) :
    Relates S (operation.perform compiler) ((operation.withSink g).perform compiler') := by
  cases operation with
  | setErrorSink sink =>
    apply Relates.context.bind
    intro c
    simp only [withSink, check]
    cases c.ensureLive "set_error_sink" with
    | error e => exact Relates.fail e
    | ok u => exact Task.relates_installSink hS hg (some sink)
  | clearErrorSink =>
    apply Relates.context.bind
    intro c
    simp only [withSink, check]
    cases c.ensureLive "clear_error_sink" with
    | error e => exact Relates.fail e
    | ok u => exact Task.relates_installSink hS hg none
  | _ => exact relates hS rfl

theorem Operation.relates_performAll {operations : List Operation}
    (hk : ∀ operation ∈ operations, operation.sink? = none) :
    Relates S (performAll compiler operations) (performAll compiler' operations) := by
  induction operations with
  | nil => exact Relates.pure _
  | cons operation rest ih =>
    have hfirst := Operation.relates hS (hk operation (List.mem_cons_self ..))
    cases rest with
    | nil => exact hfirst
    | cons next rest =>
      apply hfirst.bind
      intro _
      exact ih fun operation h => hk operation (List.mem_cons_of_mem _ h)

omit hS in
theorem Job.sink?_of_mem {job : Job} {operation : Operation} (h : operation ∈ job.operations) :
    operation.sink? = none := by
  have hall : job.operations.all (·.sink?.isNone) := by
    cases job <;> rfl
  exact Option.isNone_iff_eq_none.1 (List.all_eq_true.1 hall operation h)

theorem Job.relates (job : Job) :
    Relates S (job.perform compiler) (job.perform compiler') := by
  apply Relates.get_bind
  intro c w es w' es' h
  rw [show w'.files compiler' = w.files compiler from hS.files h]
  apply Relates.ofExcept_bind
  intro _ _
  exact Operation.relates_performAll hS fun _ => sink?_of_mem

omit hS in
theorem Toolchain.sink?_of_mem {t : Toolchain} {operation : Operation} (h : operation ∈ t.plan) :
    operation.sink? = none := by
  have hall : t.plan.all (·.sink?.isNone) := by
    simp only [plan, Config.MacroTable.map, List.all_append, List.all_map]
    split <;> simp [Function.comp_def, Operation.sink?]
  exact Option.isNone_iff_eq_none.1 (List.all_eq_true.1 hall operation h)

end Work

/-- Two outcomes of opening a context. -/
structure Outcome.PairsOpened (S : Pairing σ τ) (w : World σ) (es es' : List Event)
    (o : Outcome Event (World σ) BindError Context)
    (o' : Outcome Event (World τ) BindError Context) : Prop where
  result : o'.result = o.result
  within : ∀ c, o.result = .ok c → c.Within o.state
  channels : w.channels.length ≤ o.state.channels.length
  related : S o.state (es ++ o.events) o'.state (es' ++ o'.events)

theorem Outcome.PairsOpened.failed {S : Pairing σ τ} {w v : World σ} {v' : World τ}
    {es es' events events' : List Event} (e : BindError)
    (hv : w.channels.length ≤ v.channels.length) (h : S v (es ++ events) v' (es' ++ events')) :
    Outcome.PairsOpened S w es es' ⟨.error e, v, events⟩ ⟨.error e, v', events'⟩ where
  result := rfl
  within c hc := by simp at hc
  channels := hv
  related := h

section Opening

variable {S : Pairing σ τ} {compiler : Compiler σ} {compiler' : Compiler τ}
  (hS : Parallel compiler compiler' S) {w : World σ} {w' : World τ} {es es' : List Event}
include hS

omit hS in
private theorem Context.create_none {table : EntryTable} (hh : table.abi.isHost) {v : World σ}
    {events : List Event} (hc : World.create compiler w = (none, v, events)) :
    Context.create compiler table w = ⟨.error .createFailed, v, events⟩ := by
  simp [create, hh, Action.fail, Action.step, Bind.bind, Action.bind, hc]

omit hS in
private theorem Context.create_some {table : EntryTable} (hh : table.abi.isHost) {v u : World σ}
    {events more : List Event} {handle : Handle} {answer : Answer}
    (hc : World.create compiler w = (some handle, v, events))
    (ha : World.call compiler handle .setErrorFunc v = (answer, u, more)) :
    Context.create compiler table w = ⟨.ok (.fresh table handle), u,
      events ++ (more ++ [.logged (.createdContext table.abi table.origin)])⟩ := by
  simp [create, hh, Action.step, Action.emit, Bind.bind, Action.bind, hc, ha, Pure.pure,
    Action.pure]

omit hS in
private theorem World.create_channels {v : World σ} {r : Option Handle} {events : List Event}
    (hc : World.create compiler w = (r, v, events)) :
    w.channels.length ≤ v.channels.length ∧
      ∀ handle, r = some handle → handle < v.channels.length := by
  unfold World.create at hc
  split at hc <;> cases hc <;> simp

theorem Context.create_relates (table : EntryTable) (h : S w es w' es') :
    Outcome.PairsOpened S w es es' (Context.create compiler table w)
      (Context.create compiler' table w') := by
  cases hh : table.abi.isHost with
  | false =>
    rw [create_mismatch compiler hh, create_mismatch compiler' hh]
    exact .failed _ (Nat.le_refl _) (by simpa using h)
  | true =>
    obtain ⟨hanswer, hrelated⟩ := hS.create h
    cases ho : World.create compiler w with | mk r made
    cases ho' : World.create compiler' w' with | mk r' made'
    rw [ho, ho'] at hanswer hrelated
    obtain ⟨hle, hborn⟩ := World.create_channels ho
    cases hanswer
    cases r with
    | none =>
      rw [create_none hh ho, create_none hh ho']
      exact .failed _ hle hrelated
    | some handle =>
      have hlt := hborn handle rfl
      obtain ⟨_, hcalled⟩ := hS.call .setErrorFunc hrelated hlt
      obtain ⟨answer, u, more, ha, _, hkept⟩ :=
        World.call_eq compiler handle .setErrorFunc made.1
      cases ha' : World.call compiler' handle .setErrorFunc made'.1 with | mk answer' called'
      rw [ha, ha'] at hcalled
      have hnoted := hS.note (e := .logged (.createdContext table.abi table.origin)) rfl hcalled
      simp only [List.append_assoc] at hnoted
      rw [create_some hh ho ha, create_some hh ho' ha']
      refine ⟨rfl, ?_, hkept ▸ hle, hnoted⟩
      rintro _ ⟨⟩ other hother
      cases hother
      exact hkept ▸ hlt

/-- Preparing a context, and releasing it if that fails. -/
theorem Context.prepare_relates {x : ContextAction σ Value} {x' : ContextAction τ Value}
    (hx : ContextAction.Relates S x x') {c : Context} (hc : c.Within w) (h : S w es w' es') :
    Outcome.PairsOpened S w es es' (c.prepare compiler x w) (c.prepare compiler' x' w') := by
  obtain ⟨hresult, hcontext, hwithin, hchannels, hrelated⟩ := hx c w es w' es' hc h
  simp only [prepare]
  rcases ho : x ⟨c, w⟩ with ⟨r, ⟨d, v⟩, events⟩
  rcases ho' : x' ⟨c, w'⟩ with ⟨r', ⟨d', v'⟩, events'⟩
  rw [ho, ho'] at hresult hcontext hrelated
  rw [ho] at hwithin hchannels
  cases hresult
  cases hcontext
  have hd : d.Within v := hwithin.of_channels hchannels
  cases r with
  | ok value =>
    refine ⟨rfl, ?_, Nat.le_of_eq hchannels.symm, hrelated⟩
    rintro _ ⟨⟩
    exact hd
  | error e =>
    have hreleased := ContextAction.Relates.release hS d v _ v' _ hd hrelated
    have hkept := hreleased.channels.trans hchannels
    have hrelated' := hreleased.related
    rw [List.append_assoc, List.append_assoc] at hrelated'
    exact .failed e (Nat.le_of_eq hkept.symm) hrelated'

theorem Toolchain.openContext_relates (t : Toolchain) (h : S w es w' es') :
    Outcome.PairsOpened S w es es' (t.openContext compiler w) (t.openContext compiler' w') := by
  obtain ⟨hresult, hwithin, hchannels, hrelated⟩ := Context.create_relates hS t.table h
  simp only [openContext, Bind.bind, Action.bind]
  rcases ho : Context.create compiler t.table w with ⟨r, v, events⟩
  rcases ho' : Context.create compiler' t.table w' with ⟨r', v', events'⟩
  rw [ho, ho'] at hresult hrelated
  rw [ho] at hwithin hchannels
  cases hresult
  cases r with
  | error e => exact .failed e hchannels hrelated
  | ok c =>
    have hplan := Operation.relates_performAll hS fun _ => t.sink?_of_mem
    obtain ⟨hresult', hwithin', hchannels', hrelated'⟩ :=
      Context.prepare_relates hS hplan (hwithin c rfl) hrelated
    rw [List.append_assoc, List.append_assoc] at hrelated'
    exact ⟨hresult', hwithin', Nat.le_trans hchannels hchannels', hrelated'⟩

end Opening

/-- The same move with another sink where it installs one. -/
def Move.withSink (g : Sink → Sink) : Move → Move
  | perform i operation => .perform i (operation.withSink g)
  | m => m

/-- What the other side sends between calls keeps the relation. -/
def Pairing.Absorbs (S : Pairing σ τ) : Prop :=
  ∀ {w es w' es'} (sent : List Emission), S w es w' es' →
    S (w.absorb sent).1 (es ++ (w.absorb sent).2) (w'.absorb sent).1 (es' ++ (w'.absorb sent).2)

/-- It is enough to look at messages one by one. -/
theorem Pairing.Absorbs.of_messages {S : Pairing σ τ}
    (hnote : ∀ {w es w' es'} {e : Event}, e.isNote → S w es w' es' → S w (es ++ [e]) w' (es' ++ [e]))
    (hmessage : ∀ {w es w' es'} (handle : Handle) (text : CText), S w es w' es' →
      S (w.message handle text).1 (es ++ (w.message handle text).2)
        (w'.message handle text).1 (es' ++ (w'.message handle text).2)) : S.Absorbs := by
  intro w es w' es' sent h
  induction sent generalizing w es w' es' with
  | nil => simpa [World.absorb] using h
  | cons emission rest ih =>
    cases emission with
    | message handle text =>
      have := ih (hmessage handle text h)
      rwa [List.append_assoc, List.append_assoc] at this
    | entered address arguments =>
      have := ih (hnote (e := .entered none address arguments) rfl h)
      rwa [List.append_assoc, List.append_assoc] at this

namespace Session

/-- Two sessions that have come to the same contexts, in worlds that are related. -/
structure Beside (S : Pairing σ τ) (s : Session σ) (es : List Event) (s' : Session τ)
    (es' : List Event) : Prop where
  toolchain : s'.toolchain = s.toolchain
  contexts : s'.contexts = s.contexts
  within : ∀ i c, s.context? i = some c → c.Within s.world
  related : S s.world es s'.world es'

variable {S : Pairing σ τ} {compiler : Compiler σ} {compiler' : Compiler τ}
  (hS : Parallel compiler compiler' S) {s : Session σ} {s' : Session τ} {es es' : List Event}
include hS

omit hS in
private theorem Beside.world (h : s.Beside S es s' es') {v : World σ} {v' : World τ}
    {more more' : List Event} (hv : v.channels.length = s.world.channels.length)
    (hr : S v (es ++ more) v' (es' ++ more')) :
    Beside S { s with world := v } (es ++ more) { s' with world := v' } (es' ++ more') :=
  ⟨h.toolchain, h.contexts, fun i c hi => (h.within i c hi).of_channels hv, hr⟩

omit hS in
private theorem Beside.set (h : s.Beside S es s' es') {i : Nat} {c : Context}
    {x? : Option Context} {v : World σ} {v' : World τ} {more more' : List Event}
    (hi : s.context? i = some c) (hv : v.channels.length = s.world.channels.length)
    (hx : ∀ d, x? = some d → d.Within v) (hr : S v (es ++ more) v' (es' ++ more')) :
    Beside S { s with world := v, contexts := s.contexts.set i x? } (es ++ more)
      { s' with world := v', contexts := s'.contexts.set i x? } (es' ++ more') := by
  -- What one index comes to hold is within the world, and so is what the others held all along.
  refine ⟨h.toolchain, by simp only [h.contexts], fun j d hj => ?_, hr⟩
  rw [context?_set hi rfl] at hj
  by_cases hji : j = i
  · rw [if_pos hji] at hj
    exact hx d hj
  · rw [if_neg hji] at hj
    exact (h.within j d hj).of_channels hv

omit hS in
theorem Beside.context? (h : s.Beside S es s' es') (i : Nat) : s'.context? i = s.context? i := by
  simp [Session.context?, h.contexts]

omit hS in
private theorem Beside.on (h : s.Beside S es s' es') {x : ContextAction σ Value}
    {x' : ContextAction τ Value} (hx : ContextAction.Relates S x x') (i : Nat) :
    (s'.on i x').result = (s.on i x).result ∧
      (s.on i x).state.Beside S (es ++ (s.on i x).events) (s'.on i x').state
        (es' ++ (s'.on i x').events) := by
  unfold Session.on
  rw [h.context?]
  cases hi : s.context? i with
  | none => exact ⟨rfl, by simpa using h⟩
  | some c =>
    obtain ⟨hresult, hcontext, hwithin, hchannels, hrelated⟩ :=
      hx c s.world es s'.world es' (h.within i c hi) h.related
    simp only [hresult, hcontext]
    refine ⟨trivial, h.set hi hchannels ?_ hrelated⟩
    rintro _ ⟨⟩
    exact hwithin.of_channels hchannels

private theorem Beside.drop (h : s.Beside S es s' es') (i : Nat) :
    (s'.drop compiler' i).result = (s.drop compiler i).result ∧
      (s.drop compiler i).state.Beside S (es ++ (s.drop compiler i).events)
        (s'.drop compiler' i).state (es' ++ (s'.drop compiler' i).events) := by
  unfold Session.drop
  rw [h.context?]
  cases hi : s.context? i with
  | none => exact ⟨rfl, by simpa using h⟩
  | some c =>
    obtain ⟨_, _, _, hchannels, hrelated⟩ :=
      ContextAction.Relates.release hS c s.world es s'.world es' (h.within i c hi) h.related
    exact ⟨rfl, h.set hi hchannels (fun _ hd => nomatch hd) hrelated⟩

private theorem Beside.openContext (h : s.Beside S es s' es') (bare : Bool) :
    (s'.openContext compiler' bare).result = (s.openContext compiler bare).result ∧
      (s.openContext compiler bare).state.Beside S (es ++ (s.openContext compiler bare).events)
        (s'.openContext compiler' bare).state (es' ++ (s'.openContext compiler' bare).events) := by
  have ho : Outcome.PairsOpened S s.world es es'
      ((if bare then Context.create compiler s.toolchain.table
        else s.toolchain.openContext compiler) s.world)
      ((if bare then Context.create compiler' s'.toolchain.table
        else s'.toolchain.openContext compiler') s'.world) := by
    rw [h.toolchain]
    cases bare with
    | true => exact Context.create_relates hS _ h.related
    | false => exact Toolchain.openContext_relates hS _ h.related
  unfold Session.openContext
  generalize (if bare then Context.create compiler s.toolchain.table
    else s.toolchain.openContext compiler) s.world = o at ho
  generalize (if bare then Context.create compiler' s'.toolchain.table
    else s'.toolchain.openContext compiler') s'.world = o' at ho
  rcases o with ⟨r, v, more⟩
  rcases o' with ⟨r', v', more'⟩
  obtain ⟨hresult, hwithin, hchannels, hrelated⟩ := ho
  cases hresult
  have hkept : ∀ i c, s.context? i = some c → c.Within v := fun i c hi handle hh =>
    Nat.lt_of_lt_of_le (h.within i c hi handle hh) hchannels
  cases r with
  | error e => exact ⟨rfl, h.toolchain, h.contexts, hkept, hrelated⟩
  | ok c =>
    refine ⟨by simp only [h.contexts], h.toolchain, by simp only [h.contexts], ?_, hrelated⟩
    intro j d hj
    rw [context?_append rfl] at hj
    by_cases hji : j = s.contexts.length
    · rw [if_pos hji] at hj
      cases hj
      exact hwithin c rfl
    · rw [if_neg hji] at hj
      exact hkept j d hj

/-- One move on each side, with the same reply. -/
theorem Beside.move {g : Sink → Sink} (h : s.Beside S es s' es') (m : Move)
    (hg : ∀ i operation, m = .perform i operation → operation.sink?.isSome → S.Installs g)
    (ha : ∀ sent, m = .outside sent → S.Absorbs) :
    let o := Session.move compiler m s
    let o' := Session.move compiler' (m.withSink g) s'
    o'.result = o.result ∧ o.state.Beside S (es ++ o.events) o'.state (es' ++ o'.events) := by
  cases m with
  | openContext bare => exact h.openContext hS bare
  | drop i => exact h.drop hS i
  | perform i operation =>
    cases hk : operation.sink? with
    | none =>
      have hwith : operation.withSink g = operation := by
        cases operation with
        | setErrorSink => exact nomatch hk
        | _ => rfl
      simp only [Move.withSink, hwith]
      exact h.on (Operation.relates hS hk) i
    | some sink? =>
      exact h.on (Operation.relates_withSink hS (hg i operation rfl (by simp [hk])) operation) i
  | runJob i job => exact h.on (job.relates hS) i
  | enter address arguments =>
    obtain ⟨hstatus, hrelated⟩ := hS.enter none address arguments h.related
    obtain ⟨_, v, _, henter, _, hlength⟩ := World.enter_eq compiler none address arguments s.world
    have hreply : ∀ {n n' : Int32}, n' = n →
        (.ok (.value (.status n')) : Except MoveError Reply) = .ok (.value (.status n)) := by
      rintro n _ rfl
      rfl
    rw [henter] at hstatus hrelated
    simp only [Session.move, Move.withSink, henter]
    exact ⟨hreply hstatus, h.world hlength hrelated⟩
  | outside sent =>
    exact ⟨rfl, h.world (World.absorb_channels _ _) (ha sent rfl sent h.related)⟩

/-- Two sessions of the same moves come to the same contexts. -/
theorem Beside.play {g : Sink → Sink} (hg : S.Installs g) (ha : S.Absorbs)
    (h : s.Beside S es s' es') (moves : List Move) :
    (s.play compiler moves).1.Beside S (es ++ (s.play compiler moves).2)
      (s'.play compiler' (moves.map (·.withSink g))).1
      (es' ++ (s'.play compiler' (moves.map (·.withSink g))).2) := by
  induction moves generalizing s s' es es' with
  | nil => simpa [Session.play] using h
  | cons m rest ih =>
    have hm := (h.move hS (g := g) m (fun _ _ _ _ => hg) (fun _ _ => ha)).2
    have := ih hm
    rwa [List.append_assoc, List.append_assoc] at this

end Session

/-- What one run keeps true of its events and its world, one exchange after the other. -/
structure Passage (compiler : Compiler σ) (R : List Event → World σ → Prop) : Prop where
  note : ∀ {es w} {e : Event}, e.isNote → R es w → R (es ++ [e]) w
  call : ∀ {es w} {handle : Handle} (request : Request), R es w → handle < w.channels.length →
    let o := World.call compiler handle request w
    R (es ++ o.2.2) o.2.1
  enter : ∀ {es w} (state? : Option Handle) (address : Address) (arguments : Arguments), R es w →
    let o := World.enter compiler state? address arguments w
    R (es ++ o.2.2) o.2.1
  create : ∀ {es w}, R es w →
    let o := World.create compiler w
    R (es ++ o.2.2) o.2.1

/-- One run beside itself. -/
def Pairing.alone (R : List Event → World σ → Prop) : Pairing σ σ :=
  fun w es w' es' => w' = w ∧ es' = es ∧ R es w

namespace Passage

variable {compiler : Compiler σ} {R : List Event → World σ → Prop} {es : List Event}
  {w : World σ}

theorem absorb (hnote : ∀ {es w} {e : Event}, e.isNote → R es w → R (es ++ [e]) w)
    (hmessage : ∀ {es w} handle text, R es w →
      R (es ++ (w.message handle text).2) (w.message handle text).1)
    (sent : List Emission) (h : R es w) : R (es ++ (w.absorb sent).2) (w.absorb sent).1 := by
  have halone : (Pairing.alone R).Absorbs := by
    apply Pairing.Absorbs.of_messages
    · rintro w es _ _ e he ⟨rfl, rfl, hR⟩
      exact ⟨rfl, rfl, hnote he hR⟩
    · rintro w es _ _ handle text ⟨rfl, rfl, hR⟩
      exact ⟨rfl, rfl, hmessage handle text hR⟩
  exact (halone sent ⟨rfl, rfl, h⟩).2.2

theorem of_steps (hnote : ∀ {es w} {e : Event}, e.isNote → R es w → R (es ++ [e]) w)
    (hmessage : ∀ {es w} handle text, R es w →
      R (es ++ (w.message handle text).2) (w.message handle text).1)
    (hcall : ∀ {es w} {handle : Handle} (request : Request), R es w →
      handle < w.channels.length →
        let o := compiler.call handle request w.outside
        R (es ++ [.called (some handle) request o.1]) { w with outside := o.2.2 })
    (henter : ∀ {es w} (address : Address) (arguments : Arguments), R es w →
      R es { w with outside := (compiler.enter address arguments w.outside).2.2 })
    (hcreate : ∀ {es w}, R es w →
      let o := World.create compiler w
      R (es ++ o.2.2) o.2.1) : Passage compiler R where
  note := hnote
  call := by
    intro es w handle request h hlt
    have := absorb hnote hmessage (compiler.call handle request w.outside).2.1
      (hcall request h hlt)
    rwa [List.append_assoc] at this
  enter := by
    intro es w state? address arguments h
    have hnoted := hnote (e := .entered state? address arguments) rfl (henter address arguments h)
    have := absorb hnote hmessage (compiler.enter address arguments w.outside).2.1 hnoted
    rwa [List.append_assoc] at this
  create := hcreate

theorem parallel (h : Passage compiler R) : Parallel compiler compiler (Pairing.alone R) where
  channels := by
    rintro w es _ _ ⟨rfl, _⟩
    rfl
  files := by
    rintro w es _ _ ⟨rfl, _⟩
    rfl
  note := by
    rintro w es _ _ e he ⟨rfl, rfl, hR⟩
    exact ⟨rfl, rfl, h.note he hR⟩
  call := by
    rintro w es _ _ handle request ⟨rfl, rfl, hR⟩ hlt
    exact ⟨rfl, rfl, rfl, h.call request hR hlt⟩
  enter := by
    rintro w es _ _ state? address arguments ⟨rfl, rfl, hR⟩
    exact ⟨rfl, rfl, rfl, h.enter state? address arguments hR⟩
  create := by
    rintro w es _ _ ⟨rfl, rfl, hR⟩
    exact ⟨rfl, rfl, rfl, h.create hR⟩

theorem perform (h : Passage compiler R) {c : Context} (hc : c.Within w) {operation : Operation}
    (hk : operation.sink? = none) (hR : R es w) :
    let o := operation.perform compiler ⟨c, w⟩
    R (es ++ o.events) o.state.world :=
  (Operation.relates h.parallel hk c w es w es hc ⟨rfl, rfl, hR⟩).related.2.2

private theorem installs (h : ∀ {es w} handle sink?, R es w → R es (w.setSink handle sink?)) :
    (Pairing.alone R).Installs id := by
  rintro w es _ _ handle sink? ⟨rfl, rfl, hR⟩
  exact ⟨by simp, rfl, h handle sink? hR⟩

/-- A move of the host on its own. -/
theorem move (h : Passage compiler R) {s : Session σ}
    (hs : ∀ i c, s.context? i = some c → c.Within s.world) {m : Move}
    (hinstall : ∀ i operation, m = .perform i operation → operation.sink?.isSome →
      ∀ {es w} handle sink?, R es w → R es (w.setSink handle sink?))
    (ho : ∀ sent, m ≠ .outside sent) (hR : R es s.world) :
    let o := Session.move compiler m s
    R (es ++ o.events) o.state.world := by
  have hbeside : s.Beside (Pairing.alone R) es s es := ⟨rfl, rfl, hs, rfl, rfl, hR⟩
  have hmove := hbeside.move h.parallel m
    (fun i operation hm hsink => installs (hinstall i operation hm hsink))
    (fun sent hm => absurd hm (ho sent))
  exact hmove.2.related.2.2

theorem play (h : Passage compiler R)
    (hinstall : ∀ {es w} handle sink?, R es w → R es (w.setSink handle sink?))
    (habsorb : ∀ {es w} sent, R es w → R (es ++ (w.absorb sent).2) (w.absorb sent).1)
    {s : Session σ} (hs : ∀ i c, s.context? i = some c → c.Within s.world) (hR : R es s.world)
    (moves : List Move) : R (es ++ (s.play compiler moves).2) (s.play compiler moves).1.world := by
  have hbeside : s.Beside (Pairing.alone R) es s es := ⟨rfl, rfl, hs, rfl, rfl, hR⟩
  have ha : (Pairing.alone R).Absorbs := by
    rintro w es _ _ sent ⟨rfl, rfl, hR⟩
    exact ⟨rfl, rfl, habsorb sent hR⟩
  exact (hbeside.play h.parallel (installs hinstall) ha moves).related.2.2

end Passage

/-- Contexts that hold states of their own hold states that have been created. -/
theorem Session.Obeys.within {I : Context → List Deed → Prop} {P : List Deed → Prop}
    {s : Session σ} {events : List Event} (hs : s.Obeys I P events) {i : Nat} {c : Context}
    (hi : s.context? i = some c) : c.Within s.world := by
  intro handle hh
  obtain ⟨hn, _⟩ := (hs.coherent i c hi).of_handle hh
  exact hn ▸ hs.known i c hi

end EmbeddedC
