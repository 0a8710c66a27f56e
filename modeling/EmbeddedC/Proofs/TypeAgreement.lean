import EmbeddedC.Proofs.TimelyDeeds
/-!
# One output type

The host chooses an output type at once, the compiler is told it late and may refuse it. Still both
agree: everything that depends on the type comes after the one call that fixes it, and from then on
the context reports the type that was sent.
-/

namespace EmbeddedC

/-- What a compiler can do only once it knows the output type. -/
def Deed.needsType : Deed → Bool
  | called (.addLibrary _) _ | called (.compile _) _ | called (.relocate _) _
  | called (.getSymbol _) _ | called (.outputFile _) _ => true
  | _ => false

/-- The type is fixed once, before all that needs it. -/
structure Typed (past : List Deed) (d : Deed) : Prop where
  first : d.needsType → past.any Deed.fixesType
  once : d.fixesType → past.any Deed.fixesType = false

namespace Typed

private theorem of_fixed {past : List Deed} {d : Deed} (h : past.any Deed.fixesType)
    (hd : d.fixesType = false) : Typed past d :=
  ⟨fun _ => h, fun hf => absurd hf (Bool.eq_false_iff.1 hd)⟩

theorem rules : Rules Typed := by
  intro past c d h hd
  cases d with
  | created => exact hd.elim
  | hookRan | entered => exact ⟨nofun, nofun⟩
  | called request answer =>
    cases request with
    | setErrorFunc | run => exact hd.elim
    | delete | configure | addSymbol => exact ⟨nofun, nofun⟩
    | setOutputType => exact ⟨nofun, fun _ => h.fixed.symm.trans hd.2.1⟩
    | addLibrary | compile => exact of_fixed (h.fixed.symm.trans hd.2) rfl
    | relocate =>
      obtain ⟨hs, _⟩ := hd
      exact of_fixed (h.fixed.symm.trans (h.typeFixed (by simp [hs]) (by rw [hs]; rfl))) rfl
    | getSymbol =>
      obtain ⟨hl, hu, _⟩ := Stage.unemitted_of_isRelocated hd
      exact of_fixed (h.fixed.symm.trans (h.typeFixed hl hu)) rfl
    | outputFile =>
      obtain ⟨hl, hu, _⟩ := Stage.writable_iff.1 hd.2.2
      exact of_fixed (h.fixed.symm.trans (h.typeFixed hl hu)) rfl

theorem law : Law (fun c ds => c.Tracks ds ∧ Heeds Typed ds) (Heeds Typed) :=
  rules.law ⟨nofun, nofun⟩ fun _ => ⟨nofun, nofun⟩

end Typed

/-- The first thing done is to send a type. -/
def Sends (type : OutputType) (ds : List Deed) : Prop :=
  ∃ answer rest, ds = .called (.setOutputType type.code) answer :: rest

theorem Sends.append {type : OutputType} {ds : List Deed} (h : Sends type ds) (ds' : List Deed) :
    Sends type (ds ++ ds') := by
  obtain ⟨answer, rest, rfl⟩ := h
  exact ⟨answer, rest ++ ds', rfl⟩

section Retry

variable {c c' : Context} {ds : List Deed} {r : Except BindError Value}

private theorem sends_fixType (hf : c.FixesType ds c') (hc : c.typeFixed = false) :
    Sends c.outputType ds := by
  cases hf with
  | known h => simp [h] at hc
  | sent answer => exact ⟨answer, [], rfl⟩

private theorem Task.Does.sends {task : Task} (hd : task.Does c ds r c') (hn : task.needsType)
    (hc : c.typeFixed = false) : Sends c.outputType ds := by
  cases hd with
  | typeRefused answer => exact ⟨answer, [], rfl⟩
  | libraryAdded hf | libraryRefused hf | compiled hf | compileFailed hf =>
    exact (sends_fixType hf hc).append _
  | _ => exact Bool.noConfusion hn

private theorem needsType_of_kind {task : Task} (hk : task.kind = .library ∨ task.kind = .compile) :
    task.needsType := by
  cases task with
  | addLibrary | compile => rfl
  | _ => rcases hk with hk | hk <;> exact nomatch hk

/-- Where a condition holds a type is sent before all else; where it does not, nothing is done. -/
def SendsWhere (condition : Prop) (type : OutputType) (ds : List Deed) : Prop :=
  (condition → Sends type ds) ∧ (¬condition → ds = [])

/-- An operation whose check passes. -/
def Operation.Clears (operation : Operation) (c : Context) : Prop :=
  ∃ task, operation.check c = .ok task

private theorem Operation.not_clears_of_error {operation : Operation} {e : BindError}
    (h : operation.check c = .error e) : ¬operation.Clears c := by
  rintro ⟨task, ht⟩
  rw [h] at ht
  cases ht

private theorem Operation.Does.sends {operation : Operation}
    (hk : operation.kind = .library ∨ operation.kind = .compile) (hc : c.typeFixed = false)
    (hd : operation.Does c ds r c') :
    (¬operation.Clears c ∧ ds = [] ∧ ∃ e, r = .error e) ∨
      operation.Clears c ∧ Sends c.outputType ds := by
  cases hd with
  | refused he => exact .inl ⟨not_clears_of_error he, rfl, _, rfl⟩
  | performed ht hd =>
    have hkind := ((operation.checks c).of_ok _ ht).1
    exact .inr ⟨⟨_, ht⟩, hd.sends (needsType_of_kind (by rwa [hkind])) hc⟩

private theorem Operation.Does.chosen {type : OutputType} (hc : c.typeFixed = false)
    (hd : (Operation.setOutputType type).Does c ds r c') :
    ds = [] ∧ ((¬(Operation.setOutputType type).Clears c ∧ ∃ e, r = .error e) ∨
      (Operation.setOutputType type).Clears c ∧ (∃ value, r = .ok value) ∧
        c' = { c with outputType := type }.configured) := by
  cases hd with
  | refused he => exact ⟨rfl, .inl ⟨not_clears_of_error he, _, rfl⟩⟩
  | @performed task _ _ _ ht hd =>
    have htask : task = .chooseType type := by
      rw [Operation.check, hc] at ht
      cases ho : c.ensureOpen "set_output_type" with
      | error e =>
        rw [ho] at ht
        exact nomatch ht
      | ok u =>
        rw [ho] at ht
        exact (Except.ok.inj ht).symm
    subst htask
    cases hd with
    | typeRefused _ hn => exact Bool.noConfusion hn
    | typeChosen => exact ⟨rfl, .inr ⟨⟨_, ht⟩, ⟨_, rfl⟩, rfl⟩⟩

variable {σ : Type} (compiler : Compiler σ)

private theorem yields_sends (hc : c.Coherent) (hf : c.typeFixed = false) {operation : Operation}
    (hk : operation.kind = .library ∨ operation.kind = .compile) (rest : List Operation) :
    ContextAction.Yields c.number (Operation.performAll compiler (operation :: rest)) c
      fun ds _ _ => SendsWhere (operation.Clears c) c.outputType ds := by
  have hfirst : ∀ {ds r c'}, operation.Does c ds r c' →
      SendsWhere (operation.Clears c) c.outputType ds := by
    intro ds r c' hd
    rcases hd.sends hk hf with ⟨hn, hds, -⟩ | ⟨hp, hs⟩
    · exact ⟨fun hp => absurd hp hn, fun _ => hds⟩
    · exact ⟨fun _ => hs, fun hn => absurd hp hn⟩
  have hp := operation.yields_perform compiler hc
  cases rest with
  | nil => exact hp.mono fun ds r c' hd => hfirst hd
  | cons next rest =>
    refine ContextAction.Yields.bind (hp.mono fun ds r c' hd => ?_)
    cases r with
    | error e => exact hfirst hd
    | ok value =>
      obtain ⟨hclears, hs⟩ := (hd.sends hk hf).resolve_left fun ⟨_, _, _, hr⟩ => nomatch hr
      have hrest := Operation.yields_performAll compiler (hd.reaches.coherent hc) (next :: rest)
      rw [hd.reaches.number] at hrest
      exact hrest.mono fun ds' _ _ _ => ⟨fun _ => hs.append ds', fun hn => absurd hclears hn⟩

private theorem yields_chosen (hc : c.Coherent) (hf : c.typeFixed = false) {type : OutputType}
    {operation : Operation} (hk : operation.kind = .library ∨ operation.kind = .compile)
    (rest : List Operation) :
    ContextAction.Yields c.number
      (Operation.performAll compiler (.setOutputType type :: operation :: rest)) c
      fun ds _ _ => SendsWhere ((Operation.setOutputType type).Clears c ∧
        operation.Clears { c with outputType := type }.configured) type ds := by
  have hp := (Operation.setOutputType type).yields_perform compiler hc
  refine ContextAction.Yields.bind (hp.mono fun ds r c' hd => ?_)
  obtain ⟨rfl, ⟨hn, e, rfl⟩ | ⟨hclears, ⟨value, rfl⟩, hchosen⟩⟩ := hd.chosen hf
  · exact ⟨fun hp => absurd hp.1 hn, fun _ => rfl⟩
  · have hfixed : c'.typeFixed = false := by simpa [hchosen] using hf
    have htype : c'.outputType = type := by simp [hchosen]
    have hs := yields_sends compiler (hd.reaches.coherent hc) hfixed hk rest
    rw [hd.reaches.number, htype, hchosen] at hs
    rw [hchosen]
    exact hs.mono fun ds _ _ ⟨hsends, hnone⟩ =>
      ⟨fun hp => hsends hp.2, fun hn => hnone fun hp => hn ⟨hclears, hp⟩⟩

namespace Job

def outputType : Job → OutputType
  | compileSourceTo _ kind _ | compileFileTo _ kind _ => kind
  | runFile _ _ => .memory

/-- The operation that hands over what a job compiles. -/
def unit : Job → Operation
  | compileSourceTo source _ _ => .compileString source
  | compileFileTo path _ _ | runFile path _ => .addFile path

/-- A job gets to what it compiles: it may begin, choose its type, and hand the unit over then. -/
structure ReachesUnit (files : FileSystem) (c : Context) (job : Job) : Prop where
  begins : job.check files c = .ok ()
  chooses : (Operation.setOutputType job.outputType).Clears c
  handsOver : job.unit.Clears { c with outputType := job.outputType }.configured

private theorem sends_perform (hc : c.Coherent) (hf : c.typeFixed = false) (job : Job)
    (w : World σ) :
    SendsWhere (job.ReachesUnit (w.files compiler) c) job.outputType
      (deeds c.number (job.perform compiler ⟨c, w⟩).events) := by
  have hunit : ∃ rest, job.operations = .setOutputType job.outputType :: job.unit :: rest ∧
      (job.unit.kind = .library ∨ job.unit.kind = .compile) := by
    cases job <;> exact ⟨_, rfl, .inr rfl⟩
  obtain ⟨rest, hoperations, hk⟩ := hunit
  rw [job.perform_eq]
  cases hcheck : job.check (w.files compiler) c with
  | error e =>
    refine ⟨fun h => ?_, fun _ => rfl⟩
    rw [h.begins] at hcheck
    cases hcheck
  | ok u =>
    obtain ⟨hsends, hnone⟩ := (yields_chosen compiler hc hf hk rest w).post
    rw [hoperations]
    exact ⟨fun h => hsends ⟨h.chooses, h.handsOver⟩,
      fun hn => hnone fun h => hn ⟨hcheck, h.1, h.2⟩⟩

end Job

end Retry

namespace Session

variable {σ : Type} (compiler : Compiler σ)

/-- A session whose contexts and their states agree on output types, given all events so far. -/
structure Agrees (s : Session σ) (events : List Event) : Prop where
  once : ∀ handle, (deeds handle events).countP Deed.fixesType ≤ 1
  first : ∀ handle, Heeds Typed (deeds handle events)
  /-- The type that a context reports is the one the compiler accepted. -/
  reported : ∀ i c code answer, s.context? i = some c →
    .called (some c.number) (.setOutputType code) answer ∈ events → 0 ≤ answer.status →
      OutputType.ofCode? code = some c.outputType
  /-- As long as none is accepted, whatever needs a type begins by sending the one chosen last. -/
  retried : ∀ i c operation task, s.context? i = some c →
    (deeds c.number events).any Deed.fixesType = false →
      operation.kind = .library ∨ operation.kind = .compile → operation.check c = .ok task →
        Sends c.outputType (deeds c.number (move compiler (.perform i operation) s).events)
  /-- A job begins by sending its own type, if it gets to what it compiles, and does nothing if it
  does not. -/
  retriedByJob : ∀ i c job, s.context? i = some c →
    (deeds c.number events).any Deed.fixesType = false →
      SendsWhere (job.ReachesUnit (s.world.files compiler) c) job.outputType
        (deeds c.number (move compiler (.runJob i job) s).events)

/-- Host and compiler agree on output types all through a session. -/
theorem agrees_on_types (toolchain : Toolchain) (w : World σ) (moves : List Move) :
    (play compiler ⟨toolchain, w, []⟩ moves).1.Agrees compiler
      (play compiler ⟨toolchain, w, []⟩ moves).2 := by
  have hs := Typed.law.play compiler toolchain w moves
  have hunfixed : ∀ {i c}, (play compiler ⟨toolchain, w, []⟩ moves).1.context? i = some c →
      (deeds c.number (play compiler ⟨toolchain, w, []⟩ moves).2).any Deed.fixesType = false →
        c.typeFixed = false := fun hi hn => (hs.held _ _ hi).1.fixed.trans hn
  have hheeds := hs.deeds (fun _ _ h => h.2) (fun _ h => h)
  constructor
  · exact fun handle => (hheeds handle).countP_le_one fun _ _ hd => hd.once
  · exact hheeds
  · intro i c code answer hi hm ha
    have hcode := (hs.held i c hi).1.code code answer (called_mem_deeds.2 hm) ha
    exact OutputType.ofCode?_eq_some_iff.2 hcode.symm
  · intro i c operation task hi hn hk ht
    have hp := operation.yields_perform compiler (hs.coherent i c hi)
    rw [move, on_events hi]
    refine (((hp _).post.sends hk (hunfixed hi hn)).resolve_left ?_).2
    rintro ⟨hrefused, -⟩
    exact hrefused ⟨task, ht⟩
  · intro i c job hi hn
    rw [move, on_events hi]
    exact job.sends_perform compiler (hs.coherent i c hi) (hunfixed hi hn) _

end Session

end EmbeddedC
