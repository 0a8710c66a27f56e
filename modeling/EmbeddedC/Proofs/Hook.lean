import EmbeddedC.Proofs.TimelyDeeds
import EmbeddedC.Proofs.PerformedOperations
import EmbeddedC.Proofs.StateLifetime
/-!
# Hooks

The hook that a context was given last runs right before each unit is handed to the compiler, and at
no other time. A compile that does not get as far as that does not run it.
-/

namespace EmbeddedC

/-- A hook that runs, or a unit that is handed over. -/
def Deed.isUnit : Deed → Bool
  | hookRan _ | called (.compile _) _ => true
  | _ => false

def Deed.hookTag? : Deed → Option String
  | hookRan hook => some hook
  | _ => none

namespace Event

def isUnit : Event → Bool
  | hookRan _ _ | called _ (.compile _) _ => true
  | _ => false

def hookTag? : Event → Option String
  | hookRan _ hook => some hook
  | _ => none

theorem isUnit_of_isQuiet {e : Event} (he : e.isQuiet) : e.isUnit = false := by
  cases e <;> first | rfl | exact Bool.noConfusion he

/-- What is done by a context of the state is a deed, as far as units go. -/
theorem deed?_of_isUnit {e : Event} {handle : Handle} (he : e.Keeps handle) (hu : e.isUnit) :
    ∃ d, e.deed? handle = some d ∧ d.isUnit := by
  cases e with
  | hookRan state? hook =>
    cases (he : state? = some handle)
    exact ⟨.hookRan hook, if_pos rfl, rfl⟩
  | called state? request answer =>
    cases (he : state? = some handle)
    cases request with
    | compile unit => exact ⟨.called (.compile unit) answer, if_pos rfl, rfl⟩
    | _ => exact Bool.noConfusion hu
  | _ => exact Bool.noConfusion hu

end Event

/-- A hook on a state, as it is seen to run. -/
def Hook.runs (handle : Handle) (hook? : Option Hook) : List Event :=
  (hook?.map fun hook => .hookRan (some handle) hook.tag).toList

/-- Each unit is handed over on the state, right after the hook if there is one, and no hook runs
unless its unit comes right after it. -/
structure Hooked (handle : Handle) (hook? : Option Hook) (events : List Event) : Prop where
  before : ∀ first state? unit answer rest,
    events = first ++ .called state? (.compile unit) answer :: rest →
      state? = some handle ∧ ∃ first', first = first' ++ Hook.runs handle hook?
  after : ∀ first state? tag rest, events = first ++ .hookRan state? tag :: rest →
    Hook.runs handle hook? = [.hookRan state? tag] ∧
      ∃ unit answer rest', rest = .called (some handle) (.compile unit) answer :: rest'

namespace Hooked

variable {handle : Handle} {hook? : Option Hook} {events more : List Event}

theorem of_not_unit (h : ∀ e ∈ events, e.isUnit = false) : Hooked handle hook? events := by
  constructor
  · rintro first state? unit answer rest rfl
    exact Bool.noConfusion (h _ (List.mem_append_right _ (.head _)))
  · rintro first state? tag rest rfl
    exact Bool.noConfusion (h _ (List.mem_append_right _ (.head _)))

private theorem append_eq_append_cons {first rest : List Event} {e : Event}
    (h : events ++ more = first ++ e :: rest) :
    (∃ mid, events = first ++ e :: mid ∧ rest = mid ++ more) ∨
      ∃ mid, more = mid ++ e :: rest ∧ first = events ++ mid := by
  rcases List.append_eq_append_iff.1 h with ⟨mid, rfl, hmore⟩ | ⟨mid, rfl, hrest⟩
  · exact .inr ⟨mid, hmore, rfl⟩
  · cases mid with
    | nil => exact .inr ⟨[], hrest.symm, by simp⟩
    | cons e' mid =>
      obtain ⟨rfl, rfl⟩ := List.cons.inj hrest
      exact .inl ⟨mid, rfl, rfl⟩

theorem append (h : Hooked handle hook? events) (h' : Hooked handle hook? more) :
    Hooked handle hook? (events ++ more) := by
  constructor
  · intro first state? unit answer rest he
    rcases append_eq_append_cons he with ⟨mid, hevents, _⟩ | ⟨mid, hmore, rfl⟩
    · exact h.before first state? unit answer mid hevents
    · obtain ⟨hstate, first', rfl⟩ := h'.before mid state? unit answer rest hmore
      exact ⟨hstate, events ++ first', by simp⟩
  · intro first state? tag rest he
    rcases append_eq_append_cons he with ⟨mid, hevents, rfl⟩ | ⟨mid, hmore, rfl⟩
    · obtain ⟨hruns, unit, answer, rest', rfl⟩ := h.after first state? tag mid hevents
      exact ⟨hruns, unit, answer, rest' ++ more, rfl⟩
    · exact h'.after mid state? tag rest hmore

/-- A unit handed over as it should be. -/
theorem unit (handle : Handle) (hook? : Option Hook) (unit : SourceUnit) (answer : Answer) :
    Hooked handle hook?
      (Hook.runs handle hook? ++ [.called (some handle) (.compile unit) answer]) := by
  constructor
  · intro first state? unit' answer' rest he
    rcases append_eq_append_cons he with ⟨mid, hruns, _⟩ | ⟨mid, hcall, rfl⟩
    · cases hook? <;> simp [Hook.runs, List.singleton_eq_append_iff] at hruns
    · cases mid with
      | nil =>
        obtain ⟨hcall, _⟩ := List.cons.inj hcall
        cases hcall
        exact ⟨rfl, [], by simp⟩
      | cons e mid => simp at hcall
  · intro first state? tag rest he
    rcases append_eq_append_cons he with ⟨mid, hruns, rfl⟩ | ⟨mid, hcall, _⟩
    · cases hook? with
      | none => simp [Hook.runs] at hruns
      | some hook =>
        obtain ⟨rfl, hone⟩ | ⟨_, hnil⟩ := List.singleton_eq_append_iff.1 hruns
        · obtain ⟨_, rfl⟩ := List.cons.inj hone
          exact ⟨hruns, unit, answer, [], rfl⟩
        · exact nomatch hnil
    · cases mid <;> simp at hcall

end Hooked

section Work

open ContextAction

variable {σ : Type} {compiler : Compiler σ} {c c' : Context} {handle : Handle} {ds : List Deed}
  {r : Except BindError Value} {events : List Event}

theorem not_unit_of_deeds (hk : ∀ e ∈ events, e.Keeps handle)
    (hd : ∀ d ∈ deeds handle events, d.isUnit = false) : ∀ e ∈ events, e.isUnit = false := by
  intro e he
  apply Bool.eq_false_iff.2
  intro hu
  obtain ⟨d, hde, hdu⟩ := Event.deed?_of_isUnit (hk e he) hu
  have hfalse := hd d (List.mem_filterMap.2 ⟨e, he, hde⟩)
  exact Bool.noConfusion (hfalse.symm.trans hdu)

private theorem not_unit_of_yields {α : Type} {x : ContextAction σ α}
    (hx : x.Yields handle c fun ds _ _ => ∀ d ∈ ds, d.isUnit = false) (w : World σ) :
    ∀ e ∈ (x ⟨c, w⟩).events, e.isUnit = false :=
  not_unit_of_deeds (hx w).keeps (hx w).post

theorem Context.FixesType.not_unit (hf : c.FixesType ds c') : ∀ d ∈ ds, d.isUnit = false := by
  cases hf <;> simp [Deed.isUnit]

theorem Context.FixesType.hook? (hf : c.FixesType ds c') : c'.hook? = c.hook? := by
  cases hf <;> rfl

theorem Task.Does.not_unit {task : Task} (hd : task.Does c ds r c') (hk : task.kind ≠ .compile) :
    ∀ d ∈ ds, d.isUnit = false := by
  cases hd with
  | compiled | compileFailed => exact absurd rfl hk
  | libraryAdded hf | libraryRefused hf =>
    refine List.forall_mem_append.2 ⟨hf.not_unit, ?_⟩
    simp [Deed.isUnit]
  | _ => simp [Deed.isUnit]

private theorem runHook_eq (hh : c.handle? = some handle) (w : World σ) :
    runHook ⟨c, w⟩ = ⟨.ok (), ⟨c, w⟩, Hook.runs handle c.hook?⟩ := by
  cases hc : c.hook? <;>
    simp [runHook, context, Action.get, Bind.bind, Action.bind, Pure.pure, Action.pure,
      Action.emit, hc, hh, Hook.runs]

private theorem hooked_unit {α : Type} (hh : c.handle? = some handle) (unit : SourceUnit)
    {k : Answer → ContextAction σ α}
    (hk : ∀ answer, (k answer).Yields handle c fun ds _ _ => ∀ d ∈ ds, d.isUnit = false)
    (w : World σ) :
    Hooked handle c.hook?
      ((runHook >>= fun _ => call compiler (.compile unit) >>= k) ⟨c, w⟩).events := by
  obtain ⟨answer, w', quiet, hcall, hquiet, _⟩ :=
    World.call_eq compiler handle (.compile unit) w
  have hall : ((runHook >>= fun _ => call compiler (.compile unit) >>= k) ⟨c, w⟩).events =
      Hook.runs handle c.hook? ++ [.called (some handle) (.compile unit) answer] ++
        (quiet ++ (k answer ⟨c, w'⟩).events) := by
    simp [Bind.bind, Action.bind, runHook_eq hh, call, Action.step, hh, hcall]
  have hsilent : ∀ e ∈ quiet, e.isUnit = false := fun e he => e.isUnit_of_isQuiet (hquiet e he)
  rw [hall]
  exact (Hooked.unit handle c.hook? unit answer).append
    ((Hooked.of_not_unit hsilent).append (.of_not_unit (not_unit_of_yields (hk answer) w')))

private theorem hooked_bind {α β : Type} {hook? : Option Hook} {x : ContextAction σ α}
    {f : α → ContextAction σ β}
    (hx : x.Yields handle c fun ds r d => (∀ d ∈ ds, d.isUnit = false) ∧
      ∀ a, r = .ok a → ∀ w, Hooked handle hook? (f a ⟨d, w⟩).events) (w : World σ) :
    Hooked handle hook? ((x >>= f) ⟨c, w⟩).events := by
  obtain ⟨⟨hdeeds, hrest⟩, hkeeps, _⟩ := hx w
  have hplain := not_unit_of_deeds hkeeps hdeeds
  simp only [Bind.bind, Action.bind]
  rcases ho : x ⟨c, w⟩ with ⟨r, ⟨d, w'⟩, events⟩
  rw [ho] at hrest hplain
  cases r with
  | error e => exact .of_not_unit hplain
  | ok a => exact (Hooked.of_not_unit hplain).append (hrest a rfl w')

private theorem hooked_silent {hook? : Option Hook} {x : ContextAction σ Unit} {s : Live σ}
    (hx : Hooked handle hook? (x s).events) : Hooked handle hook? (silent x s).events := by
  have hsame : (silent x s).events = (x s).events := by
    simp only [silent, Bind.bind, Action.bind]
    rcases x s with ⟨r, s', events⟩
    cases r <;> simp [Pure.pure, Action.pure]
  rwa [hsame]

private theorem hooked_compile (hh : c.handle? = some handle) (unit : SourceUnit) (w : World σ) :
    Hooked handle c.hook? ((Task.compile unit).perform compiler ⟨c, w⟩).events := by
  apply hooked_silent
  apply hooked_bind
  apply Yields.fixType hh
  · intro ds d hf
    refine ⟨hf.not_unit, fun _ _ w => ?_⟩
    rw [← hf.hook?]
    refine hooked_unit (hf.handle?.trans hh) unit (fun answer => ?_) w
    apply Yields.ite <;> intro _
    · exact Yields.bind (Yields.log (Yields.fail (by simp)))
    · exact Yields.bind (Yields.log (Yields.bind (Yields.modify (Yields.advance (by simp)))))
  · exact fun answer _ _ => ⟨by simp [Deed.isUnit], nofun⟩

/-- Whatever is performed on a context, units are handed over under its hook. -/
theorem Operation.hooked_perform (hc : c.Coherent) (operation : Operation) (w : World σ) :
    Hooked c.number c.hook? (operation.perform compiler ⟨c, w⟩).events := by
  cases hk : operation.check c with
  | error e =>
    rw [operation.perform_of_check_error compiler (s := ⟨c, w⟩) hk]
    exact .of_not_unit (by simp)
  | ok task =>
    have hh := hc.handle_of_live ((operation.checks c).of_ok task hk).2.live
    rw [operation.perform_of_check compiler (s := ⟨c, w⟩) hk]
    by_cases hu : task.kind = .compile
    · cases task with
      | compile unit => exact hooked_compile hh unit w
      | _ => exact nomatch hu
    · have hplain := (task.yields_perform compiler hh).mono fun _ _ _ hd => hd.not_unit hu
      exact .of_not_unit (not_unit_of_yields hplain w)

private theorem Operation.hooked_performAll (hc : c.Coherent) {operations : List Operation}
    (hr : ∀ operation ∈ operations, operation.isRoutine) (w : World σ) :
    Hooked c.number c.hook? (performAll compiler operations ⟨c, w⟩).events := by
  induction operations generalizing c w with
  | nil => exact .of_not_unit (by simp [performAll, Pure.pure, Action.pure])
  | cons operation rest ih =>
    have hfirst : Hooked c.number c.hook? (operation.perform compiler ⟨c, w⟩).events :=
      operation.hooked_perform hc w
    cases rest with
    | nil => exact hfirst
    | cons next rest =>
      have hd := (operation.yields_perform compiler hc w).post
      simp only [performAll, Bind.bind, Action.bind]
      rcases ho : operation.perform compiler ⟨c, w⟩ with ⟨r, ⟨d, w'⟩, events⟩
      rw [ho] at hd hfirst
      cases r with
      | error e => exact hfirst
      | ok value =>
        have hrest := ih (hd.reaches.coherent hc) (fun o h => hr o (.tail _ h)) w'
        rw [hd.reaches.number, (hd.retains (.inl (hr _ (.head _)))).hook?] at hrest
        exact hfirst.append hrest

theorem Job.hooked_perform (hc : c.Coherent) (job : Job) (w : World σ) :
    Hooked c.number c.hook? (job.perform compiler ⟨c, w⟩).events := by
  rw [Job.perform_eq]
  cases job.check (w.files compiler) c with
  | error e => exact .of_not_unit (by simp)
  | ok u => exact Operation.hooked_performAll hc (fun _ => Job.isRoutine_of_mem) w

end Work

section Compile

variable {c c' : Context} {ds : List Deed} {r : Except BindError Value}

/-- A compile that has got as far as the compiler. -/
def reachesCompiler : Except BindError Value → Bool
  | .ok _ | .error (.compile _ _) => true
  | .error _ => false

private theorem Operation.check_compile {operation : Operation} (hk : operation.kind = .compile)
    {e : BindError} (hc : operation.check c = .error e) : reachesCompiler (.error e) = false := by
  have hopen : ∀ name, c.ensureOpen name = .ok () ∨
      ∃ reason, c.ensureOpen name = .error (c.violation name reason) := by
    intro name
    cases hd : c.stage.isDisposed <;> cases ho : c.stage.isOpen <;>
      simp [Context.ensureOpen, Context.ensureLive, Context.ensure, hd, ho, Bind.bind, Except.bind]
  have hbind : ∀ {name : String} {text : Except BindError CText} {f : CText → Task},
      (∀ e, text = .error e → reachesCompiler (.error e) = false) →
        (c.ensureOpen name >>= fun _ => text >>= fun t => pure (f t)) = .error e →
          reachesCompiler (.error e) = false := by
    intro name text f htext h
    rcases hopen name with hok | ⟨reason, herr⟩
    · rw [hok] at h
      cases text with
      | error e' =>
        cases h
        exact htext e rfl
      | ok t => cases h
    · rw [herr] at h
      cases h
      rfl
  cases operation with
  | compileString source =>
    refine hbind (fun e h => ?_) hc
    unfold boundaryText at h
    split at h <;> cases h
    rfl
  | addFile path =>
    refine hbind (fun e h => ?_) hc
    unfold boundaryPath at h
    split at h <;> cases h
    rfl
  | _ => cases hk

private theorem Context.FixesType.units (hf : c.FixesType ds c') : ds.filter Deed.isUnit = [] :=
  List.filter_eq_nil_iff.2 fun d hd => by simp [hf.not_unit d hd]

private theorem Context.hookDeeds_units (c : Context) :
    c.hookDeeds.filter Deed.isUnit = c.hookDeeds := by
  unfold hookDeeds
  cases c.hook? <;> simp [Deed.isUnit]

/-- A compile hands over one unit, under the hook, or stops before both. -/
theorem Operation.Does.units {operation : Operation} (hk : operation.kind = .compile)
    (hd : operation.Does c ds r c') :
    if reachesCompiler r then ∃ unit answer,
      ds.filter Deed.isUnit = c.hookDeeds ++ [.called (.compile unit) answer]
    else ds.filter Deed.isUnit = [] := by
  cases hd with
  | refused hc =>
    rw [check_compile hk hc]
    rfl
  | @performed task _ _ _ hc hd =>
    have hkind := ((operation.checks c).of_ok task hc).1.trans hk
    -- fixing the type hands over nothing and leaves the hook as it is
    have hunits : ∀ {ds : List Deed} {d : Context} {unit : SourceUnit} {answer : Answer},
        c.FixesType ds d →
        (ds ++ (d.hookDeeds ++ [Deed.called (.compile unit) answer])).filter Deed.isUnit =
          c.hookDeeds ++ [.called (.compile unit) answer] := by
      intro ds d unit answer hf
      have hsame : d.hookDeeds = c.hookDeeds := by rw [Context.hookDeeds, hf.hook?]; rfl
      rw [List.filter_append, List.filter_append, hf.units, Context.hookDeeds_units, hsame]
      rfl
    cases hd with
    | compiled hf answer | compileFailed hf answer => exact ⟨_, answer, hunits hf⟩
    | typeRefused => simp [reachesCompiler, Deed.isUnit]
    | _ => cases hkind

private theorem Operation.Does.reachesCompiler_of_disposed {operation : Operation}
    (hk : operation.kind = .compile) (hd : operation.Does c ds r c') (hs : c.stage = .disposed) :
    reachesCompiler r = false := by
  cases hd with
  | refused hc => exact check_compile hk hc
  | performed hc => exact absurd hs ((operation.checks c).of_ok _ hc).2.live

end Compile

def Operation.hook? : Operation → Option Hook
  | setBeforeCompile hook => some hook
  | _ => none

/-- The hook that the context of an index was given last. -/
def hookOn (index : Nat) (turns : List Turn) : Option Hook :=
  ((performedOn index turns).filterMap Operation.hook?).getLast?

private theorem Task.Does.hook? {c c' : Context} {task : Task} {ds : List Deed}
    {r : Except BindError Value} (hd : task.Does c ds r c') (hk : ∀ hook, task ≠ .installHook hook)
    (hl : c'.stage ≠ .disposed) : c'.hook? = c.hook? := by
  cases hd with
  | hookInstalled hook => exact absurd rfl (hk hook)
  | disposed => exact absurd rfl hl
  | libraryAdded hf | libraryRefused hf | compiled hf | compileFailed hf =>
    cases hf <;> simp
  | _ => simp

private theorem Operation.check_hook {operation : Operation} {c : Context} {task : Task}
    (hc : operation.check c = .ok task) :
    (∃ hook, operation.hook? = some hook ∧ task = .installHook hook) ∨
      operation.hook? = none ∧ ∀ hook, task ≠ .installHook hook := by
  have hkind := ((operation.checks c).of_ok task hc).1
  have hpassed : ∀ {name : String} {task' : Task},
      (c.ensureLive name >>= fun _ => pure task') = .ok task → task = task' :=
    fun h => (Except.ok.inj (eq_ok_of_bind h)).symm
  cases operation with
  | setBeforeCompile hook => exact .inl ⟨hook, rfl, hpassed hc⟩
  | setErrorSink | clearErrorSink =>
    rw [hpassed hc]
    exact .inr ⟨rfl, nofun⟩
  | _ =>
    refine .inr ⟨rfl, ?_⟩
    rintro hook rfl
    exact nomatch hkind

private theorem Context.hangs : Account fun c past =>
    c.stage ≠ .disposed → c.hook? = (past.filterMap Operation.hook?).getLast? where
  fresh _ _ _ := rfl
  retained := by
    intro c c' past h hr hl
    rw [hr.hook?]
    exact h (mt hr.disposed.2 hl)
  performed := by
    intro c c' past operation ds value h hd hl
    cases hd with
    | @performed task _ _ _ hc hd =>
      have hlive := ((operation.checks c).of_ok task hc).2.live
      rw [List.filterMap_append]
      rcases operation.check_hook hc with ⟨hook, hk, rfl⟩ | ⟨hk, hother⟩
      · cases hd with
        | hookInstalled => simp [hk]
      · rw [hd.hook? hother hl]
        simpa [hk] using h hlive

/-- A hook runs when the type is known. -/
private def typeKnown (past : List Deed) (d : Deed) : Prop :=
  d.hookTag?.isSome → past.any Deed.fixesType

private theorem rules_typeKnown : Rules typeKnown := by
  intro past c d htracks htimely hhook
  cases d with
  | hookRan tag => exact htracks.fixed ▸ htimely.2
  | _ => exact nomatch hhook

private theorem law_typeKnown :
    Law (fun c ds => c.Tracks ds ∧ Heeds typeKnown ds) (Heeds typeKnown) :=
  rules_typeKnown.law nofun nofun

namespace Session

variable {σ : Type} (compiler : Compiler σ) {s : Session σ}

private theorem not_unit_of_carries {compiler : Compiler σ} {t : Toolchain} {ds : List Deed}
    {r : Except BindError Unit} (h : Carries compiler id t.errands ds r) :
    ∀ d ∈ ds, d.isUnit = false := by
  intro d hd
  obtain ⟨errand, herrand, ds', r', hends, hd'⟩ := h.exists_of_mem hd
  obtain ⟨setting, _, rfl⟩ := List.mem_map.1 herrand
  cases setting with
  | error e =>
    cases hends
    exact absurd hd' List.not_mem_nil
  | ok setting =>
    cases hends with
    | granted | refused =>
      cases List.mem_singleton.1 hd'
      rfl

private theorem not_unit_openContext (s : Session σ) (bare : Bool) :
    ∀ e ∈ (s.openContext compiler bare).events, e.isUnit = false := by
  have hevents : (s.openContext compiler bare).events =
      ((if bare then Context.create compiler s.toolchain.table
        else s.toolchain.openContext compiler) s.world).events := by
    simp only [openContext]
    split <;> rfl
  rw [hevents]
  cases bare with
  | true =>
    rw [if_pos rfl]
    cases hh : s.toolchain.table.abi.isHost with
    | false =>
      rw [Context.create_mismatch compiler hh]
      simp
    | true =>
      rcases hc : compiler.create s.world.outside with ⟨_ | _, outside⟩
      · rw [Context.create_exhausted compiler hh hc]
        simp [Event.isUnit]
      · obtain ⟨answer, w', events, ho, hquiet, _⟩ := Context.create_fresh compiler hh hc
        rw [ho]
        refine List.forall_mem_cons.2 ⟨rfl, List.forall_mem_cons.2 ⟨rfl, fun e he => ?_⟩⟩
        exact e.isUnit_of_isQuiet (hquiet e he)
  | false =>
    rw [if_neg Bool.false_ne_true]
    have h := s.toolchain.opening compiler s.world
    generalize s.toolchain.openContext compiler s.world = o at h
    cases h with
    | mismatch => simp
    | exhausted => simp [Event.isUnit]
    | opened answer _ _ hk hd hs =>
      refine List.forall_mem_cons.2 ⟨rfl, not_unit_of_deeds hk ?_⟩
      rw [hd]
      exact List.forall_mem_cons.2 ⟨rfl, not_unit_of_carries hs⟩
    | abandoned answer deleted _ _ hk hd hs =>
      refine List.forall_mem_cons.2 ⟨rfl, not_unit_of_deeds hk ?_⟩
      rw [hd]
      refine List.forall_mem_cons.2 ⟨rfl, List.forall_mem_append.2 ⟨not_unit_of_carries hs, ?_⟩⟩
      simp [Deed.isUnit]

private theorem not_unit_move (hs : ∀ i c, s.context? i = some c → c.Coherent) {m : Move}
    (hm : ∀ i c, m.index? = some i → s.context? i = some c → c.stage = .disposed) :
    ∀ e ∈ (move compiler m s).events, e.isUnit = false := by
  -- A move that is not about a context in use hands nothing over.
  have hleads := leads_move compiler m s hs
  by_cases ho : ∃ bare, m = .openContext bare
  · obtain ⟨bare, rfl⟩ := ho
    exact not_unit_openContext compiler s bare
  · generalize (move compiler m s).events = events at hleads
    generalize (move compiler m s).state = s' at hleads
    cases hleads with
    | idle hq =>
      intro e he
      rcases hq e he with hquiet | rfl
      · exact e.isUnit_of_isQuiet hquiet
      · rfl
    | worked hi hc hk hr =>
      apply not_unit_of_deeds hk
      rw [hr.deeds_of_disposed (hm _ _ hi hc)]
      simp
    | dropped hc hk hr =>
      apply not_unit_of_deeds hk
      generalize deeds _ events = ds at hr
      cases hr <;> simp [Deed.isUnit]
    | opened | abandoned => exact absurd ⟨_, rfl⟩ ho

private theorem hooked_move (hs : ∀ i c, s.context? i = some c → c.Coherent) {m : Move} {i : Nat}
    {c : Context} (hm : m.index? = some i) (hi : s.context? i = some c) :
    Hooked c.number c.hook? (move compiler m s).events := by
  have hc := hs i c hi
  cases m with
  | drop j =>
    cases hm
    obtain ⟨⟨hreleases, _⟩, hkeeps, _⟩ := ContextAction.yields_release compiler hc s.world
    have hevents : (move compiler (.drop i) s).events =
        (ContextAction.release compiler ⟨c, s.world⟩).events := by
      simp [move, drop, hi]
    rw [hevents]
    refine .of_not_unit (not_unit_of_deeds hkeeps ?_)
    generalize deeds c.number _ = ds at hreleases
    cases hreleases <;> simp [Deed.isUnit]
  | perform j operation =>
    cases hm
    have hevents := on_events hi (operation.perform compiler)
    rw [show (move compiler (.perform i operation) s).events = _ from hevents]
    exact operation.hooked_perform hc s.world
  | runJob j job =>
    cases hm
    have hevents := on_events hi (job.perform compiler)
    rw [show (move compiler (.runJob i job) s).events = _ from hevents]
    exact job.hooked_perform hc s.world
  | _ => cases hm

/-- Whatever is done with a session, the hook that a context was given last runs once right before
each unit that is handed over on the context's state, when the output type is known, and no hook
runs at any other time. A compile that stops before the unit does not run it, one that the compiler
makes fail has run it once, and on a context that has been disposed of no hook runs ever again. -/
theorem hook_runs_before_each_unit (toolchain : Toolchain) (w : World σ) (before : List Move)
    (m : Move) :
    let start : Session σ := ⟨toolchain, w, []⟩
    let s := (start.play compiler before).1
    let past := start.turns compiler before
    let o := move compiler m s
    (∀ i c, m.index? = some i → s.context? i = some c →
      Hooked c.number (hookOn i past) o.events) ∧
      ((∀ i c, m.index? = some i → s.context? i = some c → c.stage = .disposed) →
        ∀ e ∈ o.events, e.isUnit = false) ∧
      (∀ i c operation, m = .perform i operation → operation.kind = .compile →
        s.context? i = some c →
          let ds := deeds c.number o.events
          let r := (operation.perform compiler ⟨c, s.world⟩).result
          if reachesCompiler r then ∃ unit answer, ds.filter Deed.isUnit =
            (hookOn i past).toList.map (.hookRan ·.tag) ++ [.called (.compile unit) answer]
          else ds.filter Deed.isUnit = []) ∧
      (∀ handle first tag rest,
        deeds handle (start.play compiler before).2 = first ++ .hookRan tag :: rest →
          first.any Deed.fixesType) ∧
      ∀ i c, s.context? i = some c → c.stage = .disposed →
        ∀ later tag, .hookRan (some c.number) tag ∉ (s.play compiler later).2 := by
  intro start s past o
  have hs := law_minds.play compiler toolchain w before
  have hhook : ∀ i c, s.context? i = some c → c.stage ≠ .disposed → c.hook? = hookOn i past :=
    fun i c hi => Context.hangs.play compiler toolchain w before hi
  have hdisposed : ∀ i c, s.context? i = some c → c.stage = .disposed →
      ∀ later, deeds c.number (s.play compiler later).2 = [] := by
    intro i c hi hd later
    have hdeleted := hs.held i c hi
    rw [Context.Minds, if_pos hd] at hdeleted
    have hlater := hs.play compiler law_minds later
    apply hdeleted.eq_nil
    rw [← deeds_append]
    refine hlater.deeds (Q := fun ds => InUse ds ∨ ds = [] ∨ Deleted ds) (fun c ds hI => ?_)
      (fun ds => .inr) c.number
    unfold Context.Minds at hI
    split at hI
    · exact .inr (.inr hI)
    · exact .inl hI
  refine ⟨?_, not_unit_move compiler hs.coherent, ?_, ?_, ?_⟩
  · intro i c hm hi
    by_cases hd : c.stage = .disposed
    · refine .of_not_unit (not_unit_move compiler hs.coherent fun j d hj hd' => ?_)
      cases hm.symm.trans hj
      cases hi.symm.trans hd'
      exact hd
    · rw [← hhook i c hi hd]
      exact hooked_move compiler hs.coherent hm hi
  · rintro i c operation rfl hk hi ds r
    have hds : ds = deeds c.number (operation.perform compiler ⟨c, s.world⟩).events :=
      congrArg (deeds c.number) (on_events hi (operation.perform compiler))
    have hdone := (operation.yields_perform compiler (hs.coherent i c hi) s.world).post
    rw [← hds] at hdone
    have hunits := hdone.units hk
    by_cases hd : c.stage = .disposed
    · have hstopped : reachesCompiler r = false := hdone.reachesCompiler_of_disposed hk hd
      rw [hstopped] at hunits ⊢
      exact hunits
    · rwa [Context.hookDeeds, hhook i c hi hd, Option.toList_map] at hunits
  · intro handle first tag rest hdeeds
    have hheeds : Heeds typeKnown (deeds handle (start.play compiler before).2) :=
      (law_typeKnown.play compiler toolchain w before).deeds (fun _ _ h => h.2) (fun _ h => h)
        handle
    exact hheeds first _ rest hdeeds rfl
  · intro i c hi hd later tag hran
    have hmem : .hookRan tag ∈ deeds c.number (s.play compiler later).2 :=
      List.mem_filterMap.2 ⟨_, hran, if_pos rfl⟩
    rw [hdisposed i c hi hd later] at hmem
    exact absurd hmem List.not_mem_nil

/-- A hook runs for a unit that is compiled, and not for one that comes after the end. -/
theorem hook_runs_until_disposal :
    let toolchain : Toolchain := ⟨⟨.wide, ⟨[]⟩⟩, ⟨⟨[]⟩⟩, {}⟩
    let start : Session Unit := ⟨toolchain, ⟨(), []⟩, []⟩
    let before : List Move := [.openContext true, .perform 0 (.setBeforeCompile ⟨"count"⟩)]
    let m : Move := .perform 0 (.compileString "int x;")
    let s := (start.play .agreeable before).1
    let s' := (start.play .agreeable (before ++ [.perform 0 .dispose])).1
    (∃ unit answer, (deeds 0 (move .agreeable m s).events).filter Deed.isUnit =
      [.hookRan "count", .called (.compile unit) answer]) ∧
      ∀ later tag, .hookRan (some 0) tag ∉ (s'.play .agreeable later).2 := by
  intro toolchain start before m s s'
  obtain ⟨_, _, hcompile, _⟩ := hook_runs_before_each_unit .agreeable toolchain ⟨(), []⟩ before m
  obtain ⟨_, _, _, _, hdisposed⟩ := hook_runs_before_each_unit .agreeable toolchain ⟨(), []⟩
    (before ++ [.perform 0 .dispose]) m
  refine ⟨?_, hdisposed 0 _ rfl rfl⟩
  exact hcompile 0 _ _ rfl rfl rfl

end Session

end EmbeddedC
