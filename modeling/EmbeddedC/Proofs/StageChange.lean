import EmbeddedC.Job
import EmbeddedC.Proofs.Refusal

/-!
# Changes of stage

Each change of stage is logged with the stages before and after. Whatever is done with a context, the
changes that are logged lead from the stage it was at to the stage it is at, one after the other and
each of them a transition that there is: a task changes the stage at one place, and its time is what
makes that change one of these.
-/

namespace EmbeddedC

/-- The change of stage that an event tells, if it does. -/
def Event.stageChange? : Event → Option (Stage × Stage)
  | logged (.stageChanged before after) => some (before, after)
  | _ => none

/-- All changes of stage, in the order in which they are logged. -/
def stageChanges (events : List Event) : List (Stage × Stage) :=
  events.filterMap Event.stageChange?

@[simp] theorem stageChanges_nil : stageChanges [] = [] := rfl

@[simp] theorem stageChanges_append (events more : List Event) :
    stageChanges (events ++ more) = stageChanges events ++ stageChanges more :=
  List.filterMap_append

/-- Nothing else is logged at the level of changes of stage. -/
theorem LogRecord.level_eq_trace_iff {record : LogRecord} :
    record.level = .trace ↔ ∃ before after, record = .stageChanged before after := by
  constructor
  · intro h
    cases record with
    | stageChanged before after => exact ⟨before, after, rfl⟩
    | _ => exact Level.noConfusion h
  · rintro ⟨before, after, rfl⟩
    rfl

namespace Stage

/-- The transitions that there are. -/
inductive Transition : Stage → Stage → Prop
  | configured : Transition created configured
  | compiled {s : Stage} (h : s = created ∨ s = configured) : Transition s compiled
  | relocated : Transition compiled relocated
  | emitted : Transition compiled (finalized .emitted)
  | resolved {s : Stage} (h : s = relocated ∨ s = finalized .ran) : Transition s (finalized .resolved)
  | ran {s : Stage} (h : s = relocated ∨ s = finalized .resolved) : Transition s (finalized .ran)
  | disposed {s : Stage} (h : s ≠ disposed) : Transition s disposed

/-- Changes of stage that lead from one stage to another without a gap. -/
inductive Chain : Stage → List (Stage × Stage) → Stage → Prop
  | nil (s : Stage) : Chain s [] s
  | cons {s next s' : Stage} {changes : List (Stage × Stage)} (h : Transition s next)
    (hc : Chain next changes s') : Chain s ((s, next) :: changes) s'

/-- How far a stage is in the life of a context. A finished context is in one phase, however it was
finished. -/
def phase : Stage → Nat
  | created => 0
  | configured => 1
  | compiled => 2
  | relocated => 3
  | finalized _ => 4
  | disposed => 5

section Transition

variable {s s' : Stage}

theorem Transition.phase_le (h : Transition s s') : s.phase ≤ s'.phase := by
  cases h with
  | configured | relocated | emitted => decide
  | compiled h | resolved h | ran h => rcases h with rfl | rfl <;> decide
  | disposed => cases s <;> simp [phase]

theorem Transition.live (h : Transition s s') : s ≠ .disposed := by
  cases h with
  | configured | relocated | emitted => nofun
  | compiled h | resolved h | ran h => rcases h with rfl | rfl <;> nofun
  | disposed h => exact h

/-- Code that lies in memory stays there until the end. -/
theorem Transition.isRelocated (h : Transition s s') (hs : s.isRelocated) :
    s'.isRelocated ∨ s' = .disposed := by
  cases h with
  | configured | relocated | emitted => exact Bool.noConfusion hs
  | compiled h => rcases h with rfl | rfl <;> exact Bool.noConfusion hs
  | resolved | ran => exact .inl rfl
  | disposed => exact .inr rfl

/-- After a file is written there is nothing left but the end. -/
theorem Transition.of_emitted (h : Transition (finalized .emitted) s') : s' = .disposed := by
  cases h with
  | disposed => rfl
  | compiled h | resolved h | ran h => exact h.elim nofun nofun

end Transition

namespace Chain

variable {s s' s'' : Stage} {changes more : List (Stage × Stage)}

theorem one (h : Transition s s') : Chain s [(s, s')] s' :=
  .cons h (.nil s')

theorem append (h : Chain s changes s') (h' : Chain s' more s'') :
    Chain s (changes ++ more) s'' := by
  induction h with
  | nil => exact h'
  | cons ht _ ih => exact .cons ht (ih h')

theorem phase_le (h : Chain s changes s') : s.phase ≤ s'.phase := by
  induction h with
  | nil => exact Nat.le_refl _
  | cons ht _ ih => exact Nat.le_trans ht.phase_le ih

theorem of_disposed (h : Chain disposed changes s') : changes = [] ∧ s' = disposed := by
  cases h with
  | nil => exact ⟨rfl, rfl⟩
  | cons ht => exact (ht.live rfl).elim

/-- No chain leads back to where contexts begin. -/
theorem eq_nil_iff_created (h : Chain created changes s') : changes = [] ↔ s' = created := by
  constructor
  · rintro rfl
    cases h
    rfl
  · rintro rfl
    cases h with
    | nil => rfl
    | cons ht hc =>
      have hphase := hc.phase_le
      cases ht <;> exact absurd hphase (by decide)

theorem not_emitted (h : Chain s changes s') (hs : s.isRelocated ∨ s = disposed) (before : Stage) :
    (before, finalized .emitted) ∉ changes := by
  induction h with
  | nil => exact List.not_mem_nil
  | cons ht hc ih =>
    have hnext := ht.isRelocated (hs.resolve_right ht.live)
    intro hmem
    rcases List.mem_cons.1 hmem with hfirst | hrest
    · rw [← (Prod.mk.inj hfirst).2] at hnext
      exact hnext.elim nofun nofun
    · exact ih hnext hrest

theorem not_relocated (h : Chain s changes s') (hs : s = finalized .emitted ∨ s = disposed)
    (before : Stage) : (before, relocated) ∉ changes := by
  induction h with
  | nil => exact List.not_mem_nil
  | cons ht hc ih =>
    have hnext := (hs.resolve_right ht.live ▸ ht).of_emitted
    intro hmem
    rcases List.mem_cons.1 hmem with hfirst | hrest
    · have habsurd : relocated = disposed := (Prod.mk.inj hfirst).2.trans hnext
      exact nomatch habsurd
    · exact ih (.inr hnext) hrest

/-- Nothing is both placed in memory and written to a file. -/
theorem relocated_or_emitted (h : Chain s changes s') :
    ¬((∃ before, (before, relocated) ∈ changes) ∧
      ∃ before, (before, finalized .emitted) ∈ changes) := by
  induction h with
  | nil => simp
  | cons ht hc ih =>
    rintro ⟨⟨before, hplaced⟩, before', hwritten⟩
    rcases List.mem_cons.1 hplaced with hfirst | hplaced <;>
      rcases List.mem_cons.1 hwritten with hfirst' | hwritten
    · have habsurd : relocated = finalized .emitted :=
        (Prod.mk.inj hfirst).2.trans (Prod.mk.inj hfirst').2.symm
      exact nomatch habsurd
    · exact hc.not_emitted (.inl ((Prod.mk.inj hfirst).2 ▸ rfl)) before' hwritten
    · exact hc.not_relocated (.inl (Prod.mk.inj hfirst').2.symm) before hplaced
    · exact ih ⟨⟨before, hplaced⟩, before', hwritten⟩

end Chain

end Stage

section Quiet

variable {σ : Type}

private theorem stageChanges_receive (c : Channel) (handle : Handle) (text : String) :
    stageChanges (c.receive handle text) = [] := by
  unfold Channel.receive
  cases c.sink? with
  | none => rfl
  | some sink =>
    dsimp only
    split <;> rfl

/-- What happens on the other side changes no stage. -/
theorem World.stageChanges_absorb (w : World σ) (sent : List Emission) :
    stageChanges (w.absorb sent).2 = [] := by
  induction sent generalizing w with
  | nil => rfl
  | cons emission sent ih =>
    cases emission with
    | entered address arguments => exact ih w
    | message handle text =>
      simp only [absorb, stageChanges_append, ih, List.append_nil]
      unfold message
      split
      · rfl
      · next c _ => exact stageChanges_receive c handle text.text

theorem World.stageChanges_call (compiler : Compiler σ) (handle : Handle) (request : Request)
    (w : World σ) : stageChanges (World.call compiler handle request w).2.2 = [] :=
  stageChanges_absorb _ _

end Quiet

namespace ContextAction

variable {σ α β : Type} {s : Stage}

/-- Logs no change of stage and makes none. -/
def Stays (x : ContextAction σ α) : Prop :=
  ∀ l, stageChanges (x l).events = [] ∧ (x l).state.context.stage = l.context.stage

/-- Logs a chain of changes, from the stage a context is at to the stage it is left at. -/
def Walks (s : Stage) (x : ContextAction σ α) : Prop :=
  ∀ l, l.context.stage = s →
    Stage.Chain s (stageChanges (x l).events) (x l).state.context.stage

namespace Stays

theorem pure (a : α) : Stays (σ := σ) (Pure.pure a) := fun _ => ⟨rfl, rfl⟩

theorem fail (e : BindError) : Stays (σ := σ) (α := α) (Action.fail e) := fun _ => ⟨rfl, rfl⟩

theorem context : Stays (σ := σ) ContextAction.context := fun _ => ⟨rfl, rfl⟩

theorem modify {f : Context → Context} (hf : ∀ c, (f c).stage = c.stage) :
    Stays (σ := σ) (ContextAction.modify f) := fun l => ⟨rfl, hf l.context⟩

theorem log {record : LogRecord} (h : record.level ≠ .trace) :
    Stays (σ := σ) (ContextAction.log record) := by
  refine fun _ => ⟨?_, rfl⟩
  cases record with
  | stageChanged => exact absurd rfl h
  | _ => rfl

theorem bind {x : ContextAction σ α} {f : α → ContextAction σ β} (hx : Stays x)
    (hf : ∀ a, Stays (f a)) : Stays (x >>= f) := by
  intro l
  obtain ⟨hchanges, hstage⟩ := hx l
  simp only [Bind.bind, Action.bind]
  rcases ho : x l with ⟨_ | a, l', events⟩
  · rw [ho] at hchanges hstage
    exact ⟨hchanges, hstage⟩
  · rw [ho] at hchanges hstage
    obtain ⟨hmore, hnext⟩ := hf a l'
    exact ⟨by rw [stageChanges_append, hchanges, hmore]; rfl, hnext.trans hstage⟩

theorem ite {p : Prop} [Decidable p] {x y : ContextAction σ α} (hx : Stays x) (hy : Stays y) :
    Stays (if p then x else y) := by
  split <;> assumption

variable (compiler : Compiler σ)

theorem call (request : Request) : Stays (ContextAction.call compiler request) := by
  intro l
  simp only [ContextAction.call, Action.step]
  cases l.context.handle? with
  | none => exact ⟨rfl, rfl⟩
  | some handle => exact ⟨World.stageChanges_call compiler handle request l.world, rfl⟩

theorem enter (address : Address) (arguments : Arguments) :
    Stays (ContextAction.enter compiler address arguments) :=
  fun _ => ⟨World.stageChanges_absorb _ _, rfl⟩

theorem checkStatus (entry : Entry) (argument : String) (status : Int32) :
    Stays (σ := σ) (ContextAction.checkStatus entry argument status) :=
  ite (bind (log nofun) fun _ => fail _) (pure ())

theorem release : Stays (ContextAction.release compiler) := by
  refine bind context fun c => ?_
  cases c.handle? with
  | none => exact pure ()
  | some handle =>
    exact bind (call compiler _) fun _ => bind (modify fun _ => rfl) fun _ => log nofun

theorem fixType : Stays (ContextAction.fixType compiler) := by
  refine bind context fun c => ite (pure ()) ?_
  refine bind (call compiler _) fun answer => bind (checkStatus _ _ _) fun _ => ?_
  exact bind (modify fun _ => rfl) fun _ => log nofun

theorem runHook : Stays (σ := σ) ContextAction.runHook := by
  refine bind context fun c => ?_
  cases c.hook? with
  | none => exact pure ()
  | some hook => exact fun _ => ⟨rfl, rfl⟩

theorem walks {x : ContextAction σ α} (hx : Stays x) (s : Stage) : Walks s x := by
  intro l hl
  obtain ⟨hchanges, hstage⟩ := hx l
  rw [hchanges, hstage, hl]
  exact .nil s

end Stays

namespace Walks

theorem stays_bind {x : ContextAction σ α} {f : α → ContextAction σ β} (hx : Stays x)
    (hf : ∀ a, Walks s (f a)) : Walks s (x >>= f) := by
  intro l hl
  obtain ⟨hchanges, hstage⟩ := hx l
  simp only [Bind.bind, Action.bind]
  rcases ho : x l with ⟨_ | a, l', events⟩
  · rw [ho] at hchanges hstage
    have hl' : l'.context.stage = s := hstage.trans hl
    simp only [hchanges, hl']
    exact .nil s
  · rw [ho] at hchanges hstage
    have h := hf a l' (hstage.trans hl)
    simpa only [stageChanges_append, hchanges, List.nil_append] using h

/-- What comes after may find the context at any stage. -/
theorem bind {x : ContextAction σ α} {f : α → ContextAction σ β} (hx : Walks s x)
    (hf : ∀ a s, Walks s (f a)) : Walks s (x >>= f) := by
  intro l hl
  have h := hx l hl
  simp only [Bind.bind, Action.bind]
  rcases ho : x l with ⟨_ | a, l', events⟩
  · rwa [ho] at h
  · rw [ho] at h
    simpa only [stageChanges_append] using h.append (hf a _ l' rfl)

theorem bind_stays {x : ContextAction σ α} {f : α → ContextAction σ β} (hx : Walks s x)
    (hf : ∀ a, Stays (f a)) : Walks s (x >>= f) :=
  hx.bind fun a s => (hf a).walks s

theorem context_bind {f : Context → ContextAction σ α} (h : ∀ c, c.stage = s → Walks s (f c)) :
    Walks s (ContextAction.context >>= f) := by
  intro l hl
  simpa [Bind.bind, Action.bind, Action.get, ContextAction.context, Pure.pure, Action.pure] using
    h l.context hl l hl

theorem ite {p : Prop} [Decidable p] {x y : ContextAction σ α} (hx : Walks s x)
    (hy : Walks s y) : Walks s (if p then x else y) := by
  split <;> assumption

theorem silent {x : ContextAction σ Unit} (hx : Walks s x) : Walks s (ContextAction.silent x) :=
  hx.bind_stays fun _ => .pure _

/-- The one place where a stage changes. -/
theorem advance {next : Stage} (h : s = next ∨ s.Transition next) :
    Walks (σ := σ) s (ContextAction.advance next) := by
  refine context_bind fun c hc l hl => ?_
  by_cases hnext : c.stage = next
  · rw [if_pos hnext]
    exact (Stays.pure ()).walks s l hl
  · rw [if_neg hnext]
    have ht := h.resolve_left fun hs => hnext (hc.trans hs)
    subst hc
    exact .one ht

theorem markConfigured (s : Stage) : Walks (σ := σ) s ContextAction.markConfigured := by
  refine context_bind fun c hc => ?_
  by_cases hcreated : c.stage = .created
  · rw [if_pos hcreated]
    exact advance (.inr (hc ▸ hcreated ▸ .configured))
  · rw [if_neg hcreated]
    exact (Stays.pure ()).walks s

end Walks

end ContextAction

namespace Stage

variable {s : Stage}

theorem to_compiled (h : s.isOpen) : s = compiled ∨ s.Transition compiled := by
  rcases isOpen_iff.1 h with rfl | rfl | rfl
  · exact .inr (.compiled (.inl rfl))
  · exact .inr (.compiled (.inr rfl))
  · exact .inl rfl

theorem to_resolved (h : s.isRelocated) :
    s = finalized .resolved ∨ s.Transition (finalized .resolved) := by
  rcases isRelocated_iff.1 h with rfl | rfl | rfl
  · exact .inr (.resolved (.inl rfl))
  · exact .inl rfl
  · exact .inr (.resolved (.inr rfl))

theorem to_ran (h : s.isRelocated) : s = finalized .ran ∨ s.Transition (finalized .ran) := by
  rcases isRelocated_iff.1 h with rfl | rfl | rfl
  · exact .inr (.ran (.inl rfl))
  · exact .inr (.ran (.inr rfl))
  · exact .inl rfl

theorem to_emitted (h : s = compiled ∨ s = finalized .emitted) :
    s = finalized .emitted ∨ s.Transition (finalized .emitted) := by
  rcases h with rfl | rfl
  · exact .inr .emitted
  · exact .inl rfl

end Stage

open ContextAction

variable {σ : Type} (compiler : Compiler σ)

namespace Task

private theorem walks_relocate (target : Target) :
    Walks .compiled ((relocate target).perform compiler) := by
  refine .stays_bind (.modify fun _ => rfl) fun _ => .stays_bind (.call compiler _) fun answer => ?_
  refine .ite (Stays.walks ?_ _) ?_
  · exact .bind (.modify fun _ => rfl) fun _ => .bind (.log nofun) fun _ => .fail _
  · cases target with
    | size => exact Stays.walks (.pure _) _
    | auto =>
      refine .stays_bind .context fun c => .stays_bind (.log nofun) fun _ => ?_
      exact .bind_stays (.advance (.inr .relocated)) fun _ => .pure _
    | memory =>
      refine .stays_bind (.log nofun) fun _ => ?_
      exact .bind_stays (.advance (.inr .relocated)) fun _ => .pure _

/-- A task that comes in time walks: where it changes the stage, its time allows the change. -/
theorem walks {c : Context} {task : Task} (ht : task.Timely c) :
    Walks c.stage (task.perform compiler) := by
  cases task with
  | installSink sink? =>
    have hset : Stays (σ := σ) (Action.modify fun s =>
        { s with world := s.world.setSink s.context.number sink? }) := fun _ => ⟨rfl, rfl⟩
    exact .silent (.stays_bind hset fun _ => .markConfigured _)
  | installHook hook =>
    exact .silent (.stays_bind (.modify fun _ => rfl) fun _ => .markConfigured _)
  | configure setting =>
    refine .silent (.stays_bind (.call compiler _) fun answer => ?_)
    cases setting.reportsStatus with
    | true => exact .stays_bind (.checkStatus _ _ _) fun _ => .markConfigured _
    | false => exact .markConfigured _
  | addLibrary name =>
    refine .silent (.stays_bind (.fixType compiler) fun _ => ?_)
    refine .stays_bind (.call compiler _) fun answer => ?_
    exact .stays_bind (.checkStatus _ _ _) fun _ => .markConfigured _
  | chooseType type =>
    exact .silent (.stays_bind (.modify fun _ => rfl) fun _ => .markConfigured _)
  | keepType => exact Stays.walks (.pure _) _
  | compile unit =>
    refine .silent (.stays_bind (.fixType compiler) fun _ => .stays_bind .runHook fun _ => ?_)
    refine .stays_bind (.call compiler _) fun answer => .ite (Stays.walks ?_ _) ?_
    · exact .bind (.log nofun) fun _ => .fail _
    · refine .stays_bind (.log nofun) fun _ => .stays_bind (.modify fun _ => rfl) fun _ => ?_
      exact .advance (Stage.to_compiled ht)
  | inject name symbol =>
    refine .silent (Stays.walks (.bind (.call compiler _) fun answer => ?_) _)
    refine .ite (.fail _) (.bind .context fun c => .bind (.modify fun _ => rfl) fun _ => ?_)
    exact .log nofun
  | relocate target => exact ht.1 ▸ walks_relocate compiler target
  | lookUp name =>
    refine .stays_bind (.call compiler _) fun answer => ?_
    exact .bind_stays (.advance (Stage.to_resolved ht)) fun _ => .pure _
  | run arguments =>
    refine .stays_bind (.log nofun) fun _ => .stays_bind (.call compiler _) fun answer => ?_
    split
    · refine Stays.walks (.bind (.log ?_) fun _ => .fail _) _
      exact nofun
    · refine .stays_bind (.enter compiler _ _) fun status => .stays_bind (.log nofun) fun _ => ?_
      exact .bind_stays (.advance (Stage.to_ran ht.2)) fun _ => .pure _
  | outputFile path =>
    refine .silent (.stays_bind (.call compiler _) fun answer => .ite (Stays.walks ?_ _) ?_)
    · exact .bind (.log nofun) fun _ => .fail _
    · refine .stays_bind .context fun d => .stays_bind (.log nofun) fun _ => ?_
      exact .advance (Stage.to_emitted ht.2.2)
  | dispose =>
    exact .silent (.stays_bind (.release compiler) fun _ => .advance (.inr (.disposed ht)))

end Task

/-- An operation walks from wherever the context is. -/
theorem Operation.walks (operation : Operation) (s : Stage) :
    Walks s (operation.perform compiler) := by
  rintro l rfl
  cases hcheck : operation.check l.context with
  | error e =>
    rw [operation.perform_of_check_error compiler hcheck]
    exact .nil _
  | ok task =>
    rw [operation.perform_of_check compiler hcheck]
    exact task.walks compiler ((operation.checks l.context).of_ok task hcheck).2 l rfl

theorem Operation.walks_performAll (operations : List Operation) (s : Stage) :
    Walks s (performAll compiler operations) := by
  induction operations generalizing s with
  | nil => exact Stays.walks (.pure _) s
  | cons operation rest ih =>
    cases rest with
    | nil => exact operation.walks compiler s
    | cons next rest => exact (operation.walks compiler s).bind fun _ => ih

theorem Job.walks (job : Job) (s : Stage) : Walks s (job.perform compiler) := by
  refine .stays_bind (fun _ => ⟨rfl, rfl⟩) fun l => ?_
  exact .stays_bind (fun _ => ⟨rfl, rfl⟩) fun _ => Operation.walks_performAll compiler _ s

end EmbeddedC
