import EmbeddedC.Proofs.Diagnostics
import EmbeddedC.Proofs.StageChange

/-!
# The chain of stages

The turns of a session tell the whole way of each context: the changes of stage that are logged while
it is opened and worked on make one chain from the start of its life to where it stands. What comes
later only makes the chain longer.
-/

namespace EmbeddedC

variable {σ : Type} (compiler : Compiler σ)

/-- An action that opens contexts, and logs the way of each from the start. One that fails has been
on some way too. -/
def Starts (x : Action Event (World σ) BindError Context) : Prop :=
  ∀ w, ∃ stage, Stage.Chain .created (stageChanges (x w).events) stage ∧
    ∀ c, (x w).result = .ok c → c.stage = stage

private theorem starts_failed {e : BindError} {w : World σ} {events : List Event}
    (h : stageChanges events = []) :
    let o : Outcome Event (World σ) BindError Context := ⟨.error e, w, events⟩
    ∃ stage, Stage.Chain .created (stageChanges o.events) stage ∧
      ∀ c, o.result = .ok c → c.stage = stage := by
  -- No context has been on a way that is not yet opened.
  refine ⟨.created, ?_, fun c hc => ?_⟩
  · rw [h]
    exact .nil _
  · cases hc

theorem Context.starts_create (table : EntryTable) : Starts (Context.create compiler table) := by
  intro w
  cases hh : table.abi.isHost with
  | false =>
    rw [create_mismatch compiler hh]
    exact starts_failed rfl
  | true =>
    rcases hc : compiler.create w.outside with ⟨_ | _, outside⟩
    · rw [create_exhausted compiler hh hc]
      exact starts_failed rfl
    · rcases hcall : World.call compiler w.channels.length .setErrorFunc
        { outside, channels := w.channels ++ [{}] } with ⟨answer, w', called⟩
      have hcalled : stageChanges called = [] := by
        have h := World.stageChanges_call compiler w.channels.length .setErrorFunc
          { outside, channels := w.channels ++ [{}] }
        rwa [hcall] at h
      have ho : create compiler table w = ⟨.ok (.fresh table w.channels.length), w',
          [.created (some w.channels.length)] ++
            (called ++ [.logged (.createdContext table.abi table.origin)])⟩ := by
        simp [create, hh, Action.emit, Action.step, Bind.bind, Action.bind, World.create, hc, hcall,
          Pure.pure, Action.pure]
      rw [ho]
      refine ⟨.created, ?_, fun c hc => ?_⟩
      · rw [stageChanges_append, stageChanges_append, hcalled]
        exact .nil _
      · cases hc
        rfl

theorem Starts.prepare {x : Action Event (World σ) BindError Context} (hx : Starts x)
    {y : ContextAction σ Value} (hy : ∀ s, ContextAction.Walks s y) :
    Starts (x >>= fun c => c.prepare compiler y) := by
  intro w
  obtain ⟨stage, hchain, hstage⟩ := hx w
  simp only [Bind.bind, Action.bind]
  rcases ho : x w with ⟨e | c, w', events⟩
  · rw [ho] at hchain
    refine ⟨stage, hchain, fun c hc => ?_⟩
    cases hc
  · rw [ho] at hchain hstage
    have hwalk := hy stage ⟨c, w'⟩ (hstage c rfl)
    simp only [Context.prepare]
    rcases hl : y ⟨c, w'⟩ with ⟨e | value, l, more⟩
    · rw [hl] at hwalk
      obtain ⟨hreleased, -⟩ := ContextAction.Stays.release compiler l
      refine ⟨l.context.stage, ?_, fun c hc => ?_⟩
      · simpa only [stageChanges_append, hreleased, List.append_nil] using hchain.append hwalk
      · cases hc
    · rw [hl] at hwalk
      refine ⟨l.context.stage, ?_, fun c hc => ?_⟩
      · simpa only [stageChanges_append] using hchain.append hwalk
      · cases hc
        rfl

theorem Toolchain.starts_openContext (t : Toolchain) : Starts (t.openContext compiler) :=
  (Context.starts_create compiler t.table).prepare compiler
    (Operation.walks_performAll compiler t.plan)

/-- Whether a turn is about the context of an index: it opens it, or is a move on it. -/
def Turn.isOn (index : Nat) (t : Turn) : Bool :=
  match t.move, t.result with
  | .openContext _, .ok (.opened i) => i = index
  | m, _ => m.index? = some index

/-- The changes of stage that are logged in the turns about one context. -/
def changesOn (index : Nat) (turns : List Turn) : List (Stage × Stage) :=
  (turns.filter (Turn.isOn index)).flatMap fun t => stageChanges t.events

theorem changesOn_cons (index : Nat) (t : Turn) (turns : List Turn) :
    changesOn index (t :: turns) = changesOn index [t] ++ changesOn index turns := by
  cases h : t.isOn index <;> simp [changesOn, h]

namespace Session

/-- Where a context that is held after a turn has come from, and on what way: it was held before, or
the turn has opened it. -/
inductive Comes (s : Session σ) (t : Turn) (i : Nat) (c : Context) : Prop
  | held (d : Context) (hi : s.context? i = some d)
    (hchain : Stage.Chain d.stage (changesOn i [t]) c.stage)
  | opened (hi : i = s.contexts.length) (hchain : Stage.Chain .created (changesOn i [t]) c.stage)

section Turns

variable {s s' : Session σ} {t : Turn} {i j : Nat} {c : Context}

private theorem changesOn_of_isOn (ht : t.isOn i) : changesOn i [t] = stageChanges t.events := by
  simp [changesOn, ht]

private theorem changesOn_of_not_isOn (ht : t.isOn i = false) : changesOn i [t] = [] := by
  simp [changesOn, ht]

private theorem changesOn_of_events (ht : t.events = []) : changesOn i [t] = [] := by
  cases h : t.isOn i with
  | true => rw [changesOn_of_isOn h, ht, stageChanges_nil]
  | false => exact changesOn_of_not_isOn h

private theorem isOn_of_index? (hm : t.move.index? = some j) : t.isOn i = decide (j = i) := by
  obtain ⟨m, result, events⟩ := t
  cases m with
  | openContext | enter | outside => exact nomatch hm
  | drop | perform | runJob =>
    cases hm
    simp [Turn.isOn, Move.index?]

private theorem comes_unmoved (ht : changesOn i [t] = []) (hc : s'.context? i = s.context? i)
    (hi : s'.context? i = some c) : s.Comes t i c :=
  .held c (hc.symm.trans hi) (ht ▸ .nil _)

private theorem starts_opening (s : Session σ) (bare : Bool) :
    Starts (if bare then Context.create compiler s.toolchain.table
      else s.toolchain.openContext compiler) := by
  cases bare with
  | true => exact Context.starts_create compiler s.toolchain.table
  | false => exact s.toolchain.starts_openContext compiler

private theorem comes_openContext (bare : Bool)
    (hi : (s.openContext compiler bare).state.context? i = some c) :
    s.Comes (s.turn compiler (.openContext bare)) i c := by
  obtain ⟨stage, hchain, hstage⟩ := starts_opening compiler s bare s.world
  simp only [turn, move, openContext] at hi ⊢
  rcases ho : (if bare then Context.create compiler s.toolchain.table
      else s.toolchain.openContext compiler) s.world with ⟨e | d, w, events⟩
  · rw [ho] at hi
    exact comes_unmoved (changesOn_of_not_isOn rfl) rfl hi
  · rw [ho] at hi hchain hstage
    rw [context?_append rfl] at hi
    by_cases hlength : i = s.contexts.length
    · rw [if_pos hlength] at hi
      cases hi
      refine .opened hlength ?_
      rw [changesOn_of_isOn (by simp [Turn.isOn, hlength]), hstage c rfl]
      exact hchain
    · rw [if_neg hlength] at hi
      refine .held c hi ?_
      rw [changesOn_of_not_isOn (by simp [Turn.isOn, Ne.symm hlength])]
      exact .nil _

private theorem comes_on {x : ContextAction σ Value} (hx : ∀ s, ContextAction.Walks s x)
    (hm : t.move.index? = some j) (ht : t.events = (s.on j x).events)
    (hi : (s.on j x).state.context? i = some c) : s.Comes t i c := by
  unfold on at hi ht
  cases hj : s.context? j with
  | none =>
    rw [hj] at hi ht
    exact comes_unmoved (changesOn_of_events ht) rfl hi
  | some d =>
    rw [hj] at hi ht
    rw [context?_set hj rfl] at hi
    by_cases hij : i = j
    · subst hij
      rw [if_pos rfl] at hi
      cases hi
      refine .held d hj ?_
      rw [changesOn_of_isOn (by simp [isOn_of_index? hm]), ht]
      exact hx d.stage ⟨d, s.world⟩ rfl
    · rw [if_neg hij] at hi
      refine .held c hi ?_
      rw [changesOn_of_not_isOn (by simp [isOn_of_index? hm, Ne.symm hij])]
      exact .nil _

/-- One turn leads a context on by the changes that are logged in it. -/
theorem comes_move (m : Move) (hi : (move compiler m s).state.context? i = some c) :
    s.Comes (s.turn compiler m) i c := by
  cases m with
  | openContext bare => exact comes_openContext compiler bare hi
  | drop j =>
    simp only [move, drop] at hi
    cases hj : s.context? j with
    | none =>
      rw [hj] at hi
      refine comes_unmoved (changesOn_of_events ?_) rfl hi
      simp [turn, move, drop, hj]
    | some d =>
      rw [hj] at hi
      rw [context?_set hj rfl] at hi
      by_cases hij : i = j
      · rw [if_pos hij] at hi
        cases hi
      · rw [if_neg hij] at hi
        refine .held c hi ?_
        rw [changesOn_of_not_isOn]
        · exact .nil _
        · rw [isOn_of_index? (j := j) rfl]
          exact decide_eq_false (Ne.symm hij)
  | perform j operation => exact comes_on (operation.walks compiler) rfl rfl hi
  | runJob j job => exact comes_on (job.walks compiler) rfl rfl hi
  | enter | outside => exact comes_unmoved (changesOn_of_not_isOn rfl) rfl hi

private theorem changesOn_of_lt (hm : t.move.index? = some j) (hj : s.context? j = some c)
    (hi : s.contexts.length ≤ i) : changesOn i [t] = [] := by
  have hlt := lt_of_context? hj
  apply changesOn_of_not_isOn
  rw [isOn_of_index? hm]
  exact decide_eq_false (by omega)

private theorem unheld_on {x : ContextAction σ Value} (hm : t.move.index? = some j)
    (ht : t.events = (s.on j x).events) (h : (s.on j x).state.contexts.length ≤ i) :
    s.contexts.length ≤ i ∧ changesOn i [t] = [] := by
  unfold on at h ht
  cases hj : s.context? j with
  | none =>
    rw [hj] at h ht
    exact ⟨h, changesOn_of_events ht⟩
  | some d =>
    rw [hj] at h
    have hi : s.contexts.length ≤ i := by simpa using h
    exact ⟨hi, changesOn_of_lt hm hj hi⟩

/-- Before a context is opened no turn is about it. -/
theorem unheld_move (m : Move) (h : (move compiler m s).state.contexts.length ≤ i) :
    s.contexts.length ≤ i ∧ changesOn i [s.turn compiler m] = [] := by
  cases m with
  | openContext bare =>
    simp only [turn, move, openContext] at h ⊢
    rcases ho : (if bare then Context.create compiler s.toolchain.table
        else s.toolchain.openContext compiler) s.world with ⟨e | d, w, events⟩
    · rw [ho] at h
      exact ⟨h, changesOn_of_not_isOn rfl⟩
    · rw [ho] at h
      have hlt : s.contexts.length + 1 ≤ i := by simpa using h
      refine ⟨Nat.le_of_lt hlt, changesOn_of_not_isOn ?_⟩
      exact decide_eq_false (Nat.ne_of_lt hlt)
  | drop j =>
    simp only [move, drop] at h
    cases hj : s.context? j with
    | none =>
      rw [hj] at h
      exact ⟨h, changesOn_of_events (by simp [turn, move, drop, hj])⟩
    | some d =>
      rw [hj] at h
      have hi : s.contexts.length ≤ i := by simpa using h
      exact ⟨hi, changesOn_of_lt rfl hj hi⟩
  | perform j operation => exact unheld_on rfl rfl h
  | runJob j job => exact unheld_on rfl rfl h
  | enter | outside => exact ⟨h, changesOn_of_not_isOn rfl⟩

end Turns

/-- A context that is held in the end was held at the start, or has been opened since. The changes of
stage that were logged for it lead from where it was, or from the beginning, to where it is. -/
theorem chain_play (s : Session σ) (moves : List Move) {i : Nat} {c : Context}
    (hi : (s.play compiler moves).1.context? i = some c) :
    (∃ d, s.context? i = some d ∧
      Stage.Chain d.stage (changesOn i (s.turns compiler moves)) c.stage) ∨
    s.contexts.length ≤ i ∧ Stage.Chain .created (changesOn i (s.turns compiler moves)) c.stage := by
  induction moves generalizing s with
  | nil => exact .inl ⟨c, hi, .nil _⟩
  | cons m rest ih =>
    rw [turns, changesOn_cons]
    rcases ih (move compiler m s).state hi with ⟨d, hd, hchain⟩ | ⟨hlength, hchain⟩
    · cases comes_move compiler m hd with
      | held first hfirst hmove => exact .inl ⟨first, hfirst, hmove.append hchain⟩
      | opened hnew hmove => exact .inr ⟨Nat.le_of_eq hnew.symm, hmove.append hchain⟩
    · obtain ⟨hbefore, hnone⟩ := unheld_move compiler m hlength
      rw [hnone]
      exact .inr ⟨hbefore, hchain⟩

/-- Opening a context logs a chain from the beginning, whether it succeeds or not. -/
theorem chain_opening (s : Session σ) (moves : List Move) :
    ∀ t ∈ s.turns compiler moves, ∀ bare, t.move = .openContext bare →
      ∃ stage, Stage.Chain .created (stageChanges t.events) stage := by
  induction moves generalizing s with
  | nil => exact fun t ht => absurd ht List.not_mem_nil
  | cons m rest ih =>
    intro t ht bare hm
    rcases List.mem_cons.1 ht with rfl | ht
    · obtain rfl : m = .openContext bare := hm
      obtain ⟨stage, hchain, -⟩ := starts_opening compiler s bare s.world
      refine ⟨stage, ?_⟩
      simp only [turn, move, openContext]
      rcases ho : (if bare then Context.create compiler s.toolchain.table
          else s.toolchain.openContext compiler) s.world with ⟨e | d, w, events⟩ <;>
        rwa [ho] at hchain
    · exact ih _ t ht bare hm

/-- The records of changes of stage, which nothing else is logged like, make one chain for each
context: from the beginning of its life, through transitions that there are, to the stage it is at.
There is none exactly as long as it is at the beginning. So no context is both placed in memory and
written to a file, none goes back to an earlier phase, and one that is disposed of stays so. -/
theorem stages_make_chain (toolchain : Toolchain) (w : World σ) (before later : List Move)
    (i : Nat) :
    let start : Session σ := ⟨toolchain, w, []⟩
    let s := (start.play compiler before).1
    let s' := (s.play compiler later).1
    let made := changesOn i (start.turns compiler before)
    let more := changesOn i (s.turns compiler later)
    (∀ record : LogRecord,
      record.level = .trace ↔ ∃ prior next, record = .stageChanged prior next) ∧
    (∀ c, s.context? i = some c →
      Stage.Chain .created made c.stage ∧ (made = [] ↔ c.stage = .created) ∧
      ¬((∃ prior, (prior, .relocated) ∈ made) ∧ ∃ prior, (prior, .finalized .emitted) ∈ made) ∧
      ∀ c', s'.context? i = some c' →
        Stage.Chain c.stage more c'.stage ∧ c.stage.phase ≤ c'.stage.phase ∧
        (c.stage = .disposed → more = [] ∧ c'.stage = .disposed)) ∧
    ∀ t ∈ start.turns compiler before, ∀ bare, t.move = .openContext bare →
      ∃ stage, Stage.Chain .created (stageChanges t.events) stage := by
  intro start s s' made more
  refine ⟨fun record => LogRecord.level_eq_trace_iff, fun c hi => ?_,
    chain_opening compiler start before⟩
  have hchain : Stage.Chain .created made c.stage := by
    rcases chain_play compiler start before hi with ⟨d, hd, -⟩ | ⟨-, hchain⟩
    · exact nomatch hd
    · exact hchain
  refine ⟨hchain, hchain.eq_nil_iff_created, hchain.relocated_or_emitted, fun c' hi' => ?_⟩
  have hlater : Stage.Chain c.stage more c'.stage := by
    rcases chain_play compiler s later hi' with ⟨d, hd, hlater⟩ | ⟨hlength, -⟩
    · cases hi.symm.trans hd
      exact hlater
    · have hlt := lt_of_context? hi
      omega
  exact ⟨hlater, hlater.phase_le, fun hdisposed => (hdisposed ▸ hlater).of_disposed⟩

/-- A context that is placed in memory, asked for a symbol and disposed of; what comes after that is
refused and changes nothing. -/
theorem disposed_context_stays :
    let toolchain : Toolchain := ⟨⟨.wide, ⟨[]⟩⟩, ⟨⟨[]⟩⟩, {}⟩
    let before : List Move :=
      [.openContext true, .perform 0 (.compileString "int x;"), .perform 0 .relocate]
    let later : List Move :=
      [.perform 0 (.getSymbol "x"), .perform 0 .dispose, .perform 0 (.compileString "int y;")]
    let start : Session Unit := ⟨toolchain, ⟨(), []⟩, []⟩
    let s := (start.play .agreeable before).1
    let s' := (s.play .agreeable later).1
    ∃ c c', s.context? 0 = some c ∧ s'.context? 0 = some c' ∧
      Stage.Chain .created (changesOn 0 (start.turns .agreeable before)) c.stage ∧
      Stage.Chain c.stage
        [(.relocated, .finalized .resolved), (.finalized .resolved, .disposed)] c'.stage ∧
      c'.stage = .disposed := by
  intro toolchain before later start s s'
  let placed : Context := { Context.fresh toolchain.table 0 with
    stage := .relocated
    typeFixed := true
    relocateAttempted := true }
  let gone : Context := { placed with stage := .disposed, handle? := none }
  have hplaced : s.context? 0 = some placed := by decide +kernel
  have hgone : s'.context? 0 = some gone := by decide +kernel
  have hmore : changesOn 0 (s.turns .agreeable later) =
      [(.relocated, .finalized .resolved), (.finalized .resolved, .disposed)] := by
    decide +kernel
  obtain ⟨-, hchains, -⟩ := stages_make_chain .agreeable toolchain ⟨(), []⟩ before later 0
  obtain ⟨hmade, -, -, hlater⟩ := hchains placed hplaced
  exact ⟨placed, gone, hplaced, hgone, hmade, hmore ▸ (hlater gone hgone).1, rfl⟩

end Session

end EmbeddedC
