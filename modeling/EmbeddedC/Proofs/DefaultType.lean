import EmbeddedC.Proofs.CreatedConfigured
import EmbeddedC.Proofs.Opening
/-!
# The default output type

A context that was never told an output type has memory output. Choosing memory output for it first
makes no difference to a session: the same is called and returned from then on, and the context is
in the same state once it is past its first stage. Until then it may be called configured instead of
created.
-/

namespace EmbeddedC

variable {σ : Type}

/-- No output type has been chosen yet, and one still can be. So it is with any new context. -/
structure Context.Unchosen (c : Context) : Prop where
  isOpen : c.stage.isOpen
  typeFixed : c.typeFixed = false
  outputType : c.outputType = .memory

def MoveError.configured : MoveError → MoveError
  | noContext => noContext
  | bind e => .bind e.configured

/-- What a turn would be if the context of an index had been moved on before. -/
def Turn.configured (index : Nat) (t : Turn) : Turn :=
  { t with result :=
      if t.move.index? = some index then t.result.mapError MoveError.configured else t.result }

def Turn.unstaged (t : Turn) : Turn :=
  { t with events := EmbeddedC.unstaged t.events }

/-- Choosing the type that is the default moves a context on, and does nothing else. -/
theorem Operation.perform_chooseDefault (compiler : Compiler σ) {c : Context} (hc : c.Unchosen)
    (w : World σ) :
    let o := (setOutputType .memory).perform compiler ⟨c, w⟩
    o.result = .ok .none ∧ o.state = ⟨c.configured, w⟩ ∧ unstaged o.events = [] := by
  have hcheck : (setOutputType .memory).check c = .ok (.chooseType .memory) := by
    have hopen : c.ensureOpen "set_output_type" = .ok () :=
      Context.guards_ensureOpen (b := true) |>.1 hc.isOpen
    rw [check, hopen, hc.typeFixed]
    rfl
  have hkept : { c with outputType := .memory } = c := by rw [← hc.outputType]
  obtain ⟨hresult, hstate, hevents⟩ := ContextAction.markConfigured_moves c w
  intro o
  have ho : o = (Task.chooseType .memory).perform compiler ⟨c, w⟩ :=
    perform_of_check compiler hcheck
  rcases hm : ContextAction.markConfigured ⟨c, w⟩ with ⟨r, s, events⟩
  rw [hm] at hresult hstate hevents
  cases hresult
  cases hstate
  rw [ho]
  simpa [Task.perform, ContextAction.silent, ContextAction.modify, Bind.bind, Action.bind,
    Action.modify, Pure.pure, Action.pure, hkept, hm] using hevents

namespace Session

variable {s : Session σ} {i : Nat}

/-- Every context starts out with its output type unchosen, whatever its config sets. -/
theorem unchosen_opened (compiler : Compiler σ) {bare : Bool}
    (h : (openContext compiler bare s).result = .ok (.opened i)) :
    ∃ c, (openContext compiler bare s).state.context? i = some c ∧ c.Unchosen := by
  rcases ho : (if bare then Context.create compiler s.toolchain.table
    else s.toolchain.openContext compiler) s.world with ⟨r, w, events⟩
  simp only [openContext, ho] at h ⊢
  cases r with
  | error e => cases h
  | ok c =>
    cases h
    refine ⟨c, by simp [context?], ?_⟩
    cases bare with
    | true =>
      rw [if_pos rfl] at ho
      have hc : (Context.create compiler s.toolchain.table s.world).result = .ok c := by rw [ho]
      rw [eq_fresh_of_create hc]
      exact ⟨rfl, rfl, rfl⟩
    | false =>
      have hopening := s.toolchain.opening compiler s.world
      rw [if_neg Bool.false_ne_true] at ho
      rw [ho] at hopening
      cases hopening
      refine ⟨?_, rfl, rfl⟩
      dsimp only
      split <;> rfl

/-- The session in which the context of an index has been moved on. -/
def configured (i : Nat) (s : Session σ) : Session σ :=
  { s with contexts := s.contexts.modify i (Option.map Context.configured) }

theorem context?_configured (s : Session σ) (i j : Nat) :
    (s.configured i).context? j =
      if j = i then (s.context? i).map Context.configured else s.context? j := by
  by_cases hij : j = i
  · subst hij
    cases hx : s.contexts[j]? with
    | none => simp [context?, configured, hx]
    | some x? => cases x? <;> simp [context?, configured, hx]
  · simp [context?, configured, hij, Ne.symm hij]

@[simp] theorem configured_world (s : Session σ) (i : Nat) : (s.configured i).world = s.world := rfl

theorem configured_eq_set {c : Context} (hi : s.context? i = some c) :
    s.configured i = { s with contexts := s.contexts.set i (some c.configured) } := by
  have hx : s.contexts[i]? = some (some c) := Option.join_eq_some_iff.1 hi
  have hmodify : s.contexts.modify i (Option.map Context.configured) =
      s.contexts.set i (some c.configured) := by
    rw [List.modify_eq_set_getElem?, hx]
    rfl
  rw [configured, hmodify]

/-- A context past its first stage is not moved on. -/
theorem configured_of_ne {c : Context} (hi : s.context? i = some c) (hc : c.stage ≠ .created) :
    s.configured i = s := by
  have hx : s.contexts[i]? = some (some c) := Option.join_eq_some_iff.1 hi
  obtain ⟨hlt, hget⟩ := List.getElem?_eq_some_iff.1 hx
  rw [configured_eq_set hi, Context.configured_of_ne hc, ← hget, List.set_getElem_self]

private theorem modify_append_singleton {α : Type} {l : List α} (f : α → α) (a : α) {i : Nat}
    (hlt : i < l.length) : (l ++ [a]).modify i f = l.modify i f ++ [a] := by
  induction l generalizing i with
  | nil => exact absurd hlt (Nat.not_lt_zero i)
  | cons b l ih =>
    cases i with
    | zero => rfl
    | succ i => simp [ih (Nat.lt_of_succ_lt_succ hlt)]

private theorem modify_set {α : Type} (l : List α) (f : α → α) (i j : Nat) (a : α) :
    (l.modify i f).set j (if j = i then f a else a) = (l.set j a).modify i f := by
  apply List.ext_getElem?
  intro k
  by_cases hk : j = k
  · subst hk
    by_cases hij : i = j <;> by_cases hlt : j < l.length <;> simp [hij, hlt, Ne.symm]
  · simp [List.getElem?_modify, hk]

private theorem configured_set (s : Session σ) (i j : Nat) (w : World σ) (x? : Option Context) :
    ({ s with world := w, contexts := s.contexts.set j x? } : Session σ).configured i =
      { s.configured i with
        world := w
        contexts := (s.configured i).contexts.set j
          (if j = i then x?.map Context.configured else x?) } := by
  simp only [configured, ← modify_set]

/-- The same move where the context of an index has been moved on before. -/
structure Alike (i : Nat) (m : Move) (o o' : Outcome Event (Session σ) MoveError Reply) :
    Prop where
  result : o'.result =
    if m.index? = some i then o.result.mapError MoveError.configured else o.result
  state : o'.state = o.state.configured i
  events : unstaged o'.events = unstaged o.events

variable (compiler : Compiler σ)

private theorem on_none {j : Nat} (hc : s.context? j = none) (x : ContextAction σ Value) :
    on j x s = ⟨.error .noContext, s, []⟩ := by
  simp only [on, hc]

private theorem on_some {j : Nat} {c : Context} (hc : s.context? j = some c)
    (x : ContextAction σ Value) :
    on j x s = ⟨((x ⟨c, s.world⟩).result.map .value).mapError .bind,
      { s with
        world := (x ⟨c, s.world⟩).state.world
        contexts := s.contexts.set j (some (x ⟨c, s.world⟩).state.context) },
      (x ⟨c, s.world⟩).events⟩ := by
  simp only [on, hc]

private theorem alike_on {m : Move} {j : Nat} {x : ContextAction σ Value} (hm : m.index? = some j)
    (hx : ∀ c, ContextAction.Alike c x x) : Alike i m (on j x s) (on j x (s.configured i)) := by
  have hc' := context?_configured s i j
  by_cases hj : j = i
  · subst hj
    rw [if_pos rfl] at hc'
    cases hc : s.context? j with
    | none =>
      rw [hc] at hc'
      rw [on_none hc, on_none hc']
      exact ⟨by rw [if_pos hm]; rfl, rfl, rfl⟩
    | some c =>
      rw [hc] at hc'
      rw [on_some hc, on_some hc', configured_world]
      obtain ⟨hresult, hcontext, hworld, hevents⟩ := hx c s.world
      refine ⟨?_, ?_, hevents⟩
      · rw [if_pos hm, hresult]
        cases (x ⟨c, s.world⟩).result <;> rfl
      · rw [configured_set, if_pos rfl, hcontext, hworld]
        rfl
  · have hmi : m.index? ≠ some i := by simp [hm, hj]
    rw [if_neg hj] at hc'
    cases hc : s.context? j with
    | none =>
      rw [on_none hc, on_none (hc'.trans hc)]
      exact ⟨(if_neg hmi).symm, rfl, rfl⟩
    | some c =>
      rw [on_some hc, on_some (hc'.trans hc), configured_world]
      refine ⟨(if_neg hmi).symm, ?_, rfl⟩
      rw [configured_set, if_neg hj]

private theorem drop_none {j : Nat} (hc : s.context? j = none) :
    drop compiler j s = ⟨.ok (.value .none), s, []⟩ := by
  simp only [drop, hc]

private theorem drop_some {j : Nat} {c : Context} (hc : s.context? j = some c) :
    drop compiler j s = ⟨.ok (.value .none),
      { s with
        world := (ContextAction.release compiler ⟨c, s.world⟩).state.world
        contexts := s.contexts.set j none },
      (ContextAction.release compiler ⟨c, s.world⟩).events⟩ := by
  simp only [drop, hc]

private theorem alike_drop (j : Nat) :
    Alike i (.drop j) (drop compiler j s) (drop compiler j (s.configured i)) := by
  have hresult (v : Reply) : (.ok v : Except MoveError Reply) =
      if (Move.drop j).index? = some i then (Except.ok v).mapError MoveError.configured
      else .ok v := by
    split <;> rfl
  have hc' := context?_configured s i j
  by_cases hj : j = i
  · subst hj
    rw [if_pos rfl] at hc'
    cases hc : s.context? j with
    | none =>
      rw [hc] at hc'
      rw [drop_none compiler hc, drop_none compiler hc']
      exact ⟨hresult _, rfl, rfl⟩
    | some c =>
      rw [hc] at hc'
      rw [drop_some compiler hc, drop_some compiler hc', configured_world]
      obtain ⟨_, _, hworld, hevents⟩ := ContextAction.Alike.release (c := c) compiler s.world
      refine ⟨hresult _, ?_, hevents⟩
      rw [configured_set, if_pos rfl, hworld]
      rfl
  · rw [if_neg hj] at hc'
    cases hc : s.context? j with
    | none =>
      rw [drop_none compiler hc, drop_none compiler (hc'.trans hc)]
      exact ⟨hresult _, rfl, rfl⟩
    | some c =>
      rw [drop_some compiler hc, drop_some compiler (hc'.trans hc), configured_world]
      refine ⟨hresult _, ?_, rfl⟩
      rw [configured_set, if_neg hj]

private theorem alike_openContext (hlt : i < s.contexts.length) (bare : Bool) :
    Alike i (.openContext bare) (openContext compiler bare s)
      (openContext compiler bare (s.configured i)) := by
  have hlength : (s.configured i).contexts.length = s.contexts.length :=
    List.length_modify ..
  rcases ho : (if bare then Context.create compiler s.toolchain.table
    else s.toolchain.openContext compiler) s.world with ⟨r, w, events⟩
  have ho' : (if bare then Context.create compiler (s.configured i).toolchain.table
    else (s.configured i).toolchain.openContext compiler) (s.configured i).world =
      ⟨r, w, events⟩ := ho
  simp only [openContext, ho, ho']
  cases r with
  | error e => exact ⟨rfl, rfl, rfl⟩
  | ok c =>
    refine ⟨congrArg (fun n => Except.ok (Reply.opened n)) hlength, ?_, rfl⟩
    simp only [configured, modify_append_singleton _ _ hlt]

/-- No move can tell a context from what it would be if it had been moved on before, but by the name
of its stage. -/
theorem alike_move (hlt : i < s.contexts.length) (m : Move) :
    Alike i m (move compiler m s) (move compiler m (s.configured i)) := by
  cases m with
  | openContext bare => exact alike_openContext compiler hlt bare
  | drop j => exact alike_drop compiler j
  | perform j operation => exact alike_on rfl fun c => operation.alike compiler
  | runJob j job => exact alike_on rfl fun c => job.alike compiler
  | enter => exact ⟨rfl, rfl, rfl⟩
  | outside => exact ⟨rfl, rfl, rfl⟩

theorem contexts_move (m : Move) :
    s.contexts.length ≤ (move compiler m s).state.contexts.length := by
  cases m with
  | openContext bare =>
    simp only [move, openContext]
    split <;> simp
  | drop j =>
    simp only [move, drop]
    split <;> simp
  | perform j | runJob j =>
    simp only [move, on]
    split <;> simp
  | enter | outside => exact Nat.le_refl _

theorem turns_configured (hlt : i < s.contexts.length) (moves : List Move) :
    ((s.configured i).play compiler moves).1 = (s.play compiler moves).1.configured i ∧
      ((s.configured i).turns compiler moves).map Turn.unstaged =
        (s.turns compiler moves).map fun t => (t.configured i).unstaged := by
  induction moves generalizing s with
  | nil => exact ⟨rfl, rfl⟩
  | cons m rest ih =>
    obtain ⟨hresult, hstate, hevents⟩ := alike_move compiler hlt m
    obtain ⟨hplay, hturns⟩ := ih (Nat.lt_of_lt_of_le hlt (contexts_move compiler m))
    simp only [play, turns, List.map_cons]
    rw [hstate]
    refine ⟨hplay, ?_⟩
    rw [hturns]
    congr 1
    simp only [turn, Turn.unstaged, Turn.configured, hresult, hevents]
    rfl

/-- A context whose output type was never chosen goes the way of one that was told to keep its
output in memory. To tell it first is no more than to move it on. From then on all moves return the
same, but that a refusal may name the stage after creation instead of creation, and the same is seen
of them, but for moves from stage to stage. The two sessions are left the same, once the context is
past its first stage. -/
theorem memory_by_default (s : Session σ) (i : Nat) (c : Context) (hi : s.context? i = some c)
    (hc : c.Unchosen) (moves : List Move) :
    let choice := Move.perform i (.setOutputType .memory)
    let chosen := (move compiler choice s).state
    let last := (s.play compiler moves).1
    (move compiler choice s).result = .ok (.value .none) ∧
      unstaged (move compiler choice s).events = [] ∧
      (chosen.turns compiler moves).map Turn.unstaged =
        (s.turns compiler moves).map (fun t => (t.configured i).unstaged) ∧
      (chosen.play compiler moves).1 = last.configured i ∧
      ∀ d, last.context? i = some d → d.stage ≠ .created → (chosen.play compiler moves).1 = last := by
  intro choice chosen last
  obtain ⟨hresult, hstate, hevents⟩ := Operation.perform_chooseDefault compiler hc s.world
  have hmove : move compiler choice s = _ :=
    on_some hi ((Operation.setOutputType .memory).perform compiler)
  have hchosen : chosen = s.configured i := by
    rw [configured_eq_set hi]
    simp only [chosen, hmove, hstate]
  obtain ⟨hplay, hturns⟩ := turns_configured compiler (lt_of_context? hi) moves
  refine ⟨?_, ?_, ?_, ?_, ?_⟩
  · rw [hmove, hresult]
    rfl
  · rw [hmove]
    exact hevents
  · rw [hchosen]
    exact hturns
  · rw [hchosen]
    exact hplay
  · intro d hd hne
    rw [hchosen, hplay]
    exact configured_of_ne hd hne

/-- A unit is compiled and run from a context that was never told its output type. -/
theorem default_of_new_context :
    let toolchain : Toolchain := ⟨⟨.wide, ⟨[]⟩⟩, ⟨⟨[]⟩⟩, {}⟩
    let moves : List Move := [.perform 0 .relocate, .perform 0 (.compileString "int x;")]
    let s := (play .agreeable ⟨toolchain, ⟨(), []⟩, []⟩ [.openContext true]).1
    let chosen := (move .agreeable (.perform 0 (.setOutputType .memory)) s).state
    (s.turns .agreeable moves).map (·.result) =
        [.error (.bind (.outOfOrder "relocate" .created Reason.nothingCompiled)),
          .ok (.value .none)] ∧
      (chosen.turns .agreeable moves).map (·.result) =
        [.error (.bind (.outOfOrder "relocate" .configured Reason.nothingCompiled)),
          .ok (.value .none)] ∧
      (chosen.play .agreeable moves).1 = (s.play .agreeable moves).1 := by
  intro toolchain moves s chosen
  have hopened : (openContext .agreeable true ⟨toolchain, ⟨(), []⟩, []⟩).result =
      .ok (.opened 0) := rfl
  obtain ⟨c, hi, hc⟩ := unchosen_opened .agreeable hopened
  obtain ⟨_, _, hturns, _, hlast⟩ := memory_by_default .agreeable s 0 c hi hc moves
  have hcompiled : (s.play .agreeable moves).1.context? 0 =
      some { Context.fresh toolchain.table 0 with typeFixed := true, stage := .compiled } := rfl
  refine ⟨rfl, ?_, hlast _ hcompiled (by decide)⟩
  calc (chosen.turns .agreeable moves).map (·.result)
      = ((chosen.turns .agreeable moves).map Turn.unstaged).map (·.result) := by
        rw [List.map_map]
        rfl
    _ = ((s.turns .agreeable moves).map fun t => (t.configured 0).unstaged).map (·.result) := by
        rw [hturns]
    _ = _ := rfl

end Session

end EmbeddedC
