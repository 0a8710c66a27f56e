import EmbeddedC.Proofs.Deed
/-!
# A logic for actions on a context

A small program logic for work on a context whose state has a given handle. A postcondition speaks of
the result, of the deeds done on the way and of the context left behind, in every world; that nothing
is done with other states and no state is created goes along with it.
-/

namespace EmbeddedC

variable {σ α β : Type}

/-- A first setting moves a context on, and later ones leave it where it is. -/
def Context.configured (c : Context) : Context :=
  if c.stage = .created then { c with stage := .configured } else c

/-- An outcome that meets a postcondition and stays with one state. -/
structure Outcome.Meets (handle : Handle) (w : World σ)
    (o : Outcome Event (Live σ) BindError α)
    (post : List Deed → Except BindError α → Context → Prop) : Prop where
  post : post (deeds handle o.events) o.result o.state.context
  keeps : ∀ e ∈ o.events, e.Keeps handle
  channels : o.state.world.channels.length = w.channels.length

/-- From a context `c`, whatever the world, the action leads to what the postcondition allows. -/
def ContextAction.Yields (handle : Handle) (x : ContextAction σ α) (c : Context)
    (post : List Deed → Except BindError α → Context → Prop) : Prop :=
  ∀ w : World σ, (x ⟨c, w⟩).Meets handle w post

namespace ContextAction.Yields

variable {handle : Handle} {c : Context} {post : List Deed → Except BindError α → Context → Prop}

theorem mono {x : ContextAction σ α} {mid : List Deed → Except BindError α → Context → Prop}
    (hx : Yields handle x c mid) (h : ∀ ds r c', mid ds r c' → post ds r c') :
    Yields handle x c post := fun w =>
  ⟨h _ _ _ (hx w).post, (hx w).keeps, (hx w).channels⟩

theorem pure {a : α} (h : post [] (.ok a) c) : Yields (σ := σ) handle (Pure.pure a) c post :=
  fun _ => ⟨h, by simp [Pure.pure, Action.pure], rfl⟩

theorem fail {e : BindError} (h : post [] (.error e) c) :
    Yields (σ := σ) handle (Action.fail e) c post :=
  fun _ => ⟨h, by simp [Action.fail], rfl⟩

theorem ofExcept {x : Except BindError α} (h : post [] x c) :
    Yields (σ := σ) handle (Action.ofExcept x) c post :=
  fun _ => ⟨h, by simp [Action.ofExcept], rfl⟩

theorem bind {x : ContextAction σ α} {f : α → ContextAction σ β}
    {post : List Deed → Except BindError β → Context → Prop}
    (hx : Yields handle x c fun ds r c' =>
      match r with
      | .error e => post ds (.error e) c'
      | .ok a => Yields handle (f a) c' fun ds' r' c'' => post (ds ++ ds') r' c'') :
    Yields handle (x >>= f) c post := by
  intro w
  obtain ⟨hpost, hkeeps, hchannels⟩ := hx w
  simp only [Bind.bind, Action.bind]
  rcases ho : x ⟨c, w⟩ with ⟨r, ⟨c', w'⟩, events⟩
  rw [ho] at hpost hkeeps hchannels
  cases r with
  | error e => exact ⟨hpost, hkeeps, hchannels⟩
  | ok a =>
    obtain ⟨hpost', hkeeps', hchannels'⟩ := hpost w'
    refine ⟨?_, ?_, hchannels'.trans hchannels⟩
    · simpa using hpost'
    · intro e he
      exact (List.mem_append.1 he).elim (hkeeps e) (hkeeps' e)

theorem ite {p : Prop} [Decidable p] {x y : ContextAction σ α}
    (hx : p → Yields handle x c post) (hy : ¬p → Yields handle y c post) :
    Yields handle (if p then x else y) c post := by
  by_cases h : p
  · rw [if_pos h]
    exact hx h
  · rw [if_neg h]
    exact hy h

theorem get_bind {f : Live σ → ContextAction σ α}
    (h : ∀ w, Yields handle (f ⟨c, w⟩) c post) : Yields handle (Action.get >>= f) c post := by
  intro w
  have := h w w
  simpa [Bind.bind, Action.bind, Action.get] using this

theorem context_bind {f : Context → ContextAction σ α} (h : Yields handle (f c) c post) :
    Yields handle (ContextAction.context >>= f) c post := by
  intro w
  have := h w
  simpa [Bind.bind, Action.bind, Action.get, ContextAction.context, Pure.pure, Action.pure]
    using this

variable {post : List Deed → Except BindError Unit → Context → Prop}

theorem modify {f : Context → Context} (h : post [] (.ok ()) (f c)) :
    Yields (σ := σ) handle (ContextAction.modify f) c post :=
  fun _ => ⟨h, by simp [ContextAction.modify, Action.modify], rfl⟩

theorem log {record : LogRecord} (h : post [] (.ok ()) c) :
    Yields (σ := σ) handle (ContextAction.log record) c post :=
  fun _ => ⟨h, by simp [ContextAction.log, Action.emit, Event.Keeps], rfl⟩

theorem setSink {sink? : Option Sink} (h : post [] (.ok ()) c) :
    Yields (σ := σ) handle
      (Action.modify fun s => { s with world := s.world.setSink s.context.number sink? }) c post :=
  fun _ => ⟨h, by simp [Action.modify], by simp [Action.modify, World.setSink]⟩

theorem advance {next : Stage} (h : post [] (.ok ()) { c with stage := next }) :
    Yields (σ := σ) handle (ContextAction.advance next) c post := by
  apply context_bind
  by_cases hs : c.stage = next
  · subst hs
    simpa using pure h
  · rw [if_neg hs]
    exact bind (log (modify h))

theorem markConfigured (h : post [] (.ok ()) c.configured) :
    Yields (σ := σ) handle ContextAction.markConfigured c post := by
  apply context_bind
  by_cases hs : c.stage = .created
  · rw [if_pos hs]
    exact advance (by simpa [Context.configured, hs] using h)
  · rw [if_neg hs]
    exact pure (by simpa [Context.configured, hs] using h)

theorem checkStatus {entry : Entry} {argument : String} {status : Int32}
    (hok : 0 ≤ status → post [] (.ok ()) c)
    (herr : status < 0 → post [] (.error (.rejected entry.name argument status)) c) :
    Yields (σ := σ) handle (ContextAction.checkStatus entry argument status) c post := by
  unfold ContextAction.checkStatus
  by_cases hs : status < 0
  · rw [if_pos hs]
    exact bind (log (fail (herr hs)))
  · rw [if_neg hs]
    exact pure (hok (Int32.not_lt.1 hs))

theorem hookRan {hook : String} (hc : c.handle? = some handle)
    (h : post [.hookRan hook] (.ok ()) c) :
    Yields (σ := σ) handle (Action.emit [.hookRan c.handle? hook]) c post := by
  intro w
  refine ⟨?_, ?_, rfl⟩
  · simpa [Action.emit, deeds_cons, Event.deed?, hc] using h
  · simp [Action.emit, Event.Keeps, hc]

variable (compiler : Compiler σ)

theorem call {request : Request} {post : List Deed → Except BindError Answer → Context → Prop}
    (hc : c.handle? = some handle) (h : ∀ answer, post [.called request answer] (.ok answer) c) :
    Yields handle (ContextAction.call compiler request) c post := by
  intro w
  obtain ⟨answer, w', events, hcall, hquiet, hchannels⟩ := World.call_eq compiler handle request w
  have ho : ContextAction.call compiler request ⟨c, w⟩ =
      ⟨.ok answer, ⟨c, w'⟩, .called (some handle) request answer :: events⟩ := by
    simp [ContextAction.call, Action.step, hc, hcall]
  rw [ho]
  refine ⟨?_, ?_, hchannels⟩
  · simpa [deeds_cons, Event.deed?, deeds_of_quiet hquiet] using h answer
  · intro e he
    rcases List.mem_cons.1 he with rfl | he
    · rfl
    · exact Event.keeps_of_isQuiet (hquiet e he) handle

/-- What is entered returns what the other side makes of it, whatever state that is in. -/
theorem enter {address : Address} {arguments : Arguments}
    {post : List Deed → Except BindError Int32 → Context → Prop} (hc : c.handle? = some handle)
    (h : ∀ outside,
      post [.entered address arguments] (.ok (compiler.enter address arguments outside).1) c) :
    Yields handle (ContextAction.enter compiler address arguments) c post := by
  intro w
  obtain ⟨status, w', events, henter, hquiet, hchannels⟩ :=
    World.enter_eq compiler (some handle) address arguments w
  have hstatus : (compiler.enter address arguments w.outside).1 = status :=
    congrArg Prod.fst henter
  have ho : ContextAction.enter compiler address arguments ⟨c, w⟩ =
      ⟨.ok status, ⟨c, w'⟩, .entered (some handle) address arguments :: events⟩ := by
    simp [ContextAction.enter, Action.step, hc, henter]
  rw [ho]
  refine ⟨?_, ?_, hchannels⟩
  · simpa [deeds_cons, Event.deed?, deeds_of_quiet hquiet, hstatus] using h w.outside
  · intro e he
    rcases List.mem_cons.1 he with rfl | he
    · exact .inr rfl
    · exact Event.keeps_of_isQuiet (hquiet e he) handle

end ContextAction.Yields

end EmbeddedC
