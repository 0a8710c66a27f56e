import EmbeddedC.Session
/-!
# Deeds

What is done with one foreign state, in order: its creation, the calls on it, the hooks run for it
and its program entered. Messages and log records are nobody's deeds, and neither is code that the
other side enters on its own.
-/

namespace EmbeddedC

inductive Deed where
  | created
  | called (request : Request) (answer : Answer)
  | hookRan (hook : String)
  | entered (address : Address) (arguments : Arguments)
  deriving DecidableEq, Repr

namespace Event

/-- What an event does with a state, if anything. -/
def deed? (handle : Handle) : Event → Option Deed
  | created state? => if state? = some handle then some .created else none
  | called state? request answer =>
    if state? = some handle then some (.called request answer) else none
  | hookRan state? hook => if state? = some handle then some (.hookRan hook) else none
  | entered state? address arguments =>
    if state? = some handle then some (.entered address arguments) else none
  | messaged _ _ | delivered _ _ _ | logged _ | printed _ => none

def isQuiet : Event → Bool
  | entered none _ _ | messaged _ _ | delivered _ _ _ | logged _ | printed _ => true
  | _ => false

/-- What a context of the state may do: nothing with another state, and nothing with none. -/
def Keeps (handle : Handle) : Event → Prop
  | created _ => False
  | called state? _ _ | hookRan state? _ => state? = some handle
  | entered state? _ _ => state? = none ∨ state? = some handle
  | messaged _ _ | delivered _ _ _ | logged _ | printed _ => True

theorem deed?_of_isQuiet {e : Event} (he : e.isQuiet) (handle : Handle) : e.deed? handle = none := by
  cases e with
  | entered state? _ _ =>
    cases state? with
    | none => rfl
    | some _ => simp [isQuiet] at he
  | created | called | hookRan => simp [isQuiet] at he
  | messaged | delivered | logged | printed => rfl

theorem keeps_of_isQuiet {e : Event} (he : e.isQuiet) (handle : Handle) : e.Keeps handle := by
  cases e with
  | entered state? _ _ =>
    cases state? with
    | none => exact .inl rfl
    | some _ => simp [isQuiet] at he
  | created | called | hookRan => simp [isQuiet] at he
  | messaged | delivered | logged | printed => trivial

theorem deed?_of_keeps {e : Event} {handle other : Handle} (he : e.Keeps handle)
    (hne : other ≠ handle) : e.deed? other = none := by
  cases e with
  | created => exact he.elim
  | called | hookRan =>
    have hs : _ = some handle := he
    simp [deed?, hs, Ne.symm hne]
  | entered =>
    rcases he with hs | hs
    · simp [deed?, hs]
    · simp [deed?, hs, Ne.symm hne]
  | messaged | delivered | logged | printed => rfl

end Event

/-- All that is done with a state. -/
def deeds (handle : Handle) (events : List Event) : List Deed :=
  events.filterMap (Event.deed? handle)

@[simp] theorem deeds_nil (handle : Handle) : deeds handle [] = [] := rfl

@[simp] theorem deeds_append (handle : Handle) (events more : List Event) :
    deeds handle (events ++ more) = deeds handle events ++ deeds handle more :=
  List.filterMap_append

theorem deeds_cons (handle : Handle) (e : Event) (events : List Event) :
    deeds handle (e :: events) = (e.deed? handle).toList ++ deeds handle events := by
  cases h : e.deed? handle <;> simp [deeds, h]

theorem deeds_of_quiet {events : List Event} (h : ∀ e ∈ events, e.isQuiet) (handle : Handle) :
    deeds handle events = [] :=
  List.filterMap_eq_nil_iff.2 fun e he => Event.deed?_of_isQuiet (h e he) handle

theorem deeds_of_keeps {events : List Event} {handle other : Handle}
    (h : ∀ e ∈ events, e.Keeps handle) (hne : other ≠ handle) : deeds other events = [] :=
  List.filterMap_eq_nil_iff.2 fun e he => Event.deed?_of_keeps (h e he) hne

theorem called_mem_deeds {handle : Handle} {request : Request} {answer : Answer}
    {events : List Event} :
    .called request answer ∈ deeds handle events ↔
      .called (some handle) request answer ∈ events := by
  constructor
  · intro h
    obtain ⟨e, he, hd⟩ := List.mem_filterMap.1 h
    cases e <;> simp_all [Event.deed?]
  · intro h
    exact List.mem_filterMap.2 ⟨_, h, by simp [Event.deed?]⟩

theorem entered_mem_deeds {handle : Handle} {address : Address} {arguments : Arguments}
    {events : List Event} :
    .entered address arguments ∈ deeds handle events ↔
      .entered (some handle) address arguments ∈ events := by
  constructor
  · intro h
    obtain ⟨e, he, hd⟩ := List.mem_filterMap.1 h
    cases e <;> simp_all [Event.deed?]
  · intro h
    exact List.mem_filterMap.2 ⟨_, h, by simp [Event.deed?]⟩

theorem created_mem_deeds {handle : Handle} {events : List Event} :
    .created ∈ deeds handle events ↔ .created (some handle) ∈ events := by
  constructor
  · intro h
    obtain ⟨e, he, hd⟩ := List.mem_filterMap.1 h
    cases e <;> simp_all [Event.deed?]
  · intro h
    exact List.mem_filterMap.2 ⟨_, h, by simp [Event.deed?]⟩

namespace World

variable {σ : Type}

private theorem receive_quiet (c : Channel) (handle : Handle) (text : String) :
    ∀ e ∈ c.receive handle text, e.isQuiet := by
  intro e he
  unfold Channel.receive at he
  split at he
  · simp_all [Event.isQuiet]
  · split at he <;> simp only [List.mem_cons, List.not_mem_nil, or_false] at he <;>
      rcases he with rfl | rfl | he <;> simp_all [Event.isQuiet]

private theorem message_quiet (w : World σ) (handle : Handle) (text : CText) :
    ∀ e ∈ (w.message handle text).2, e.isQuiet := by
  intro e he
  unfold message at he
  split at he
  · simp at he
  · rcases List.mem_cons.1 he with rfl | he
    · rfl
    · exact receive_quiet _ _ _ e he

theorem message_channels (w : World σ) (handle : Handle) (text : CText) :
    (w.message handle text).1.channels.length = w.channels.length := by
  unfold message
  split <;> simp

theorem absorb_quiet (w : World σ) (sent : List Emission) :
    ∀ e ∈ (w.absorb sent).2, e.isQuiet := by
  induction sent generalizing w with
  | nil => simp [absorb]
  | cons emission rest ih =>
    intro e he
    cases emission with
    | message handle text =>
      rcases List.mem_append.1 he with he | he
      · exact message_quiet w handle text e he
      · exact ih _ e he
    | entered address arguments =>
      rcases List.mem_cons.1 he with rfl | he
      · rfl
      · exact ih w e he

theorem absorb_channels (w : World σ) (sent : List Emission) :
    (w.absorb sent).1.channels.length = w.channels.length := by
  induction sent generalizing w with
  | nil => rfl
  | cons emission rest ih =>
    cases emission with
    | message handle text => exact (ih _).trans (message_channels w handle text)
    | entered address arguments => exact ih w

private theorem message_outside (w : World σ) (handle : Handle) (text : CText) :
    (w.message handle text).1.outside = w.outside := by
  unfold message
  split <;> rfl

theorem absorb_outside (w : World σ) (sent : List Emission) :
    (w.absorb sent).1.outside = w.outside := by
  induction sent generalizing w with
  | nil => rfl
  | cons emission rest ih =>
    cases emission with
    | message handle text => exact (ih _).trans (message_outside w handle text)
    | entered address arguments => exact ih w

variable (compiler : Compiler σ)

/-- A call is seen first, and then only what the other side does meanwhile. -/
theorem call_eq (handle : Handle) (request : Request) (w : World σ) :
    ∃ answer w' events,
      World.call compiler handle request w =
        (answer, w', .called (some handle) request answer :: events) ∧
      (∀ e ∈ events, e.isQuiet) ∧ w'.channels.length = w.channels.length := by
  rcases ha : compiler.call handle request w.outside with ⟨answer, sent, outside⟩
  refine ⟨answer, (absorb { w with outside } sent).1, (absorb { w with outside } sent).2, ?_,
    absorb_quiet _ _, absorb_channels _ _⟩
  simp [World.call, ha]

theorem enter_eq (state? : Option Handle) (address : Address) (arguments : Arguments)
    (w : World σ) :
    ∃ status w' events,
      World.enter compiler state? address arguments w =
        (status, w', .entered state? address arguments :: events) ∧
      (∀ e ∈ events, e.isQuiet) ∧ w'.channels.length = w.channels.length := by
  rcases ha : compiler.enter address arguments w.outside with ⟨status, sent, outside⟩
  refine ⟨status, (absorb { w with outside } sent).1, (absorb { w with outside } sent).2, ?_,
    absorb_quiet _ _, absorb_channels _ _⟩
  simp [World.enter, ha]

end World

end EmbeddedC
