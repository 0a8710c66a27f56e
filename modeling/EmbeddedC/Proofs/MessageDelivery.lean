import EmbeddedC.Proofs.ParallelRuns
/-!
# Delivery of messages

What is sent to a state, and what its sink receives of it. A message reaches the sink of its own state
and no other, and it is counted whoever receives it. Whatever is done between two changes of a sink
relays everything this way.
-/

namespace EmbeddedC

namespace Event

def message? (handle : Handle) : Event → Option CText
  | messaged state text => if state = handle then some text else none
  | _ => none

/-- The sink that received something, and what it received. -/
def receipt? (handle : Handle) : Event → Option (String × String)
  | delivered state tag text => if state = handle then some (tag, text) else none
  | _ => none

theorem message?_of_isNote {e : Event} (he : e.isNote) (handle : Handle) :
    e.message? handle = none := by
  cases e with
  | messaged => exact Bool.noConfusion he
  | _ => rfl

theorem receipt?_of_isNote {e : Event} (he : e.isNote) (handle : Handle) :
    e.receipt? handle = none := by
  cases e with
  | delivered => exact Bool.noConfusion he
  | _ => rfl

end Event

/-- All messages sent to a state, in order. -/
def messages (handle : Handle) (events : List Event) : List CText :=
  events.filterMap (Event.message? handle)

/-- All that the sinks of a state received, in order. -/
def receipts (handle : Handle) (events : List Event) : List (String × String) :=
  events.filterMap (Event.receipt? handle)

/-- What a sink makes of these messages: each is received once, as text. -/
def received (sink? : Option Sink) (texts : List CText) : List (String × String) :=
  match sink? with
  | none => []
  | some sink => texts.map fun text => (sink.tag, text.text)

section Lists

variable (handle : Handle) (events more : List Event)

@[simp] theorem messages_nil : messages handle [] = [] := rfl

@[simp] theorem receipts_nil : receipts handle [] = [] := rfl

@[simp] theorem messages_append :
    messages handle (events ++ more) = messages handle events ++ messages handle more :=
  List.filterMap_append

@[simp] theorem receipts_append :
    receipts handle (events ++ more) = receipts handle events ++ receipts handle more :=
  List.filterMap_append

variable {handle}

theorem messages_of_silent {e : Event} (he : e.message? handle = none) :
    messages handle [e] = [] := by
  simp [messages, he]

theorem receipts_of_silent {e : Event} (he : e.receipt? handle = none) :
    receipts handle [e] = [] := by
  simp [receipts, he]

@[simp] theorem received_nil (sink? : Option Sink) : received sink? [] = [] := by
  cases sink? <;> rfl

theorem received_append (sink? : Option Sink) (texts rest : List CText) :
    received sink? (texts ++ rest) = received sink? texts ++ received sink? rest := by
  cases sink? <;> simp [received]

end Lists

variable {σ : Type}

namespace World

/-- The sink that receives the messages of a state. -/
def sink? (w : World σ) (handle : Handle) : Option Sink :=
  (w.channel? handle).bind (·.sink?)

section Message

variable (w : World σ) (handle other : Handle) (text : CText)

private theorem messages_receive (c : Channel) (t : String) :
    messages other (c.receive handle t) = [] := by
  unfold Channel.receive
  cases c.sink? with
  | none => rfl
  | some sink =>
    cases hr : sink.refuses t <;> simp [messages, Event.message?, hr]

private theorem receipts_receive (c : Channel) (t : String) :
    receipts other (c.receive handle t) =
      if handle = other then (c.sink?.map fun sink => (sink.tag, t)).toList else [] := by
  unfold Channel.receive
  cases c.sink? with
  | none =>
    by_cases ho : handle = other <;> simp [receipts, Event.receipt?, ho]
  | some sink =>
    by_cases ho : handle = other <;> cases hr : sink.refuses t <;>
      simp [receipts, List.filterMap_cons, Event.receipt?, ho, hr]

private theorem message_cases :
    w.channel? handle = none ∧ w.message handle text = (w, []) ∨
      ∃ c, w.channel? handle = some c ∧ handle < w.channels.length ∧
        w.message handle text =
          ({ w with channels := w.channels.set handle { c with delivered := c.delivered + 1 } },
            .messaged handle text :: c.receive handle text.text) := by
  unfold message
  cases hc : w.channel? handle with
  | none => exact .inl ⟨rfl, rfl⟩
  | some c => exact .inr ⟨c, rfl, (List.getElem?_eq_some_iff.1 hc).1, rfl⟩

/-- What is sent to a state that exists is there to be seen. -/
theorem messages_message :
    messages other (w.message handle text).2 =
      if handle = other ∧ handle < w.channels.length then [text] else [] := by
  rcases message_cases w handle text with ⟨hc, hm⟩ | ⟨c, _, hlt, hm⟩
  · have hge : ¬handle < w.channels.length := Nat.not_lt.2 (List.getElem?_eq_none_iff.1 hc)
    simp [hm, hge]
  · have hcons : messages other (.messaged handle text :: c.receive handle text.text) =
        messages other [.messaged handle text] ++ messages other (c.receive handle text.text) :=
      messages_append other [_] _
    rw [hm, hcons, messages_receive, List.append_nil]
    by_cases ho : handle = other
    · simp [messages, Event.message?, ho, ho ▸ hlt]
    · simp [messages, Event.message?, ho]

theorem sink?_message : (w.message handle text).1.sink? other = w.sink? other := by
  rcases message_cases w handle text with ⟨_, hm⟩ | ⟨c, hc, hlt, hm⟩
  · rw [hm]
  · rw [hm]
    by_cases ho : other = handle
    · subst ho
      rw [sink?, sink?, hc]
      simp [channel?, hlt]
    · simp [sink?, channel?, List.getElem?_set_ne (Ne.symm ho)]

theorem delivered_message :
    (w.message handle text).1.delivered other =
      w.delivered other + (messages other (w.message handle text).2).length := by
  rw [messages_message]
  rcases message_cases w handle text with ⟨hc, hm⟩ | ⟨c, hc, hlt, hm⟩
  · have hge : ¬handle < w.channels.length := Nat.not_lt.2 (List.getElem?_eq_none_iff.1 hc)
    simp [hm, hge]
  · rw [hm]
    by_cases ho : other = handle
    · subst ho
      rw [delivered, delivered, hc]
      simp [channel?, hlt]
    · simp [delivered, channel?, Ne.symm ho, List.getElem?_set_ne (Ne.symm ho)]

/-- A message is received by the sink of its own state, and by nobody else. -/
theorem receipts_message :
    receipts other (w.message handle text).2 =
      received (w.sink? other) (messages other (w.message handle text).2) := by
  rw [messages_message]
  rcases message_cases w handle text with ⟨hc, hm⟩ | ⟨c, hc, hlt, hm⟩
  · have hge : ¬handle < w.channels.length := Nat.not_lt.2 (List.getElem?_eq_none_iff.1 hc)
    simp [hm, hge]
  · have hcons : receipts other (.messaged handle text :: c.receive handle text.text) =
        receipts other (c.receive handle text.text) := rfl
    rw [hm, hcons, receipts_receive]
    by_cases ho : handle = other
    · subst ho
      rw [sink?, hc]
      cases hs : c.sink? <;> simp [hlt, hs, received]
    · simp [ho]

end Message

section SetSink

variable (w : World σ) (handle other : Handle) (new? : Option Sink)

theorem sink?_setSink : (w.setSink handle new?).sink? other =
    if handle = other ∧ handle < w.channels.length then new? else w.sink? other := by
  unfold sink? channel? setSink
  by_cases ho : handle = other
  · subst ho
    by_cases hlt : handle < w.channels.length
    · simp [hlt]
    · simp [hlt]
  · simp [ho]

theorem delivered_setSink : (w.setSink handle new?).delivered other = w.delivered other := by
  unfold delivered channel? setSink
  by_cases ho : handle = other <;> cases hc : w.channels[other]? <;>
    simp [ho, hc]

end SetSink

/-- From one world to a later one with all sinks where they were: what was sent has been received
and counted. -/
structure Relayed (w : World σ) (events : List Event) (w' : World σ) : Prop where
  sinks : ∀ handle, w'.sink? handle = w.sink? handle
  received : ∀ handle, receipts handle events = received (w.sink? handle) (messages handle events)
  counted : ∀ handle, w'.delivered handle = w.delivered handle + (messages handle events).length

namespace Relayed

variable {w w' : World σ} {events : List Event}

theorem refl (w : World σ) : w.Relayed [] w :=
  ⟨fun _ => rfl, fun _ => by simp, fun _ => rfl⟩

theorem silent (h : w.Relayed events w') {e : Event} (hm : ∀ handle, e.message? handle = none)
    (hr : ∀ handle, e.receipt? handle = none) : w.Relayed (events ++ [e]) w' := by
  constructor
  · exact h.sinks
  · intro handle
    rw [receipts_append, messages_append, receipts_of_silent (hr handle),
      messages_of_silent (hm handle), List.append_nil, List.append_nil]
    exact h.received handle
  · intro handle
    rw [messages_append, messages_of_silent (hm handle), List.append_nil]
    exact h.counted handle

theorem note (h : w.Relayed events w') {e : Event} (he : e.isNote) :
    w.Relayed (events ++ [e]) w' :=
  h.silent (Event.message?_of_isNote he) (Event.receipt?_of_isNote he)

theorem message (h : w.Relayed events w') (handle : Handle) (text : CText) :
    w.Relayed (events ++ (w'.message handle text).2) (w'.message handle text).1 := by
  constructor
  · intro other
    rw [sink?_message, h.sinks]
  · intro other
    rw [receipts_append, messages_append, received_append, h.received, receipts_message, h.sinks]
  · intro other
    rw [delivered_message, h.counted, messages_append, List.length_append]
    omega

theorem absorb (h : w.Relayed events w') (sent : List Emission) :
    w.Relayed (events ++ (w'.absorb sent).2) (w'.absorb sent).1 :=
  Passage.absorb (R := w.Relayed) (fun he h => h.note he) (fun handle text h => h.message handle text)
    sent h

/-- A new channel has no sink and has received nothing. -/
theorem created (h : w.Relayed events w') (outside : σ) :
    w.Relayed (events ++ [.created (some w'.channels.length)])
      { outside, channels := w'.channels ++ [{}] } := by
  have hnew : ∀ handle, ({ outside, channels := w'.channels ++ [{}] } : World σ).channel? handle =
      if handle = w'.channels.length then some {} else w'.channel? handle := by
    exact getElem?_append_singleton w'.channels {}
  have hnone : w'.channel? w'.channels.length = none := by simp [channel?]
  have hsilent := h.silent (e := .created (some w'.channels.length)) (fun _ => rfl) fun _ => rfl
  constructor
  · intro handle
    rw [← h.sinks handle, sink?, hnew]
    by_cases hn : handle = w'.channels.length
    · simp [hn, sink?, hnone]
    · simp [hn, sink?]
  · exact hsilent.received
  · intro handle
    rw [← hsilent.counted handle, delivered, hnew]
    by_cases hn : handle = w'.channels.length
    · simp [hn, delivered, hnone]
    · simp [hn, delivered]

end Relayed

/-- Whatever is done with contexts, short of installing a sink, relays what is sent meanwhile. -/
theorem relays (compiler : Compiler σ) (w : World σ) : Passage compiler w.Relayed := by
  apply Passage.of_steps
  · exact fun he h => h.note he
  · exact fun handle text h => h.message handle text
  · intro es v handle request h _
    have hsilent := h.silent (e := .called (some handle) request
      (compiler.call handle request v.outside).1) (fun _ => rfl) fun _ => rfl
    exact ⟨hsilent.sinks, hsilent.received, hsilent.counted⟩
  · exact fun _ _ h => ⟨h.sinks, h.received, h.counted⟩
  · intro es v h
    unfold create
    split
    · have hsilent := h.silent (e := .created none) (fun _ => rfl) fun _ => rfl
      exact ⟨hsilent.sinks, hsilent.received, hsilent.counted⟩
    · exact h.created _

end World

end EmbeddedC
