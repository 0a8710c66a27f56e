import EmbeddedC.Proofs.MappedRuns
import EmbeddedC.Proofs.Refusal
import EmbeddedC.Proofs.MessageDelivery
/-!
# Diagnostics

Messages reach the sink that their context has at that moment, all of them and in order, and they are
counted. Which sink that is can be told from the moves of the session alone. Sinks that panic make no
difference to anything else.
-/

namespace EmbeddedC

variable {σ : Type}

/-- The messages for one state among all that the other side sends. -/
def sentTo (handle : Handle) (sent : List Emission) : List CText :=
  sent.filterMap fun
    | .message state text => if state = handle then some text else none
    | .entered _ _ => none

theorem sentTo_append (handle : Handle) (sent more : List Emission) :
    sentTo handle (sent ++ more) = sentTo handle sent ++ sentTo handle more :=
  List.filterMap_append

def Exchange.sent : Exchange σ → List Emission
  | called _ _ _ _ sent _ | entered _ _ _ _ sent _ => sent

/-- A move with its reply and all that was seen of it. -/
structure Turn where
  move : Move
  result : Except MoveError Reply
  events : List Event

/-- The sink that the context of an index has from this turn on, if the turn changes it. -/
def Turn.installs? (index : Nat) (t : Turn) : Option (Option Sink) :=
  match t.move, t.result with
  | .perform i operation, .ok _ => if i = index then operation.sink? else none
  | _, _ => none

/-- The sink that the latest change before now has left. -/
def installed? (index : Nat) (turns : List Turn) : Option Sink :=
  turns.foldl (fun sink? t => (t.installs? index).getD sink?) none

theorem installed?_append (index : Nat) (turns : List Turn) (t : Turn) :
    installed? index (turns ++ [t]) = (t.installs? index).getD (installed? index turns) := by
  simp [installed?]

section World

/-- All that the other side sends to a state that exists is there to be seen. -/
theorem World.messages_absorb {w : World σ} {handle : Handle} (hlt : handle < w.channels.length)
    (sent : List Emission) : messages handle (w.absorb sent).2 = sentTo handle sent := by
  induction sent generalizing w with
  | nil => rfl
  | cons emission rest ih =>
    cases emission with
    | message state text =>
      have hlt' : handle < (w.message state text).1.channels.length := by
        rwa [message_channels]
      have hrest := ih hlt'
      have hevents : (w.absorb (.message state text :: rest)).2 =
          (w.message state text).2 ++ ((w.message state text).1.absorb rest).2 := rfl
      rw [hevents, messages_append, messages_message, hrest]
      by_cases ho : state = handle
      · simp [sentTo, ho, hlt]
      · simp [sentTo, ho]
    | entered address arguments =>
      have hevents : messages handle (w.absorb (.entered address arguments :: rest)).2 =
          messages handle (w.absorb rest).2 := rfl
      rw [hevents, ih hlt]
      rfl

end World

section Sent

variable {compiler : Compiler σ}

/-- In a watched world, what was sent to a state since it was there is what was seen. Of the states
made since then, only one that was made before anything else is looked at. -/
private structure Told (n : Nat) (events : List Event) (w : World (σ × List (Exchange σ))) :
    Prop where
  grows : n ≤ w.channels.length
  start : events = [] → w.outside.2 = []
  born : ∀ handle, events.head? = some (.created (some handle)) → handle < w.channels.length
  told : ∀ handle, handle < w.channels.length →
    handle < n ∨ events.head? = some (.created (some handle)) →
      messages handle events = sentTo handle (w.outside.2.flatMap Exchange.sent)

private theorem Told.more {n : Nat} {events more : List Event}
    {w w' : World (σ × List (Exchange σ))} {e : Event} (h : Told n events w)
    (exchanges : List (Exchange σ)) (he : ∀ handle, e ≠ .created (some handle))
    (hw : w'.channels.length = w.channels.length)
    (hlog : w'.outside.2 = w.outside.2 ++ exchanges)
    (hm : ∀ handle, handle < w.channels.length →
      messages handle (e :: more) = sentTo handle (exchanges.flatMap Exchange.sent)) :
    Told n (events ++ e :: more) w' := by
  have hhead : ∀ handle, (events ++ e :: more).head? = some (.created (some handle)) →
      events.head? = some (.created (some handle)) := by
    intro handle hh
    cases events with
    | nil => exact absurd (Option.some.inj hh) (he handle)
    | cons first rest => exact hh
  constructor
  · rw [hw]
    exact h.grows
  · intro hnil
    simp at hnil
  · intro handle hh
    rw [hw]
    exact h.born handle (hhead handle hh)
  · intro handle hlt hor
    rw [hw] at hlt
    rw [messages_append, h.told handle hlt (hor.imp_right (hhead handle)), hm handle hlt, hlog,
      List.flatMap_append, sentTo_append]

private theorem Told.note {n : Nat} {events : List Event} {w : World (σ × List (Exchange σ))}
    {e : Event} (h : Told n events w) (he : e.isNote) : Told n (events ++ [e]) w := by
  have hne : ∀ handle, e ≠ .created (some handle) := by
    rintro handle rfl
    exact Bool.noConfusion he
  apply h.more [] hne rfl (List.append_nil _).symm
  intro handle _
  exact messages_of_silent (Event.message?_of_isNote he handle)

private theorem Told.create {n : Nat} {events : List Event} {w : World (σ × List (Exchange σ))}
    (h : Told n events w) (outside : σ) :
    Told n (events ++ [.created (some w.channels.length)])
      { outside := (outside, w.outside.2), channels := w.channels ++ [{}] } := by
  constructor
  · simpa using Nat.le_succ_of_le h.grows
  · intro hnil
    simp at hnil
  · intro handle hh
    have hlt : handle < w.channels.length + 1 := by
      cases events with
      | nil =>
        cases hh
        exact Nat.lt_succ_self _
      | cons first rest => exact Nat.lt_succ_of_lt (h.born handle hh)
    simpa using hlt
  · intro handle hlt hor
    have hsilent : messages handle [.created (some w.channels.length)] = [] := rfl
    rw [messages_append, hsilent, List.append_nil]
    cases events with
    | nil =>
      -- nothing has been sent to anyone before the first state is made
      rw [show w.outside.2 = [] from h.start rfl]
      rfl
    | cons first rest =>
      have hlt' : handle < w.channels.length :=
        hor.elim (Nat.lt_of_lt_of_le · h.grows) (h.born handle)
      exact h.told handle hlt' hor

theorem messages_cons_silent {handle : Handle} {e : Event} (events : List Event)
    (he : e.message? handle = none) : messages handle (e :: events) = messages handle events := by
  simp [messages, he]

private theorem told_passage (n : Nat) : Passage compiler.watched (Told n) where
  note := fun he h => h.note he
  call := by
    intro es w handle request h _
    rcases hc : compiler.call handle request w.outside.1 with ⟨answer, sent, left⟩
    simp only [World.call, Compiler.watched, hc]
    apply h.more [.called handle request w.outside.1 answer sent left]
    · intro _ ho
      cases ho
    · exact World.absorb_channels _ _
    · rw [World.absorb_outside]
    · intro other hlt
      rw [messages_cons_silent _ rfl, World.messages_absorb (by exact hlt)]
      simp [Exchange.sent]
  enter := by
    intro es w state? address arguments h
    rcases hc : compiler.enter address arguments w.outside.1 with ⟨status, sent, left⟩
    simp only [World.enter, Compiler.watched, hc]
    apply h.more [.entered address arguments w.outside.1 status sent left]
    · intro _ ho
      cases ho
    · exact World.absorb_channels _ _
    · rw [World.absorb_outside]
    · intro other hlt
      rw [messages_cons_silent _ rfl, World.messages_absorb (by exact hlt)]
      simp [Exchange.sent]
  create := by
    intro es w h
    rcases hc : compiler.create w.outside.1 with ⟨_ | _, outside⟩
    · simp only [World.create, Compiler.watched, hc]
      exact h.more [] (by simp) rfl (List.append_nil _).symm fun _ _ => rfl
    · simp only [World.create, Compiler.watched, hc]
      exact h.create outside

/-- All that the other side sends during a move. -/
def Session.sent (compiler : Compiler σ) (s : Session σ) : Move → List Emission
  | .outside sent => sent
  | m => (s.exchanges compiler [m]).flatMap Exchange.sent

/-- A state that was there before a move, or was made right at its start, is sent all that the other
side sends to it. -/
theorem Session.messages_move {s : Session σ}
    (hs : ∀ i c, s.context? i = some c → c.Within s.world) (m : Move) {handle : Handle}
    (hh : handle < s.world.channels.length ∨
      (move compiler m s).events.head? = some (.created (some handle))) :
    messages handle (move compiler m s).events = sentTo handle (s.sent compiler m) := by
  by_cases ho : ∃ sent, m = .outside sent
  · obtain ⟨sent, rfl⟩ := ho
    have hlt : handle < s.world.channels.length := by
      rcases hh with hlt | hhead
      · exact hlt
      · have hquiet := World.absorb_quiet s.world sent _ (List.mem_of_head? hhead)
        exact Bool.noConfusion hquiet
    exact World.messages_absorb hlt sent
  · have hwatched : ∀ i c, s.watched.context? i = some c → c.Within s.watched.world := hs
    have hevents : (move compiler m s).events = (move compiler.watched m s.watched).events :=
      congrArg Outcome.events (move_unwatched compiler hwatched m)
    have hstart : Told s.world.channels.length [] s.watched.world :=
      ⟨Nat.le_refl _, fun _ => rfl, nofun, fun _ _ _ => rfl⟩
    have htold : Told s.world.channels.length (move compiler.watched m s.watched).events
        (move compiler.watched m s.watched).state.world := by
      apply (told_passage (s.world.channels.length)).move hwatched _ _ hstart
      · intro i operation _ _ es w other sink? h
        have hlength : (w.setSink other sink?).channels.length = w.channels.length := by
          simp [World.setSink]
        exact ⟨hlength ▸ h.grows, h.start, fun n hn => hlength ▸ h.born n hn,
          fun n hn => h.told n (hlength ▸ hn)⟩
      · exact fun sent hm => ho ⟨sent, hm⟩
    have hsent : s.sent compiler m =
        (move compiler.watched m s.watched).state.world.outside.2.flatMap Exchange.sent := by
      cases m with
      | outside sent => exact absurd ⟨sent, rfl⟩ ho
      | _ => rfl
    rw [hevents] at hh ⊢
    rw [hsent]
    exact htold.told handle (hh.elim (Nat.lt_of_lt_of_le · htold.grows) (htold.born handle)) hh

end Sent

section Sinks

variable (compiler : Compiler σ)

theorem messages_of_notes {events : List Event} (h : ∀ e ∈ events, e.isNote) (handle : Handle) :
    messages handle events = [] :=
  List.filterMap_eq_nil_iff.2 fun e he => Event.message?_of_isNote (h e he) handle

theorem receipts_of_notes {events : List Event} (h : ∀ e ∈ events, e.isNote) (handle : Handle) :
    receipts handle events = [] :=
  List.filterMap_eq_nil_iff.2 fun e he => Event.receipt?_of_isNote (h e he) handle

private theorem Task.perform_installSink (sink? : Option Sink) (c : Context) (w : World σ) :
    ∃ events, (∀ e ∈ events, e.isNote) ∧ (installSink sink?).perform compiler ⟨c, w⟩ =
      ⟨.ok .none, ⟨c.configured, w.setSink c.number sink?⟩, events⟩ := by
  by_cases hs : c.stage = .created
  · refine ⟨[.logged (.stageChanged .created .configured)], by simp [Event.isNote], ?_⟩
    simp [Task.perform, ContextAction.silent, ContextAction.markConfigured, ContextAction.advance,
      ContextAction.context, ContextAction.log, ContextAction.modify, Action.modify, Action.emit,
      Action.get, Bind.bind, Action.bind, Pure.pure, Action.pure, Context.configured, hs]
  · refine ⟨[], by simp, ?_⟩
    simp [Task.perform, ContextAction.silent, ContextAction.markConfigured,
      ContextAction.context, Action.modify, Action.get, Bind.bind, Action.bind, Pure.pure,
      Action.pure, Context.configured, hs]

private theorem Operation.check_sink {operation : Operation} {sink? : Option Sink}
    (hk : operation.sink? = some sink?) (c : Context) :
    (∃ e, operation.check c = .error e) ∨ operation.check c = .ok (.installSink sink?) := by
  cases operation with
  | setErrorSink sink =>
    cases hk
    simp only [check]
    cases c.ensureLive "set_error_sink" with
    | error e => exact .inl ⟨e, rfl⟩
    | ok u => exact .inr rfl
  | clearErrorSink =>
    cases hk
    simp only [check]
    cases c.ensureLive "clear_error_sink" with
    | error e => exact .inl ⟨e, rfl⟩
    | ok u => exact .inr rfl
  | _ => cases hk

namespace Session

/-- A context that is held after a move was held before, or its state was made right at the start. -/
theorem held_move {s : Session σ} (hs : ∀ i c, s.context? i = some c → c.Coherent) (m : Move)
    {i : Nat} {c : Context} (hc : (move compiler m s).state.context? i = some c) :
    (∃ d, s.context? i = some d ∧ c.number = d.number) ∨
      i = s.contexts.length ∧ c.number = s.world.channels.length ∧
        (move compiler m s).events.head? = some (.created (some c.number)) := by
  rcases (leads_move compiler m s hs).held hc with ⟨d, ds, hd, hr⟩ | hnew
  · exact .inl ⟨d, hd, hr.number⟩
  · exact .inr hnew

/-- What a turn makes of the messages sent meanwhile, and of the sinks. -/
structure Relays (s : Session σ) (t : Turn) (s' : Session σ) : Prop where
  received : ∀ handle,
    receipts handle t.events = received (s.world.sink? handle) (messages handle t.events)
  counted : ∀ handle,
    s'.world.delivered handle = s.world.delivered handle + (messages handle t.events).length
  sinks : ∀ i c, s'.context? i = some c →
    s'.world.sink? c.number = (t.installs? i).getD (s.world.sink? c.number)

/-- A turn as it is played. -/
def turn (s : Session σ) (m : Move) : Turn :=
  ⟨m, (move compiler m s).result, (move compiler m s).events⟩

variable {compiler} {s s' : Session σ}

private theorem Relays.of_relayed {t : Turn} (h : s.world.Relayed t.events s'.world)
    (ht : ∀ i, t.installs? i = none) : s.Relays t s' where
  received := h.received
  counted := h.counted
  sinks := by
    intro i c _
    rw [h.sinks, ht, Option.getD_none]

private theorem installs?_eq_none {m : Move}
    (hm : ∀ i operation, m = .perform i operation → operation.sink? = none) (i : Nat) :
    (s.turn compiler m).installs? i = none := by
  unfold Turn.installs? turn
  split
  · next j operation value hj _ =>
    rw [hm j operation hj]
    split <;> rfl
  · rfl

private theorem move_of_perform {i : Nat} {operation : Operation} {c c' : Context}
    {w : World σ} {r : Except BindError Value} {events : List Event}
    (hi : s.context? i = some c)
    (ho : operation.perform compiler ⟨c, s.world⟩ = ⟨r, ⟨c', w⟩, events⟩) :
    move compiler (.perform i operation) s = ⟨(r.map .value).mapError .bind,
      { s with world := w, contexts := s.contexts.set i (some c') }, events⟩ := by
  simp [move, on, hi, ho]

private theorem Relays.of_sink {I : Context → List Deed → Prop} {P : List Deed → Prop}
    {events : List Event} (hs : s.Obeys I P events) {i : Nat} {operation : Operation}
    {sink? : Option Sink} (hk : operation.sink? = some sink?) :
    s.Relays (s.turn compiler (.perform i operation))
      (move compiler (.perform i operation) s).state := by
  cases hi : s.context? i with
  | none =>
    have hmove : move compiler (.perform i operation) s = ⟨.error .noContext, s, []⟩ := by
      simp [move, on, hi]
    rw [turn, hmove]
    exact .of_relayed (.refl _) fun _ => rfl
  | some c =>
    rcases operation.check_sink hk c with ⟨e, he⟩ | hok
    · have ho := operation.perform_of_check_error compiler (s := ⟨c, s.world⟩) he
      rw [turn, move_of_perform hi ho]
      exact .of_relayed (.refl _) fun _ => rfl
    · obtain ⟨notes, hnotes, hperform⟩ := Task.perform_installSink compiler sink? c s.world
      have ho : operation.perform compiler ⟨c, s.world⟩ =
          ⟨.ok .none, ⟨c.configured, s.world.setSink c.number sink?⟩, notes⟩ :=
        (operation.perform_of_check compiler hok).trans hperform
      rw [turn, move_of_perform hi ho]
      constructor
      · intro handle
        rw [receipts_of_notes hnotes, messages_of_notes hnotes, received_nil]
      · intro handle
        rw [messages_of_notes hnotes]
        exact World.delivered_setSink ..
      · intro j d hj
        rw [context?_set hi rfl] at hj
        rw [World.sink?_setSink]
        by_cases hji : j = i
        · rw [if_pos hji] at hj
          cases hj
          subst hji
          have hlt := hs.known j c hi
          simp [Turn.installs?, Except.map, hk, hlt]
        · rw [if_neg hji] at hj
          have hne : ¬(c.number = d.number ∧ c.number < s.world.channels.length) := by
            rintro ⟨hn, _⟩
            exact hji (hs.apart j i d c hj hi hn.symm)
          have hij : ¬i = j := Ne.symm hji
          simp [Turn.installs?, Except.map, hne, hij]

variable (compiler) in
theorem turn_relays {I : Context → List Deed → Prop} {P : List Deed → Prop}
    {events : List Event} (hs : s.Obeys I P events) (m : Move) :
    s.Relays (s.turn compiler m) (move compiler m s).state := by
  have hwithin : ∀ i c, s.context? i = some c → c.Within s.world := fun i c hi => hs.within hi
  have hplain : ∀ m, (∀ i operation, m = .perform i operation → operation.sink? = none) →
      (∀ sent, m ≠ .outside sent) → s.Relays (s.turn compiler m) (move compiler m s).state := by
    intro m hm ho
    have hrelayed := (World.relays compiler s.world).move hwithin (m := m)
      (fun i operation hp hsink => by simp [hm i operation hp] at hsink) ho (.refl _)
    exact .of_relayed hrelayed (installs?_eq_none hm)
  cases m with
  | perform i operation =>
    cases hk : operation.sink? with
    | none =>
      apply hplain
      · rintro _ _ ⟨⟩
        exact hk
      · exact fun _ h => nomatch h
    | some sink? => exact .of_sink hs hk
  | outside sent =>
    have hrelayed := (World.Relayed.refl s.world).absorb sent
    exact .of_relayed hrelayed (installs?_eq_none fun _ _ h => nomatch h)
  | _ => exact hplain _ (fun _ _ h => nomatch h) (fun _ h => nomatch h)

variable (compiler)

/-- The turns of a session, one for each move. -/
def turns (s : Session σ) : List Move → List Turn
  | [] => []
  | m :: rest => s.turn compiler m :: (move compiler m s).state.turns rest

/-- What the host can tell from the turns so far: which sinks its contexts have, and how many messages
each of them has been sent. -/
private structure Hears (s : Session σ) (past : List Turn) (events : List Event) : Prop where
  sinks : ∀ i c, s.context? i = some c → s.world.sink? c.number = installed? i past
  idle : ∀ i, s.contexts.length ≤ i → installed? i past = none
  counted : ∀ handle, s.world.delivered handle = (messages handle events).length

variable {compiler}

private theorem installs?_lt {m : Move} {i : Nat} {sink? : Option Sink}
    (h : (s.turn compiler m).installs? i = some sink?) : i < s.contexts.length := by
  unfold Turn.installs? turn at h
  split at h
  · next j operation value hm hr =>
    cases hm
    split at h
    · next hj =>
      subst hj
      apply Nat.lt_of_not_le
      intro hge
      have hnone : s.context? j = none := by
        simp [context?, List.getElem?_eq_none hge]
      simp [move, on, hnone] at hr
    · cases h
  · cases h

theorem sink?_unborn (w : World σ) : w.sink? w.channels.length = none := by
  simp [World.sink?, World.channel?]

private theorem Hears.move {I : Context → List Deed → Prop} {P : List Deed → Prop}
    {past : List Turn} {events : List Event} (h : s.Hears past events) (hs : s.Obeys I P events)
    (m : Move) :
    (Session.move compiler m s).state.Hears (past ++ [s.turn compiler m])
      (events ++ (Session.move compiler m s).events) := by
  have hrelays := turn_relays compiler hs m
  constructor
  · intro i c hi
    rw [hrelays.sinks i c hi, installed?_append]
    have hsink : s.world.sink? c.number = installed? i past := by
      rcases held_move compiler hs.coherent m hi with ⟨d, hd, hn⟩ | ⟨rfl, hn, _⟩
      · rw [hn]
        exact h.sinks i d hd
      · rw [hn, sink?_unborn, h.idle _ (Nat.le_refl _)]
    rw [hsink]
  · intro i hi
    have hle := (leads_move compiler m s hs.coherent).contexts
    have hnone : (s.turn compiler m).installs? i = none := by
      apply Option.eq_none_iff_forall_ne_some.2
      intro sink? hsome
      exact absurd (installs?_lt hsome) (Nat.not_lt.2 (Nat.le_trans hle hi))
    rw [installed?_append, hnone, Option.getD_none, h.idle i (Nat.le_trans hle hi)]
  · intro handle
    rw [hrelays.counted, h.counted, messages_append, List.length_append]
    rfl

private theorem Hears.play {past : List Turn} {events : List Event} (h : s.Hears past events)
    (hs : s.Obeys Context.Tracks (fun _ => True) events) (moves : List Move) :
    (s.play compiler moves).1.Hears (past ++ s.turns compiler moves)
      (events ++ (s.play compiler moves).2) := by
  induction moves generalizing s past events with
  | nil => simpa [Session.play, turns] using h
  | cons m rest ih =>
    have := ih (h.move hs m) (hs.move compiler law_tracks m)
    rwa [List.append_assoc, List.append_assoc] at this

end Session

end Sinks

section Panics

/-- A sink that receives the same and never panics. -/
def Sink.calm (sink : Sink) : Sink :=
  { sink with refuses := fun _ => false }

def Event.isPanic : Event → Bool
  | logged (.sinkPanicked _) => true
  | _ => false

/-- What a turn would be if all sinks were calm. -/
def Turn.calm (t : Turn) : Turn :=
  ⟨t.move.withSink Sink.calm, t.result, t.events.filter (!·.isPanic)⟩

theorem views_calm : Views Sink.calm fun e => !e.isPanic where
  tag _ := rfl
  others e he := by
    cases e with
    | logged record =>
      cases record with
      | sinkPanicked text => exact absurd rfl (he text)
      | _ => rfl
    | _ => rfl
  panics sink text := by simp [Sink.calm, Event.isPanic]

namespace Session

variable {compiler : Compiler σ}

private theorem turns_calm {s s' : Session σ}
    (h : s.Beside (Pairing.seen id Sink.calm fun e => !e.isPanic) [] s' []) (moves : List Move) :
    s'.turns compiler (moves.map (·.withSink Sink.calm)) =
      (s.turns compiler moves).map Turn.calm := by
  -- Panics are seen in the log and nowhere else: no turn ends otherwise, and no message is lost.
  have hmirrors : Mirrors id compiler compiler :=
    ⟨fun _ => rfl, fun _ => rfl, fun _ _ _ => rfl, fun _ _ _ => rfl⟩
  induction moves generalizing s s' with
  | nil => rfl
  | cons m rest ih =>
    obtain ⟨hresult, hbeside⟩ := h.move (Pairing.seen_parallel views_calm hmirrors) m
      (fun _ _ _ _ => Pairing.seen_installs) (fun _ _ => Pairing.seen_absorbs views_calm)
    obtain ⟨hworld, hevents⟩ := hbeside.related
    have hrest := ih ⟨hbeside.toolchain, hbeside.contexts, hbeside.within, hworld, rfl⟩
    simp only [List.map_cons, turns]
    rw [hrest]
    congr 1
    simp only [List.nil_append] at hevents
    simp only [turn, Turn.calm, hresult, hevents]

end Session

end Panics

/-- A compiler that warns about every unit. -/
def Compiler.warning (text : CText) : Compiler Unit where
  files _ := {}
  create _ := (true, ())
  call handle request _ := match request with
    | .compile _ => ({}, [.message handle text], ())
    | _ => ({}, [], ())
  enter _ _ _ := (0, [], ())

namespace Session

variable (compiler : Compiler σ)

private theorem channel_sink? (s : Session σ) (c : Context) :
    (s.channel c).sink? = s.world.sink? c.number := by
  unfold channel World.sink?
  cases s.world.channel? c.number <;> rfl

private theorem channel_delivered (s : Session σ) (c : Context) :
    (s.channel c).delivered = s.world.delivered c.number := by
  unfold channel World.delivered
  cases s.world.channel? c.number <;> rfl

/-- In each move of a session, all that the other side sends to a context's state is received by the
sink that the context has been given last, in order and each message once; and at all times the
context has counted what was sent to its state. Were all sinks calm, the turns would be the same. -/
theorem diagnostics_reach_sinks (toolchain : Toolchain) (outside : σ) (before : List Move)
    (m : Move) :
    let start : Session σ := ⟨toolchain, { outside }, []⟩
    let s := (start.play compiler before).1
    let o := move compiler m s
    let past := start.turns compiler before
    (∀ i c, s.context? i = some c ∨ o.state.context? i = some c →
      messages c.number o.events = sentTo c.number (s.sent compiler m) ∧
        receipts c.number o.events =
          received (installed? i past) (messages c.number o.events)) ∧
      (∀ i c, s.context? i = some c →
        (s.channel c).sink? = installed? i past ∧
          (s.channel c).delivered =
            (messages c.number (start.play compiler before).2).length) ∧
      start.turns compiler (before.map (·.withSink Sink.calm)) = past.map Turn.calm := by
  intro start s o past
  have hs := law_tracks.play compiler toolchain { outside } before
  have hstart : start.Hears [] [] :=
    ⟨fun i c hi => by simp [start, context?] at hi, fun _ _ => rfl, fun _ => rfl⟩
  have hhears : s.Hears past _ := hstart.play (.empty law_tracks toolchain _) before
  have hrelays := turn_relays compiler hs m
  refine ⟨?_, ?_, ?_⟩
  · intro i c hc
    -- a context that is held on one side of the move only has been dropped or opened by it
    have hheld : (∃ d, s.context? i = some d ∧ c.number = d.number) ∨
        i = s.contexts.length ∧ c.number = s.world.channels.length ∧
          o.events.head? = some (.created (some c.number)) := by
      rcases hc with hc | hc
      · exact .inl ⟨c, hc, rfl⟩
      · exact held_move compiler hs.coherent m hc
    have hsink : s.world.sink? c.number = installed? i past := by
      rcases hheld with ⟨d, hd, hn⟩ | ⟨rfl, hn, _⟩
      · rw [hn]
        exact hhears.sinks i d hd
      · rw [hn, sink?_unborn, hhears.idle _ (Nat.le_refl _)]
    constructor
    · apply messages_move (fun i c hi => hs.within hi) m
      rcases hheld with ⟨d, hd, hn⟩ | ⟨_, _, hhead⟩
      · exact .inl (hn ▸ hs.known i d hd)
      · exact .inr hhead
    · rw [← hsink]
      exact hrelays.received c.number
  · intro i c hi
    rw [channel_sink?, channel_delivered]
    exact ⟨hhears.sinks i c hi, hhears.counted c.number⟩
  · apply turns_calm
    exact ⟨rfl, rfl, fun i c hi => by simp [start, context?] at hi, rfl, rfl⟩

/-- A sink that panics on every message has been given the warning about a unit all the same. -/
theorem warning_reaches_sink :
    let warning : CText := .upToNul (Text.Utf8.encode "unused")
    let compiler : Compiler Unit := .warning warning
    let toolchain : Toolchain := ⟨⟨.wide, ⟨[]⟩⟩, ⟨⟨[]⟩⟩, {}⟩
    let sink : Sink := { tag := "log", refuses := fun _ => true }
    let before : List Move := [.openContext true, .perform 0 (.setErrorSink sink)]
    let m : Move := .perform 0 (.compileString "int x;")
    let s := (play compiler ⟨toolchain, ⟨(), []⟩, []⟩ before).1
    let c : Context := { Context.fresh toolchain.table 0 with stage := .configured }
    s.context? 0 = some c ∧
      receipts 0 (move compiler m s).events = [("log", warning.text)] := by
  intro warning compiler toolchain sink before m s c
  have hc : s.context? 0 = some c := rfl
  obtain ⟨hreach, _⟩ := diagnostics_reach_sinks compiler toolchain () before m
  obtain ⟨_, hreceipts⟩ := hreach 0 c (.inl hc)
  have hinstalled : installed? 0 (turns compiler ⟨toolchain, ⟨(), []⟩, []⟩ before) = some sink := rfl
  have hsent : messages 0 (move compiler m s).events = [warning] := by decide +kernel
  refine ⟨hc, ?_⟩
  calc receipts 0 (move compiler m s).events
      = received (installed? 0 (turns compiler ⟨toolchain, ⟨(), []⟩, []⟩ before))
          (messages 0 (move compiler m s).events) := hreceipts
    _ = received (some sink) [warning] := by rw [hinstalled, hsent]
    _ = [("log", warning.text)] := rfl

end Session

end EmbeddedC
