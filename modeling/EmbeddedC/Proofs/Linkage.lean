import EmbeddedC.Proofs.CallOrder
import EmbeddedC.Proofs.ScriptedSymbols
import EmbeddedC.Proofs.Injection
import EmbeddedC.Proofs.MappedRuns
/-!
# Linkage

Which address a name stands for in a state of the scripted compiler can be told from the exchanges
alone: the one accepted for it last, or else the first one exported under it. Relocation binds imports
to just that, and by the order of calls nothing changes it afterwards.
-/

namespace EmbeddedC

open Scripted (Gain Machine)

variable {σ : Type}

namespace Exchange

/-- A call on a state and how it was answered. -/
def call? (handle : Handle) : Exchange σ → Option (Request × Answer)
  | called state request _ answer _ _ => if state = handle then some (request, answer) else none
  | entered _ _ _ _ _ _ => none

/-- The other side as left by a relocation of a state that placed its code. -/
def placed? (handle : Handle) : Exchange σ → Option σ
  | called state (.relocate target) _ answer _ left =>
    if state = handle ∧ target ≠ .size ∧ 0 ≤ answer.status then some left else none
  | _ => none

theorem placed?_eq_some_iff {handle : Handle} {e : Exchange σ} {left : σ} :
    e.placed? handle = some left ↔ ∃ target found answer sent, target ≠ .size ∧
      0 ≤ answer.status ∧ e = .called handle (.relocate target) found answer sent left := by
  constructor
  · intro h
    unfold placed? at h
    split at h
    · next state target found answer sent left' =>
      split at h
      · next hp =>
        obtain ⟨rfl, htarget, hstatus⟩ := hp
        cases h
        exact ⟨target, found, answer, sent, htarget, hstatus, rfl⟩
      · exact nomatch h
    · exact nomatch h
  · rintro ⟨target, found, answer, sent, htarget, hstatus, rfl⟩
    exact if_pos ⟨rfl, htarget, hstatus⟩

/-- What an exchange comes to for a state of the scripted compiler. -/
def gain (handle : Handle) : Exchange Machine → Gain
  | called state request found answer _ _ =>
    if state = handle then found.gain request answer else {}
  | entered _ _ _ _ _ _ => {}

end Exchange

/-- All calls on a state. -/
def calls (handle : Handle) (log : List (Exchange σ)) : List (Request × Answer) :=
  log.filterMap (Exchange.call? handle)

theorem calls_append (handle : Handle) (log more : List (Exchange σ)) :
    calls handle (log ++ more) = calls handle log ++ calls handle more :=
  List.filterMap_append

namespace Scripted

/-- All symbols that units exported, in order, those that failed among them. -/
def exported (handle : Handle) (log : List (Exchange Machine)) : List (String × Address) :=
  log.flatMap fun e => (e.gain handle).defined

/-- All names that units import. -/
def imported (handle : Handle) (log : List (Exchange Machine)) : List String :=
  log.flatMap fun e => (e.gain handle).imports

/-- What a name stands for: the latest address accepted for it, else the first exported one. -/
def resolved (handle : Handle) (log : List (Exchange Machine)) (name : String) : Address :=
  (((accepted (calls handle log)).reverse.lookup name).or ((exported handle log).lookup name)).getD
    .null

/-- Relocation binds each import to what its name stands for. -/
def Links (before : List (Exchange Machine)) (e : Exchange Machine) : Prop :=
  ∀ handle left, e.placed? handle = some left → ∀ name ∈ imported handle before,
    left.slot name = resolved handle before name

namespace Machine

/-- A machine whose states hold just what has come to them in these exchanges. -/
structure Holds (m : Machine) (log : List (Exchange Machine)) : Prop where
  unforced : m.forced = []
  defined : ∀ handle, (m.state handle).defined = exported handle log
  imports : ∀ handle, (m.state handle).imports = imported handle log
  injected : ∀ handle, (m.state handle).injected = accepted (calls handle log)

variable {m m' : Machine} {log : List (Exchange Machine)} {handle : Handle}

theorem Holds.lookup (h : m.Holds log) (handle : Handle) (name : String) :
    (m.state handle).lookup name = resolved handle log name := by
  simp [State.lookup, resolved, h.defined, h.injected]

theorem gain_injected (m : Machine) (request : Request) (answer : Answer) :
    (m.gain request answer).injected = accepted [(request, answer)] := by
  cases request with
  | compile unit =>
    have hgreeting : ∀ source, (m.greetingGain source).injected = [] := by
      intro source
      unfold greetingGain
      split <;> rfl
    cases hs : m.source? unit with
    | none => simp [gain, hs, accepted, accepted?]
    | some source =>
      have hsource : (m.sourceGain source).injected = (m.greetingGain source).injected := rfl
      simp [gain, hs, hsource, hgreeting, accepted, accepted?]
  | addSymbol name address =>
    by_cases ha : 0 ≤ answer.status <;> simp [gain, accepted, accepted?, ha]
  | _ => rfl

theorem gain_injected_exchange (e : Exchange Machine) (handle : Handle) :
    (e.gain handle).injected = accepted (calls handle [e]) := by
  cases e with
  | entered => rfl
  | called state request found answer sent left =>
    by_cases hs : state = handle
    · simp [Exchange.gain, calls, Exchange.call?, hs, gain_injected]
    · simp [Exchange.gain, calls, Exchange.call?, hs, accepted]

theorem Holds.snoc (h : m.Holds log) {e : Exchange Machine} (hf : m'.forced = m.forced)
    (hg : ∀ handle, (m.state handle).Gains (e.gain handle) (m'.state handle)) :
    m'.Holds (log ++ [e]) := by
  constructor
  · rw [hf, h.unforced]
  · intro handle
    rw [(hg handle).defined, h.defined]
    simp [exported]
  · intro handle
    rw [(hg handle).imports, h.imports]
    simp [imported]
  · intro handle
    rw [(hg handle).injected, h.injected, gain_injected_exchange, calls_append, accepted_append]

theorem Holds.called (h : m.Holds log) (hlt : handle < m.states.length) (request : Request) :
    let o := m.call handle request
    o.2.2.states.length = m.states.length ∧
      o.2.2.Holds (log ++ [.called handle request m o.1 o.2.1 o.2.2]) := by
  rw [call_unforced h.unforced]
  intro o
  have hextends := m.answer_extends hlt request
  refine ⟨hextends.states, h.snoc hextends.forced fun other => ?_⟩
  by_cases ho : handle = other
  · subst ho
    simpa [Exchange.gain] using hextends.gained
  · rw [hextends.others other (Ne.symm ho)]
    simpa [Exchange.gain, ho] using State.Gains.refl _

theorem Holds.entered (h : m.Holds log) (address : Address) (arguments : Arguments) :
    let o := m.enter address arguments
    o.2.2.states.length = m.states.length ∧
      o.2.2.Holds (log ++ [.entered address arguments m o.1 o.2.1 o.2.2]) := by
  intro o
  have hextends : ∀ handle, m.Extends handle {} o.2.2 := fun _ => enter_extends address arguments
  exact ⟨(hextends 0).states, h.snoc (hextends 0).forced fun handle => (hextends handle).gained⟩

theorem Holds.create (h : m.Holds log) :
    m.create = (true, { m with states := m.states ++ [{}] }) ∧
      Machine.Holds { m with states := m.states ++ [{}] } log := by
  have hstate : ∀ handle, (m.state handle).Gains {}
      (Machine.state { m with states := m.states ++ [{}] } handle) := by
    intro handle
    unfold state
    rw [getElem?_append_singleton]
    split
    · next hnew =>
      rw [hnew, List.getElem?_eq_none (Nat.le_refl _)]
      exact .kept rfl rfl rfl
    · exact .refl _
  constructor
  · simp [Machine.create, forcedStatus?, h.unforced]
  · constructor
    · exact h.unforced
    · intro handle
      rw [(hstate handle).defined, h.defined, List.append_nil]
    · intro handle
      rw [(hstate handle).imports, h.imports, List.append_nil]
    · intro handle
      rw [(hstate handle).injected, h.injected, List.append_nil]

/-- Relocation looks each import up. -/
theorem Holds.links (h : m.Holds log) (handle : Handle) (request : Request) :
    let o := m.call handle request
    Links log (.called handle request m o.1 o.2.1 o.2.2) := by
  intro o other left hplaced name hname
  obtain ⟨target, _, _, _, htarget, hstatus, he⟩ := Exchange.placed?_eq_some_iff.1 hplaced
  cases he
  have hcall : o = m.relocate handle target := call_unforced h.unforced _ _
  rw [hcall] at hstatus ⊢
  rw [← h.imports] at hname
  rw [slot_relocate htarget hstatus hname, h.lookup]

end Machine

/-- A watched world whose machine holds what has come to it, with all calls seen. -/
structure Linked (events : List Event) (w : World (Machine × List (Exchange Machine))) : Prop where
  states : w.outside.1.states.length = w.channels.length
  holds : w.outside.1.Holds w.outside.2
  seen : ∀ handle, calls handle w.outside.2 = (deeds handle events).filterMap Deed.call?
  links : Heeds Links w.outside.2

namespace Linked

variable {events more : List Event} {w w' : World (Machine × List (Exchange Machine))}

theorem quiet (h : Linked events w)
    (hm : ∀ handle, (deeds handle more).filterMap Deed.call? = [])
    (ho : w'.outside = w.outside) (hc : w'.channels.length = w.channels.length) :
    Linked (events ++ more) w' := by
  constructor
  · rw [ho, hc]
    exact h.states
  · rw [ho]
    exact h.holds
  · intro handle
    rw [ho, deeds_append, List.filterMap_append, hm, List.append_nil]
    exact h.seen handle
  · rw [ho]
    exact h.links

theorem absorb (h : Linked events w) (sent : List Emission) :
    Linked (events ++ (w.absorb sent).2) (w.absorb sent).1 := by
  apply h.quiet
  · intro handle
    rw [deeds_of_quiet (World.absorb_quiet w sent)]
    rfl
  · exact World.absorb_outside w sent
  · exact World.absorb_channels w sent

theorem exchange (h : Linked events w) {e : Exchange Machine} {left : Machine}
    (hs : left.states.length = w.outside.1.states.length) (hh : left.Holds (w.outside.2 ++ [e]))
    (hseen : ∀ handle, calls handle [e] = (deeds handle more).filterMap Deed.call?)
    (hl : Links w.outside.2 e) :
    Linked (events ++ more) { w with outside := (left, w.outside.2 ++ [e]) } := by
  constructor
  · exact hs.trans h.states
  · exact hh
  · intro handle
    rw [deeds_append, List.filterMap_append, calls_append, h.seen, hseen]
  · exact heeds_append_singleton.2 ⟨h.links, hl⟩

private theorem calls_of_note {e : Event} (he : e.isNote) (handle : Handle) :
    (deeds handle [e]).filterMap Deed.call? = [] := by
  cases e with
  | called state? =>
    cases state? with
    | none => rfl
    | some => exact Bool.noConfusion he
  | entered state? | hookRan state? =>
    by_cases hs : state? = some handle <;> simp [deeds, Event.deed?, Deed.call?, hs]
  | created | messaged | delivered => exact Bool.noConfusion he
  | logged | printed => rfl

theorem passage : Passage compiler.watched Linked where
  note := by
    intro es w e he h
    exact h.quiet (calls_of_note he) rfl rfl
  call := by
    intro es w handle request h hlt
    obtain ⟨hs, hh⟩ := h.holds.called (h.states ▸ hlt) request
    have hcalled : Linked (es ++ [.called (some handle) request
        (compiler.watched.call handle request w.outside).1])
        { w with outside := (compiler.watched.call handle request w.outside).2.2 } := by
      apply h.exchange hs hh _ (h.holds.links handle request)
      intro other
      by_cases ho : handle = other
      · simp [calls, Exchange.call?, deeds, Event.deed?, Deed.call?, ho]
        rfl
      · simp [calls, Exchange.call?, deeds, Event.deed?, ho]
    have := hcalled.absorb (compiler.watched.call handle request w.outside).2.1
    rwa [List.append_assoc] at this
  enter := by
    intro es w state? address arguments h
    obtain ⟨hs, hh⟩ := h.holds.entered address arguments
    have hentered : Linked (es ++ [.entered state? address arguments])
        { w with outside := (compiler.watched.enter address arguments w.outside).2.2 } := by
      apply h.exchange hs hh
      · intro handle
        rw [calls_of_note rfl]
        rfl
      · intro _ _ hplaced
        cases hplaced
    have := hentered.absorb (compiler.watched.enter address arguments w.outside).2.1
    rwa [List.append_assoc] at this
  create := by
    intro es w h
    obtain ⟨hcreate, hh⟩ := h.holds.create
    have hworld : World.create compiler.watched w =
        (some w.channels.length,
          { outside := ({ w.outside.1 with states := w.outside.1.states ++ [{}] }, w.outside.2)
            channels := w.channels ++ [{}] }, [.created (some w.channels.length)]) := by
      have hwatched : compiler.create w.outside.1 = w.outside.1.create := rfl
      simp only [World.create, Compiler.watched, hwatched, hcreate]
    rw [hworld]
    constructor
    · simp [h.states]
    · exact hh
    · intro handle
      have hcreated : (deeds handle [.created (some w.channels.length)]).filterMap Deed.call? =
          [] := by
        by_cases hs : w.channels.length = handle <;> simp [deeds, Event.deed?, Deed.call?, hs]
      rw [deeds_append, List.filterMap_append, hcreated, List.append_nil]
      exact h.seen handle
    · exact h.links

theorem setSink (h : Linked events w) (handle : Handle) (sink? : Option Sink) :
    Linked events (w.setSink handle sink?) := by
  have hquiet : Linked (events ++ []) (w.setSink handle sink?) :=
    h.quiet (fun _ => rfl) rfl (by simp [World.setSink])
  rwa [List.append_nil] at hquiet

end Linked

private theorem accepted_calls (handle : Handle) (log : List (Exchange Machine)) :
    accepted (calls handle log) = log.flatMap fun e => (e.gain handle).injected := by
  induction log with
  | nil => rfl
  | cons e rest ih =>
    have hsplit : calls handle (e :: rest) = calls handle [e] ++ calls handle rest :=
      calls_append handle [e] rest
    rw [hsplit, accepted_append, ih, ← Machine.gain_injected_exchange, List.flatMap_cons]

private theorem resolved_append {handle : Handle} {before rest : List (Exchange Machine)}
    (hr : ∀ e ∈ rest, e.gain handle = {}) :
    imported handle (before ++ rest) = imported handle before ∧
      resolved handle (before ++ rest) = resolved handle before := by
  have hnone : ∀ {α : Type} (f : Gain → List α), f {} = [] →
      (rest.flatMap fun e => f (e.gain handle)) = [] := by
    intro α f hf
    apply List.flatMap_eq_nil_iff.2
    intro e he
    rw [hr e he, hf]
  constructor
  · rw [imported, List.flatMap_append, hnone Gain.imports rfl, List.append_nil]
    rfl
  · funext name
    unfold resolved exported
    rw [accepted_calls, accepted_calls, List.flatMap_append, List.flatMap_append,
      hnone Gain.injected rfl, hnone Gain.defined rfl, List.append_nil, List.append_nil]

private theorem Linked.deeds_split {events : List Event}
    {w : World (Machine × List (Exchange Machine))} (h : Linked events w) {handle : Handle}
    {before after : List (Exchange Machine)} {e : Exchange Machine}
    (hlog : w.outside.2 = before ++ e :: after) {request : Request} {answer : Answer}
    (he : e.call? handle = some (request, answer)) :
    ∃ ds ds', deeds handle events = ds ++ .called request answer :: ds' ∧
      calls handle after = ds'.filterMap Deed.call? := by
  have hcalls : (deeds handle events).filterMap Deed.call? =
      calls handle before ++ (request, answer) :: calls handle after := by
    rw [← h.seen, hlog, calls_append]
    simp [calls, he]
  obtain ⟨ds, rest, hds, _, hrest⟩ := List.filterMap_eq_append_iff.1 hcalls
  obtain ⟨skipped, d, ds', rfl, _, hd, hafter⟩ := List.filterMap_eq_cons_iff.1 hrest
  refine ⟨ds ++ skipped, ds', ?_, hafter.symm⟩
  rw [hds, Deed.call?_eq_some_iff.1 hd, List.append_assoc]

private theorem Linked.settled {events : List Event}
    {w : World (Machine × List (Exchange Machine))} (h : Linked events w) {handle : Handle}
    (ho : Heeds InOrder (deeds handle events)) {before after : List (Exchange Machine)}
    {e : Exchange Machine} (hlog : w.outside.2 = before ++ e :: after) {left : Machine}
    (hp : e.placed? handle = some left) : ∀ e' ∈ e :: after, e'.gain handle = {} := by
  obtain ⟨target, found, answer, sent, htarget, hstatus, rfl⟩ := Exchange.placed?_eq_some_iff.1 hp
  obtain ⟨ds, ds', hds, hafter⟩ := h.deeds_split hlog (if_pos rfl)
  have hplaced : (Deed.called (.relocate target) answer).relocates := by
    simp [Deed.relocates, htarget, hstatus]
  intro e he
  rcases List.mem_cons.1 he with rfl | he
  · simp [Exchange.gain, Machine.gain]
  · cases e with
    | entered => rfl
    | called state request found' answer' sent' left' =>
      by_cases hs : state = handle
      · have hcall : (request, answer') ∈ calls handle after :=
          List.mem_filterMap.2 ⟨_, he, if_pos hs⟩
        rw [hafter] at hcall
        obtain ⟨d, hd, hrequest⟩ := List.mem_filterMap.1 hcall
        cases Deed.call?_eq_some_iff.1 hrequest
        obtain ⟨past, later, rfl⟩ := List.append_of_mem hd
        have horder := ho (ds ++ .called (.relocate target) answer :: past)
          (.called request answer') later (by simp [hds])
        have hlate := horder.placed (by simp [hplaced]) rfl
        cases request with
        | getSymbol | delete => simp [Exchange.gain, Machine.gain]
        | _ => simp [Deed.isLookUp, Deed.isDelete] at hlate
      · simp [Exchange.gain, hs]

/-- In the end each import is bound to what its name stands for. -/
theorem Linked.bound {events : List Event} {w : World (Machine × List (Exchange Machine))}
    (h : Linked events w) {handle : Handle} (ho : Heeds InOrder (deeds handle events))
    {left : Machine} (hleft : left ∈ w.outside.2.filterMap (Exchange.placed? handle)) :
    ∀ name ∈ imported handle w.outside.2, left.slot name = resolved handle w.outside.2 name := by
  obtain ⟨e, he, hp⟩ := List.mem_filterMap.1 hleft
  obtain ⟨before, after, hlog⟩ := List.append_of_mem he
  obtain ⟨himported, hresolved⟩ := resolved_append (h.settled ho hlog hp)
  have hlinks := h.links before e after hlog handle left hp
  rw [hlog, himported, hresolved]
  exact hlinks

/-- An exchange that placed code stands for a relocation among the deeds. -/
theorem Linked.relocates {events : List Event} {w : World (Machine × List (Exchange Machine))}
    (h : Linked events w) {handle : Handle} {left : Machine}
    (hleft : left ∈ w.outside.2.filterMap (Exchange.placed? handle)) :
    (deeds handle events).any Deed.relocates := by
  obtain ⟨e, he, hp⟩ := List.mem_filterMap.1 hleft
  obtain ⟨target, found, answer, sent, htarget, hstatus, rfl⟩ := Exchange.placed?_eq_some_iff.1 hp
  have hcall : (.relocate target, answer) ∈ calls handle w.outside.2 :=
    List.mem_filterMap.2 ⟨_, he, if_pos rfl⟩
  rw [h.seen] at hcall
  obtain ⟨d, hd, hrequest⟩ := List.mem_filterMap.1 hcall
  cases Deed.call?_eq_some_iff.1 hrequest
  exact List.any_eq_true.2 ⟨_, hd, decide_eq_true ⟨htarget, hstatus⟩⟩

end Scripted

end EmbeddedC
