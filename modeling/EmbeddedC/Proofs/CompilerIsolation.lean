import EmbeddedC.Proofs.Diagnostics
import EmbeddedC.Proofs.Errand
/-!
# Compilers that keep states apart

An other side that keeps states apart: how it answers a request, and what it remarks about it,
depends on the requests made on the same state before, and on nothing else. Then all that is seen of
a state can be told from the requests made on it.
-/

namespace EmbeddedC

/-- How the other side treats a state, given the requests made on it before. -/
structure Manner where
  answer : List Request → Request → Answer
  /-- The messages sent to the state before a request is answered. -/
  remarks : List Request → Request → List CText
  /-- What code returns that is looked up by its name and entered at once. -/
  returns : List Request → CText → Arguments → Int32

/-- The requests made on one state among those made on all. -/
def requestsOn (handle : Handle) (log : List (Handle × Request)) : List Request :=
  log.filterMap fun entry => if entry.1 = handle then some entry.2 else none

@[simp] theorem requestsOn_singleton (handle state : Handle) (request : Request) :
    requestsOn handle [(state, request)] = if state = handle then [request] else [] := by
  by_cases h : state = handle <;> simp [requestsOn, h]

namespace Compiler

variable {σ : Type} (compiler : Compiler σ) (start : σ)

/-- What the other side can have come to: states have been created, requests made on them, and code
entered. -/
inductive After : Nat → List (Handle × Request) → σ → Prop
  | start : After 0 [] start
  | created {n : Nat} {log : List (Handle × Request)} {found left : σ} (h : After n log found)
    (hc : compiler.create found = (true, left)) : After (n + 1) log left
  | exhausted {n : Nat} {log : List (Handle × Request)} {found left : σ} (h : After n log found)
    (hc : compiler.create found = (false, left)) : After n log left
  | called {n : Nat} {log : List (Handle × Request)} {found : σ} (h : After n log found)
    {handle : Handle} (hlt : handle < n) (request : Request) :
    After n (log ++ [(handle, request)]) (compiler.call handle request found).2.2
  | entered {n : Nat} {log : List (Handle × Request)} {found : σ} (h : After n log found)
    (address : Address) (arguments : Arguments) :
    After n log (compiler.enter address arguments found).2.2

/-- Whatever it has come to, the other side treats each state in the same manner. Code that is
entered sends nothing; code that has just been looked up returns by the state it was found in. -/
structure KeepsApart (manner : Manner) : Prop where
  answers : ∀ {n log found handle} (request : Request), compiler.After start n log found →
    handle < n →
      (compiler.call handle request found).1 = manner.answer (requestsOn handle log) request
  remarks : ∀ {n log found handle} (request : Request), compiler.After start n log found →
    handle < n → sentTo handle (compiler.call handle request found).2.1 =
      manner.remarks (requestsOn handle log) request
  spares : ∀ {n log found handle other} (request : Request), compiler.After start n log found →
    handle < n → other < n → other ≠ handle →
      sentTo other (compiler.call handle request found).2.1 = []
  returns : ∀ {n log found handle} (name : CText) (arguments : Arguments) {address : Address},
    compiler.After start n log found → handle < n →
      let o := compiler.call handle (.getSymbol name) found
      o.1.address.nonNull? = some address →
        (compiler.enter address arguments o.2.2).1 =
          manner.returns (requestsOn handle log) name arguments
  keepsStill : ∀ {n log found other} (address : Address) (arguments : Arguments),
    compiler.After start n log found → other < n →
      sentTo other (compiler.enter address arguments found).2.1 = []

end Compiler

namespace Manner

variable (manner : Manner)

/-- All that is said about requests made after others. -/
def tells (past : List Request) : List Request → List CText
  | [] => []
  | request :: rest => manner.remarks past request ++ tells (past ++ [request]) rest

theorem tells_append (past requests more : List Request) :
    manner.tells past (requests ++ more) =
      manner.tells past requests ++ manner.tells (past ++ requests) more := by
  induction requests generalizing past with
  | nil => simp [tells]
  | cons request rest ih => simp [tells, ih]

/-- The deeds on a state have been answered as the manner has it, after requests made before. -/
def Answers (past : List Request) : List Deed → Prop
  | [] => True
  | .called request answer :: rest =>
    answer = manner.answer past request ∧ Answers (past ++ [request]) rest
  | .created :: rest | .hookRan _ :: rest | .entered _ _ :: rest => Answers past rest

theorem answers_append {past : List Request} {ds ds' : List Deed} :
    manner.Answers past (ds ++ ds') ↔
      manner.Answers past ds ∧ manner.Answers (past ++ ds.filterMap Deed.request?) ds' := by
  induction ds generalizing past with
  | nil => simp [Answers]
  | cons d rest ih => cases d <;> simp [Answers, ih, List.filterMap_cons, Deed.request?, and_assoc]

/-- Where nothing has been asked, nothing has been answered. -/
theorem answers_of_unasked (past : List Request) {ds : List Deed}
    (h : ds.filterMap Deed.request? = []) : manner.Answers past ds := by
  induction ds with
  | nil => trivial
  | cons d rest ih => cases d <;> simp_all [Answers, List.filterMap_cons, Deed.request?]

end Manner

/-- The requests made on a state. -/
def requests (handle : Handle) (events : List Event) : List Request :=
  (deeds handle events).filterMap Deed.request?

@[simp] theorem requests_append (handle : Handle) (events more : List Event) :
    requests handle (events ++ more) = requests handle events ++ requests handle more := by
  simp [requests]

namespace Event

/-- The request that is made by an event, and the state it is made on. -/
def asked? : Event → Option (Handle × Request)
  | called (some handle) request _ => some (handle, request)
  | _ => none

theorem asked?_of_isNote {e : Event} (he : e.isNote) : e.asked? = none := by
  cases e with
  | called state? => cases state? <;> first | rfl | exact Bool.noConfusion he
  | _ => rfl

theorem asked?_of_isQuiet {e : Event} (he : e.isQuiet) : e.asked? = none := by
  cases e with
  | called => exact Bool.noConfusion he
  | _ => rfl

end Event

/-- All requests, with the states they are made on. -/
def asked (events : List Event) : List (Handle × Request) :=
  events.filterMap Event.asked?

@[simp] theorem asked_append (events more : List Event) :
    asked (events ++ more) = asked events ++ asked more :=
  List.filterMap_append

theorem asked_of_quiet {events : List Event} (h : ∀ e ∈ events, e.isQuiet) : asked events = [] :=
  List.filterMap_eq_nil_iff.2 fun e he => Event.asked?_of_isQuiet (h e he)

private theorem Event.asked?_bind (handle : Handle) (e : Event) :
    (e.asked?.bind fun entry => if entry.1 = handle then some entry.2 else none) =
      (e.deed? handle).bind Deed.request? := by
  cases e with
  | called state? request answer =>
    cases state? with
    | none => rfl
    | some state => by_cases hs : state = handle <;> simp [asked?, deed?, Deed.request?, hs]
  | created state? | hookRan state? | entered state? =>
    by_cases hs : state? = some handle <;> simp [asked?, deed?, Deed.request?, hs]
  | messaged | delivered | logged | printed => rfl

theorem requestsOn_asked (handle : Handle) (events : List Event) :
    requestsOn handle (asked events) = requests handle events := by
  unfold requestsOn asked requests deeds
  rw [List.filterMap_filterMap, List.filterMap_filterMap]
  congr 1
  exact funext (Event.asked?_bind handle)

variable {σ : Type}

/-- So far the other side has treated each state in its manner. -/
structure Manner.Shown (manner : Manner) (compiler : Compiler σ) (start : σ) (events : List Event)
    (w : World σ) : Prop where
  after : compiler.After start w.channels.length (asked events) w.outside
  answers : ∀ handle, manner.Answers [] (deeds handle events)
  told : ∀ handle, messages handle events = manner.tells [] (requests handle events)
  unborn : ∀ handle, w.channels.length ≤ handle → requests handle events = []

/-- Nothing is sent to a state that does not exist. -/
theorem World.messages_absorb_unborn {w : World σ} {handle : Handle}
    (hle : w.channels.length ≤ handle) (sent : List Emission) :
    messages handle (w.absorb sent).2 = [] := by
  induction sent generalizing w with
  | nil => rfl
  | cons emission rest ih =>
    cases emission with
    | message state text =>
      have hle' : (w.message state text).1.channels.length ≤ handle := by
        rwa [message_channels]
      have hevents : (w.absorb (.message state text :: rest)).2 =
          (w.message state text).2 ++ ((w.message state text).1.absorb rest).2 := rfl
      have hout : ¬(state = handle ∧ state < w.channels.length) := by
        rintro ⟨rfl, hlt⟩
        exact Nat.not_lt.2 hle hlt
      rw [hevents, messages_append, ih hle', messages_message, if_neg hout]
      rfl
    | entered address arguments =>
      have hevents : messages handle (w.absorb (.entered address arguments :: rest)).2 =
          messages handle (w.absorb rest).2 := rfl
      rw [hevents, ih hle]

namespace Manner.Shown

variable {manner : Manner} {compiler : Compiler σ} {start : σ} {events more : List Event}
  {w w' : World σ}

theorem first (manner : Manner) (compiler : Compiler σ) (outside : σ) :
    manner.Shown compiler outside [] { outside } where
  after := .start
  answers _ := trivial
  told _ := rfl
  unborn _ _ := rfl

/-- What is seen after a while is as the manner has it after the requests made before. -/
theorem since (h : manner.Shown compiler start events w)
    (h' : manner.Shown compiler start (events ++ more) w') (handle : Handle) :
    manner.Answers (requests handle events) (deeds handle more) ∧
      messages handle more = manner.tells (requests handle events) (requests handle more) := by
  constructor
  · have hall := h'.answers handle
    rw [deeds_append, answers_append] at hall
    exact hall.2
  · have hall := h'.told handle
    rw [messages_append, requests_append, tells_append, h.told handle] at hall
    exact List.append_cancel_left hall

private theorem add (h : manner.Shown compiler start events w) {e : Event} {said : List Event}
    (hsaid : ∀ e ∈ said, e.isQuiet)
    (hafter : compiler.After start w'.channels.length (asked (events ++ [e])) w'.outside)
    (hanswers : ∀ handle, manner.Answers (requests handle events) (deeds handle [e]))
    (htold : ∀ handle, messages handle (e :: said) =
      manner.tells (requests handle events) (requests handle [e]))
    (hunborn : ∀ handle, w'.channels.length ≤ handle → requests handle (events ++ [e]) = []) :
    manner.Shown compiler start (events ++ e :: said) w' := by
  have hrequests : ∀ handle, requests handle said = [] := fun handle => by
    rw [requests, deeds_of_quiet hsaid, List.filterMap_nil]
  constructor
  · rw [List.append_cons, asked_append, asked_of_quiet hsaid, List.append_nil]
    exact hafter
  · intro handle
    rw [List.append_cons, deeds_append, deeds_of_quiet hsaid, List.append_nil, deeds_append,
      answers_append]
    exact ⟨h.answers handle, hanswers handle⟩
  · intro handle
    rw [messages_append, h.told, htold, List.append_cons, requests_append, hrequests,
      List.append_nil, requests_append, tells_append, List.nil_append]
  · intro handle hle
    rw [List.append_cons, requests_append, hrequests, List.append_nil]
    exact hunborn handle hle

private theorem requests_called (handle state : Handle) (request : Request) (answer : Answer) :
    requests handle [.called (some state) request answer] =
      if state = handle then [request] else [] := by
  rw [← requestsOn_asked]
  exact requestsOn_singleton handle state request

private theorem add_unasked (h : manner.Shown compiler start events w) {e : Event}
    {said : List Event} (he : e.asked? = none) (hsaid : ∀ e ∈ said, e.isQuiet)
    (hafter : compiler.After start w'.channels.length (asked events) w'.outside)
    (hle : w.channels.length ≤ w'.channels.length)
    (htold : ∀ handle, messages handle (e :: said) = []) :
    manner.Shown compiler start (events ++ e :: said) w' := by
  have hasked : asked [e] = [] := by simp [asked, he]
  have hrequests : ∀ handle, requests handle [e] = [] := by
    intro handle
    rw [← requestsOn_asked, hasked]
    rfl
  apply h.add hsaid
  · rwa [asked_append, hasked, List.append_nil]
  · exact fun handle => manner.answers_of_unasked _ (hrequests handle)
  · intro handle
    rw [htold, hrequests]
    rfl
  · intro handle hn
    rw [requests_append, hrequests, List.append_nil]
    exact h.unborn handle (Nat.le_trans hle hn)

variable (hk : compiler.KeepsApart start manner)
include hk

private theorem call (h : manner.Shown compiler start events w) {handle : Handle}
    (request : Request) (hlt : handle < w.channels.length) :
    let o := World.call compiler handle request w
    manner.Shown compiler start (events ++ o.2.2) o.2.1 := by
  have hafter := h.after.called hlt request
  have hanswer := hk.answers request h.after hlt
  have hremarks := hk.remarks request h.after hlt
  have hspares : ∀ other, other < w.channels.length → other ≠ handle →
      sentTo other (compiler.call handle request w.outside).2.1 = [] :=
    fun other ho hne => hk.spares request h.after hlt ho hne
  rw [requestsOn_asked] at hanswer hremarks
  rcases hc : compiler.call handle request w.outside with ⟨answer, sent, left⟩
  rw [hc] at hafter hanswer hremarks hspares
  simp only [World.call, hc]
  apply h.add (World.absorb_quiet _ _)
  · rw [World.absorb_channels, World.absorb_outside, asked_append]
    exact hafter
  · intro other
    by_cases ho : handle = other
    · subst ho
      simpa [deeds, Event.deed?, Answers] using hanswer
    · simp [deeds, Event.deed?, ho, Answers]
  · intro other
    rw [messages_cons_silent _ rfl, requests_called]
    rcases Nat.lt_or_ge other w.channels.length with hother | hother
    · rw [World.messages_absorb (by exact hother)]
      by_cases ho : handle = other
      · subst ho
        rw [if_pos rfl, hremarks]
        simp [tells]
      · rw [if_neg ho, hspares other hother (Ne.symm ho)]
        rfl
    · have ho : handle ≠ other := Nat.ne_of_lt (Nat.lt_of_lt_of_le hlt hother)
      rw [World.messages_absorb_unborn (by exact hother), if_neg ho]
      rfl
  · intro other hle
    rw [World.absorb_channels] at hle
    have ho : handle ≠ other := Nat.ne_of_lt (Nat.lt_of_lt_of_le hlt hle)
    rw [requests_append, h.unborn other hle, requests_called, if_neg ho]
    rfl

private theorem enter (h : manner.Shown compiler start events w) (state? : Option Handle)
    (address : Address) (arguments : Arguments) :
    let o := World.enter compiler state? address arguments w
    manner.Shown compiler start (events ++ o.2.2) o.2.1 := by
  have hafter := h.after.entered address arguments
  have hstill : ∀ other, other < w.channels.length →
      sentTo other (compiler.enter address arguments w.outside).2.1 = [] :=
    fun other ho => hk.keepsStill address arguments h.after ho
  rcases hc : compiler.enter address arguments w.outside with ⟨status, sent, left⟩
  rw [hc] at hafter hstill
  simp only [World.enter, hc]
  apply h.add_unasked rfl (World.absorb_quiet _ _)
  · rw [World.absorb_channels, World.absorb_outside]
    exact hafter
  · exact Nat.le_of_eq (World.absorb_channels { w with outside := left } sent).symm
  · intro other
    rw [messages_cons_silent _ rfl]
    rcases Nat.lt_or_ge other w.channels.length with hother | hother
    · rw [World.messages_absorb (by exact hother)]
      exact hstill other hother
    · exact World.messages_absorb_unborn (by exact hother) sent

omit hk in
private theorem create (h : manner.Shown compiler start events w) :
    let o := World.create compiler w
    manner.Shown compiler start (events ++ o.2.2) o.2.1 := by
  have hsilent : ∀ state? handle, messages handle [.created state?] = [] := fun _ _ => rfl
  rcases hc : compiler.create w.outside with ⟨_ | _, left⟩
  · simp only [World.create, hc]
    exact h.add_unasked rfl (by simp) (h.after.exhausted hc) (Nat.le_refl _) (hsilent none)
  · simp only [World.create, hc]
    refine h.add_unasked rfl (by simp) ?_ (by simp) (hsilent _)
    simpa using h.after.created hc

theorem passage : Passage compiler (manner.Shown compiler start) where
  note := fun he h => h.add_unasked (Event.asked?_of_isNote he) (by simp) h.after (Nat.le_refl _)
    fun handle => messages_of_silent (Event.message?_of_isNote he handle)
  call := fun request h hlt => h.call hk request hlt
  enter := fun state? address arguments h => h.enter hk state? address arguments
  create := fun h => h.create

omit hk in
theorem setSink (h : manner.Shown compiler start events w) (handle : Handle)
    (sink? : Option Sink) : manner.Shown compiler start events (w.setSink handle sink?) := by
  have hlength : (w.setSink handle sink?).channels.length = w.channels.length := by
    simp [World.setSink]
  exact ⟨hlength.symm ▸ h.after, h.answers, h.told, fun other hle => h.unborn other (hlength ▸ hle)⟩

end Manner.Shown

/-- The compiler that does nothing but keep to a manner. -/
def Manner.compiler (manner : Manner) : Compiler (List (Handle × Request)) where
  files _ := {}
  create log := (true, log)
  call handle request log :=
    (manner.answer (requestsOn handle log) request,
      (manner.remarks (requestsOn handle log) request).map (.message handle),
      log ++ [(handle, request)])
  enter _ arguments log := match log.getLast? with
    | some (handle, .getSymbol name) =>
      (manner.returns (requestsOn handle log.dropLast) name arguments, [], log)
    | _ => (0, [], log)

private theorem sentTo_messages (handle other : Handle) (texts : List CText) :
    sentTo other (texts.map (.message handle)) = if handle = other then texts else [] := by
  split
  · next h =>
    induction texts with
    | nil => rfl
    | cons text rest ih =>
      calc sentTo other (.message handle text :: rest.map (.message handle))
        _ = text :: sentTo other (rest.map (.message handle)) :=
          List.filterMap_cons_some (if_pos h)
        _ = text :: rest := congrArg (text :: ·) ih
  · next h => simp [sentTo, List.filterMap_map, h]

theorem Manner.compiler_keepsApart (manner : Manner) : manner.compiler.KeepsApart [] manner := by
  have hlog : ∀ {n log found}, manner.compiler.After [] n log found → found = log := by
    intro n log found h
    induction h with
    | start => rfl
    | exhausted _ hc => exact nomatch hc
    | created _ hc ih =>
      cases hc
      exact ih
    | called _ _ _ ih => simp [compiler, ih]
    | entered _ _ _ ih =>
      simp only [compiler]
      split <;> exact ih
  constructor
  · intro n log found handle request h _
    rw [hlog h]
    rfl
  · intro n log found handle request h _
    rw [hlog h]
    exact (sentTo_messages handle handle _).trans (if_pos rfl)
  · intro n log found handle other request h _ _ hne
    exact (sentTo_messages handle other _).trans (if_neg (Ne.symm hne))
  · intro n log found handle name arguments address h _ o _
    simp [o, compiler, hlog h]
  · intro n log found other address arguments h _
    simp only [compiler]
    split <;> rfl

end EmbeddedC
