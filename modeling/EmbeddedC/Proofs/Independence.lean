import EmbeddedC.Proofs.CanonicalCalls
import EmbeddedC.Proofs.StateRenumbering
/-!
# Independence

Contexts that share a toolchain know nothing of each other. Where the other side keeps states apart,
each of them goes the way it would go alone, whatever is done with the others meanwhile: whether
they are opened, fail, are disposed of or dropped.
-/

namespace EmbeddedC

variable {σ : Type} {manner : Manner} {compiler : Compiler σ} {start : σ}

/-- What a program has returned that was found and run is as the manner has it. -/
def Manner.Returned (manner : Manner) (past : List Request) (ds : List Deed)
    (r : Except BindError Value) : Prop :=
  ∀ status, r = .ok (.status status) → ∃ before answer main arguments,
    ds = before ++
        [.called (.getSymbol ContextAction.mainName) answer, .entered main arguments] ∧
      status = manner.returns (past ++ before.filterMap Deed.request?) ContextAction.mainName
        arguments

section Returned

variable {past : List Request} {ds ds' : List Deed} {r r' : Except BindError Value}

theorem Manner.Returned.append (h : manner.Returned (past ++ ds.filterMap Deed.request?) ds' r) :
    manner.Returned past (ds ++ ds') r := by
  intro status hr
  obtain ⟨before, answer, main, arguments, rfl, hstatus⟩ := h status hr
  refine ⟨ds ++ before, answer, main, arguments, by simp, ?_⟩
  rw [hstatus, List.filterMap_append, List.append_assoc]

theorem Manner.returned_error {e : BindError} : manner.Returned past ds (.error e) := by
  intro status hr
  exact nomatch hr

/-- So nothing is left that the deeds do not decide. -/
theorem Manner.Returned.eq (h : manner.Returned past ds r) (h' : manner.Returned past ds r')
    (hr : r'.map Value.blank = r.map Value.blank) : r' = r := by
  cases r with
  | error e =>
    cases r' with
    | error e' =>
      cases hr
      rfl
    | ok value' => exact nomatch hr
  | ok value =>
    cases r' with
    | error e' => exact nomatch hr
    | ok value' =>
      have hblank : value'.blank = value.blank := Except.ok.inj hr
      cases value <;> cases value' <;> simp only [Value.blank, reduceCtorEq] at hblank
      case status.status status status' =>
        obtain ⟨before, _, _, _, rfl, rfl⟩ := h _ rfl
        obtain ⟨before', _, _, _, hds, rfl⟩ := h' _ rfl
        obtain ⟨rfl, hlast⟩ := List.append_inj' hds rfl
        cases hlast
        rfl
      all_goals simp_all

end Returned

/-- Only a program that was found and run gives a status. -/
theorem Operation.Does.of_status {c c' : Context} {operation : Operation} {ds : List Deed}
    {status : Int32} (hd : operation.Does c ds (.ok (.status status)) c') :
    ∃ arguments argv answer main, operation = .run arguments ∧
      answer.address.nonNull? = some main ∧
      ds = [.called (.getSymbol ContextAction.mainName) answer, .entered main (.program argv)] := by
  cases hd with
  | performed hc hd =>
    have hkind := ((operation.checks c).of_ok _ hc).1
    cases hd with
    | @ran argv answer main hm =>
      cases operation with
      | run arguments => exact ⟨arguments, argv, answer, main, rfl, hm, rfl⟩
      | _ => exact nomatch hkind

section Programs

variable {c : Context} {w : World σ} {events : List Event}
  (hk : compiler.KeepsApart start manner)
include hk

theorem Operation.returned (h : manner.Shown compiler start events w) (hc : c.Coherent)
    (hlt : c.number < w.channels.length) (operation : Operation) :
    let o := operation.perform compiler ⟨c, w⟩
    manner.Returned (requests c.number events) (deeds c.number o.events) o.result := by
  intro o status hr
  have hd : operation.Does c (deeds c.number o.events) o.result o.state.context :=
    (operation.yields_perform compiler hc w).post
  rw [hr] at hd
  obtain ⟨arguments, argv, answer, main, rfl, hm, hds⟩ := hd.of_status
  obtain ⟨main', argv', hcalled, hentered, hvalue, _⟩ := Operation.run_returns compiler hc hr
  rw [show deeds c.number _ = _ from hds] at hcalled hentered
  simp only [List.mem_cons, Deed.called.injEq, Deed.entered.injEq, reduceCtorEq,
    List.not_mem_nil, or_false, false_or, true_and, Arguments.program.injEq] at hcalled hentered
  obtain ⟨rfl, rfl⟩ := hentered
  cases hvalue
  refine ⟨[], answer, main', .program argv', hds, ?_⟩
  have hreturns := hk.returns ContextAction.mainName (.program argv') h.after hlt
    (hcalled.symm ▸ hm)
  rw [requestsOn_asked] at hreturns
  rw [hreturns, List.filterMap_nil, List.append_nil]

/-- The result of a row is the last one's, and the last one finds all requests made before. -/
theorem Operation.returned_performAll (h : manner.Shown compiler start events w)
    (hc : c.Coherent) (hlt : c.number < w.channels.length) {operations : List Operation}
    (hs : ∀ operation ∈ operations, operation.sink? = none) :
    let o := performAll compiler operations ⟨c, w⟩
    manner.Returned (requests c.number events) (deeds c.number o.events) o.result := by
  induction operations generalizing c w events with
  | nil =>
    intro o status hr
    exact nomatch hr
  | cons operation rest ih =>
    have hfirst := operation.returned hk h hc hlt
    cases rest with
    | nil => exact hfirst
    | cons next rest =>
      have hc' : c.Within w := fun handle hh => (hc.of_handle hh).1 ▸ hlt
      have hshown := (Manner.Shown.passage hk).perform hc' (hs operation (.head _)) h
      obtain ⟨hd, _, hchannels⟩ := operation.yields_perform compiler hc w
      simp only [performAll, Bind.bind, Action.bind]
      rcases ho : operation.perform compiler ⟨c, w⟩ with ⟨r, ⟨d, w'⟩, more⟩
      rw [ho] at hfirst hshown hd hchannels
      cases r with
      | error e => exact manner.returned_error
      | ok value =>
        have hrest := ih hshown (hd.reaches.coherent hc)
          (by rw [hd.reaches.number, hchannels]; exact hlt) fun o ho => hs o (.tail _ ho)
        rw [hd.reaches.number, requests_append] at hrest
        rw [deeds_append]
        exact hrest.append

theorem Job.returned (h : manner.Shown compiler start events w) (hc : c.Coherent)
    (hlt : c.number < w.channels.length) (job : Job) :
    let o := job.perform compiler ⟨c, w⟩
    manner.Returned (requests c.number events) (deeds c.number o.events) o.result := by
  intro o
  rw [show o = _ from job.perform_eq compiler ⟨c, w⟩]
  cases job.check (w.files compiler) c with
  | error e => exact manner.returned_error
  | ok u => exact Operation.returned_performAll hk h hc hlt fun _ => Job.sink?_of_mem

end Programs

theorem Context.Coherent.renumbered {c : Context} (hc : c.Coherent) (handle : Handle) :
    (c.renumbered handle).Coherent := by
  unfold Context.Coherent at hc ⊢
  rw [show (c.renumbered handle).handle? = c.handle?.map fun _ => handle from rfl, hc]
  show _ = if c.stage = .disposed then none else some handle
  split <;> rfl

/-- The same work on a context and on one that is the same but for its state. -/
structure Outcome.Echoes (handle : Handle) (o o' : Outcome Event (Live σ) BindError Value) :
    Prop where
  result : o'.result = o.result
  done : deeds 0 o'.events = deeds handle o.events
  context : o'.state.context = o.state.context.renumbered 0

private theorem Outcome.Echoes.of_determined {handle : Handle} {past : List Request}
    {o o' : Outcome Event (Live σ) BindError Value}
    (h : deeds 0 o'.events = deeds handle o.events ∧
      o'.state.context = o.state.context.renumbered 0 ∧
        o'.result.map Value.blank = o.result.map Value.blank)
    (hr : manner.Returned past (deeds handle o.events) o.result)
    (hr' : manner.Returned past (deeds 0 o'.events) o'.result) : o.Echoes handle o' := by
  obtain ⟨hdeeds, hcontext, hblank⟩ := h
  rw [hdeeds] at hr'
  exact ⟨hr.eq hr' hblank, hdeeds, hcontext⟩

section Work

variable {c : Context} {w w' : World σ} {events events' : List Event}
  (hk : compiler.KeepsApart start manner)
  (h : manner.Shown compiler start events w) (h' : manner.Shown compiler start events' w')
  (hc : c.Coherent) (hlt : c.number < w.channels.length) (hlt' : 0 < w'.channels.length)
  (hrequests : requests 0 events' = requests c.number events)
include hk h h' hc hlt hlt' hrequests

theorem Operation.echoes (operation : Operation)
    (ha : manner.Answers (requests c.number events)
      (deeds c.number (operation.perform compiler ⟨c, w⟩).events))
    (ha' : manner.Answers (requests 0 events')
      (deeds 0 (operation.perform compiler ⟨c.renumbered 0, w'⟩).events)) :
    Outcome.Echoes c.number (operation.perform compiler ⟨c, w⟩)
      (operation.perform compiler ⟨c.renumbered 0, w'⟩) := by
  have hd := (operation.yields_perform compiler hc w).post
  have hd' := (operation.yields_perform compiler (hc.renumbered 0) w').post
  have hr' : manner.Returned (requests 0 events') _ _ :=
    operation.returned hk h' (hc.renumbered 0) hlt'
  rw [hrequests] at ha' hr'
  exact .of_determined ((hd.renumbered 0).determined hd' ha ha')
    (operation.returned hk h hc hlt) hr'

theorem Job.echoes (job : Job)
    (hf : ∀ path, job.source? = some path →
      (w'.files compiler).isFile path = (w.files compiler).isFile path)
    (ha : manner.Answers (requests c.number events)
      (deeds c.number (job.perform compiler ⟨c, w⟩).events))
    (ha' : manner.Answers (requests 0 events')
      (deeds 0 (job.perform compiler ⟨c.renumbered 0, w'⟩).events)) :
    Outcome.Echoes c.number (job.perform compiler ⟨c, w⟩)
      (job.perform compiler ⟨c.renumbered 0, w'⟩) := by
  have hd := (job.does_perform compiler hc w).post
  have hd' := (job.does_perform compiler (hc.renumbered 0) w').post
  have hr' : manner.Returned (requests 0 events') _ _ :=
    job.returned hk h' (hc.renumbered 0) hlt'
  rw [hrequests] at ha' hr'
  exact .of_determined ((hd.renumbered 0).determined hf hd' ha ha') (job.returned hk h hc hlt) hr'

end Work

/-- The same move on the context of another index. -/
def Move.at (index : Nat) : Move → Move
  | drop _ => .drop index
  | perform _ operation => .perform index operation
  | runJob _ job => .runJob index job
  | m => m

theorem Move.index?_at {m : Move} {i : Nat} (hm : m.index? = some i) (j : Nat) :
    (m.at j).index? = some j := by
  cases m <;> simp [index?, Move.at] at hm ⊢

theorem Move.ne_outside {m : Move} {i : Nat} (hm : m.index? = some i) (sent : List Emission) :
    m ≠ .outside sent := by
  rintro rfl
  exact nomatch hm

/-- The moves on the context of an index, as moves on the only context there is. -/
def Move.alone (i : Nat) (moves : List Move) : List Move :=
  (moves.filter fun m => m.index? = some i).map (Move.at 0)

/-- What a turn makes the caller of one context see: the reply, what is done with the context's
state, the messages sent to it, and what its sinks receive. -/
def Turn.view (handle : Handle) (t : Turn) :
    Except MoveError Reply × List Deed × List CText × List (String × String) :=
  (t.result, deeds handle t.events, messages handle t.events, receipts handle t.events)

namespace Session

@[simp] theorem move_toolchain (compiler : Compiler σ) (m : Move) (s : Session σ) :
    (move compiler m s).state.toolchain = s.toolchain := by
  cases m with
  | openContext bare =>
    simp only [move, openContext]
    split <;> rfl
  | drop i =>
    simp only [move, drop]
    split <;> rfl
  | perform i | runJob i =>
    simp only [move, on]
    split <;> rfl
  | enter | outside => rfl

@[simp] theorem play_toolchain (compiler : Compiler σ) (s : Session σ) (moves : List Move) :
    (s.play compiler moves).1.toolchain = s.toolchain := by
  induction moves generalizing s with
  | nil => rfl
  | cons m rest ih => simp [play, ih]

/-- A session in good order, with all events so far, on an other side that keeps states apart. -/
structure Runs (manner : Manner) (compiler : Compiler σ) (start : σ) (s : Session σ)
    (events : List Event) : Prop where
  obeys : s.Obeys Context.Tracks (fun _ => True) events
  shown : manner.Shown compiler start events s.world

section Runs

variable {s : Session σ} {events : List Event}

theorem Runs.first (manner : Manner) (compiler : Compiler σ) (toolchain : Toolchain)
    (outside : σ) : Runs manner compiler outside ⟨toolchain, { outside }, []⟩ [] :=
  ⟨.empty law_tracks toolchain _, .first manner compiler outside⟩

variable (hk : compiler.KeepsApart start manner)
include hk

theorem Runs.move (h : s.Runs manner compiler start events) {m : Move}
    (hm : ∀ sent, m ≠ .outside sent) :
    let o := Session.move compiler m s
    o.state.Runs manner compiler start (events ++ o.events) :=
  ⟨h.obeys.move compiler law_tracks m,
    (Manner.Shown.passage hk).move (fun _ _ hi => h.obeys.within hi)
      (fun _ _ _ _ _ _ handle sink? h => h.setSink handle sink?) hm h.shown⟩

theorem Runs.play (h : s.Runs manner compiler start events) {moves : List Move}
    (hm : ∀ m ∈ moves, ∀ sent, m ≠ .outside sent) :
    (s.play compiler moves).1.Runs manner compiler start (events ++ (s.play compiler moves).2) := by
  induction moves generalizing s events with
  | nil => simpa [Session.play] using h
  | cons m rest ih =>
    have := ih (h.move hk (hm m (.head _))) fun m' h' => hm m' (.tail _ h')
    rwa [List.append_assoc] at this

end Runs

/-- The state of a number is that of the context of an index, if of any. -/
structure Houses (s : Session σ) (i : Nat) (n : Handle) : Prop where
  number : ∀ c, s.context? i = some c → c.number = n
  alone : ∀ j c, s.context? j = some c → c.number = n → j = i
  born : n < s.world.channels.length
  index : i < s.contexts.length

section Houses

variable {s s' : Session σ} {m : Move} {events : List Event} {i : Nat} {n : Handle}

theorem Leads.channels (hm : s.Leads m events s') :
    s.world.channels.length ≤ s'.world.channels.length := by
  cases hm with
  | idle _ _ hw | worked _ _ _ _ _ hw | dropped _ _ _ _ hw => exact Nat.le_of_eq hw.symm
  | opened _ _ _ _ _ hw | abandoned _ _ _ _ _ _ hw => omega

theorem Houses.leads (h : s.Houses i n) (hm : s.Leads m events s') : s'.Houses i n := by
  constructor
  · intro c hc
    rcases hm.held hc with ⟨d, _, hd, hr⟩ | ⟨hi, _⟩
    · exact hr.number.trans (h.number d hd)
    · exact absurd h.index (by rw [hi]; exact Nat.lt_irrefl _)
  · intro j c hc hn
    rcases hm.held hc with ⟨d, _, hd, hr⟩ | ⟨_, hnew, _⟩
    · exact h.alone j d hd (hr.number.symm.trans hn)
    · exact absurd h.born (by rw [← hn, hnew]; exact Nat.lt_irrefl _)
  · exact Nat.lt_of_lt_of_le h.born hm.channels
  · exact Nat.lt_of_lt_of_le h.index hm.contexts

/-- A move that is about something else leaves the context where it is and its state alone. -/
theorem Leads.elsewhere (hm : s.Leads m events s') (h : s.Houses i n)
    (hi : m.index? ≠ some i) : s'.context? i = s.context? i ∧ deeds n events = [] := by
  cases hm with
  | idle hq hc =>
    refine ⟨by simp only [context?, hc], List.filterMap_eq_nil_iff.2 fun e he => ?_⟩
    rcases hq e he with hquiet | rfl
    · exact Event.deed?_of_isQuiet hquiet n
    · simp [Event.deed?]
  | @worked _ j c _ _ _ hj hc hk _ hcs =>
    have hne : i ≠ j := by
      rintro rfl
      exact hi hj
    refine ⟨by rw [context?_set hc hcs, if_neg hne], deeds_of_keeps hk fun hn => ?_⟩
    exact hne (h.alone j c hc hn.symm).symm
  | @dropped j c _ _ hc hk _ hcs =>
    have hne : i ≠ j := by
      rintro rfl
      exact hi rfl
    refine ⟨by rw [context?_set hc hcs, if_neg hne], deeds_of_keeps hk fun hn => ?_⟩
    exact hne (h.alone j c hc hn.symm).symm
  | opened _ hk _ _ hcs =>
    have hne : n ≠ s.world.channels.length := Nat.ne_of_lt h.born
    refine ⟨by rw [context?_append hcs, if_neg (Nat.ne_of_lt h.index)], ?_⟩
    rw [deeds_cons, deeds_of_keeps hk hne]
    simp [Event.deed?, Ne.symm hne]
  | abandoned _ hk _ _ _ hcs =>
    have hne : n ≠ s.world.channels.length := Nat.ne_of_lt h.born
    refine ⟨by simp only [context?, hcs], ?_⟩
    rw [deeds_cons, deeds_of_keeps hk hne]
    simp [Event.deed?, Ne.symm hne]

end Houses

/-- What is seen of a context and its state is seen of another session's only context. -/
structure Echoes (s : Session σ) (events : List Event) (i : Nat) (n : Handle) (s' : Session σ)
    (events' : List Event) : Prop where
  context : s'.context? 0 = (s.context? i).map (Context.renumbered 0)
  done : deeds 0 events' = deeds n events
  sink : ∀ c, s.context? i = some c → s'.world.sink? 0 = s.world.sink? n
  delivered : s'.world.delivered 0 = s.world.delivered n

namespace Echoes

variable {s s' : Session σ} {events events' : List Event} {i : Nat} {n : Handle}

theorem asked (h : s.Echoes events i n s' events') : requests 0 events' = requests n events :=
  congrArg (List.filterMap Deed.request?) h.done

/-- A move about something else is no news. -/
theorem elsewhere (hk : compiler.KeepsApart start manner) (h : s.Echoes events i n s' events')
    (hs : s.Runs manner compiler start events) (hn : s.Houses i n) {m : Move}
    (hi : m.index? ≠ some i) (hm : ∀ sent, m ≠ .outside sent) :
    let o := Session.move compiler m s
    (deeds n o.events = [] ∧ messages n o.events = [] ∧ receipts n o.events = []) ∧
      o.state.Echoes (events ++ o.events) i n s' events' := by
  intro o
  obtain ⟨hcontext, hdeeds⟩ := (leads_move compiler m s hs.obeys.coherent).elsewhere hn hi
  have hrequests : requests n o.events = [] := by
    rw [requests, hdeeds, List.filterMap_nil]
  have hmessages : messages n o.events = [] := by
    rw [(hs.shown.since (hs.move hk hm).shown n).2, hrequests]
    rfl
  have hrelays := turn_relays compiler hs.obeys m
  refine ⟨⟨hdeeds, hmessages, ?_⟩, ?_, ?_, ?_, ?_⟩
  · have hreceived := hrelays.received n
    rw [turn, hmessages, received_nil] at hreceived
    exact hreceived
  · rw [hcontext]
    exact h.context
  · rw [deeds_append, hdeeds, List.append_nil]
    exact h.done
  · intro c hc
    have hsinks := hrelays.sinks i c hc
    have hnone : (s.turn compiler m).installs? i = none := by
      unfold Turn.installs?
      split
      · next j operation _ hj _ =>
        have hne : j ≠ i := by
          rintro rfl
          rw [show m = .perform j operation from hj] at hi
          exact hi rfl
        rw [if_neg hne]
      · rfl
    rw [hcontext] at hc
    rw [hnone, hn.number c hc, Option.getD_none] at hsinks
    rw [hsinks]
    exact h.sink c hc
  · have hcounted := hrelays.counted n
    rw [turn, hmessages] at hcounted
    rw [hcounted]
    exact h.delivered

section Own

variable (hk : compiler.KeepsApart start manner) (h : s.Echoes events i n s' events')
  (hs : s.Runs manner compiler start events) (hs' : s'.Runs manner compiler start events')
  (hn : s.Houses i n) (hn' : s'.Houses 0 0)
include hk h hs hs' hn hn'

omit hk hs hs' hn hn' in
private theorem on {c : Context} (hi : s.context? i = some c) {x : ContextAction σ Value}
    (hx : Outcome.Echoes c.number (x ⟨c, s.world⟩) (x ⟨c.renumbered 0, s'.world⟩)) :
    (s'.on 0 x).result = (s.on i x).result ∧
      deeds 0 (s'.on 0 x).events = deeds c.number (s.on i x).events ∧
      (s'.on 0 x).state.context? 0 = ((s.on i x).state.context? i).map (Context.renumbered 0) := by
  have hi' : s'.context? 0 = some (c.renumbered 0) := by rw [h.context, hi]; rfl
  have hstate : ∀ {t : Session σ} {j : Nat} {d : Context}, t.context? j = some d →
      (t.on j x).state.context? j = some (x ⟨d, t.world⟩).state.context := by
    intro t j d hj
    have hset : (t.on j x).state.contexts =
        t.contexts.set j (some (x ⟨d, t.world⟩).state.context) := by
      simp [Session.on, hj]
    rw [context?_set hj hset, if_pos rfl]
  rw [hstate hi, hstate hi', on_events hi, on_events hi', hx.done, hx.context]
  refine ⟨?_, rfl, rfl⟩
  simp [Session.on, hi, hi', hx.result]

private theorem again {m : Move} (hm : m.index? = some i)
    (hf : ∀ job path, m = .runJob i job → job.source? = some path →
      (s'.world.files compiler).isFile path = (s.world.files compiler).isFile path) :
    let o := Session.move compiler m s
    let o' := Session.move compiler (m.at 0) s'
    o'.result = o.result ∧ deeds 0 o'.events = deeds n o.events ∧
      o'.state.context? 0 = (o.state.context? i).map (Context.renumbered 0) := by
  have hanswers := (hs.shown.since (hs.move hk (Move.ne_outside hm)).shown n).1
  have hanswers' :=
    (hs'.shown.since (hs'.move hk (Move.ne_outside (Move.index?_at hm 0))).shown 0).1
  cases hi : s.context? i with
  | none =>
    have hi' : s'.context? 0 = none := by rw [h.context, hi]; rfl
    cases m with
    | drop j | perform j | runJob j =>
      cases hm
      simp [Session.move, Session.drop, Session.on, Move.at, hi, hi']
    | _ => cases hm
  | some c =>
    have hi' : s'.context? 0 = some (c.renumbered 0) := by rw [h.context, hi]; rfl
    have hc := hs.obeys.coherent i c hi
    obtain rfl := hn.number c hi
    cases m with
    | perform j operation =>
      cases hm
      rw [show (Session.move compiler (.perform i operation) s).events = _ from on_events hi _]
        at hanswers
      rw [show (Session.move compiler ((Move.perform i operation).at 0) s').events = _ from
        on_events hi' _] at hanswers'
      exact h.on hi (operation.echoes hk hs.shown hs'.shown hc hn.born hn'.born h.asked hanswers
        hanswers')
    | runJob j job =>
      cases hm
      rw [show (Session.move compiler (.runJob i job) s).events = _ from on_events hi _] at hanswers
      rw [show (Session.move compiler ((Move.runJob i job).at 0) s').events = _ from
        on_events hi' _] at hanswers'
      exact h.on hi (job.echoes hk hs.shown hs'.shown hc hn.born hn'.born h.asked
        (fun path => hf job path rfl) hanswers hanswers')
    | drop j =>
      cases hm
      have hdrop : ∀ {t : Session σ} {j : Nat} {d : Context}, t.context? j = some d →
          (Session.move compiler (.drop j) t).result = .ok (.value .none) ∧
            (Session.move compiler (.drop j) t).events =
              (ContextAction.release compiler ⟨d, t.world⟩).events ∧
            (Session.move compiler (.drop j) t).state.context? j = none := by
        intro t j d hj
        have hmove : Session.move compiler (.drop j) t = t.drop compiler j := rfl
        have hset : (t.drop compiler j).state.contexts = t.contexts.set j none := by
          simp [Session.drop, hj]
        rw [hmove, context?_set hj hset, if_pos rfl]
        simp [Session.drop, hj]
      obtain ⟨hresult, hevents, hgone⟩ := hdrop hi
      obtain ⟨hresult', hevents', hgone'⟩ := hdrop hi'
      obtain ⟨⟨hr, _⟩, _⟩ := ContextAction.yields_release compiler hc s.world
      obtain ⟨⟨hr', _⟩, _⟩ := ContextAction.yields_release compiler (hc.renumbered 0) s'.world
      rw [← hevents] at hr
      rw [← hevents'] at hr'
      change Context.Releases _ (deeds 0 _) at hr'
      rw [h.asked] at hanswers'
      refine ⟨hresult'.trans hresult.symm, ?_, hgone'.trans (by rw [hgone]; rfl)⟩
      exact (hr.renumbered 0).determined hr' hanswers hanswers'
    | _ => cases hm

omit hk h hs hs' hn hn' in
private theorem installs?_at {m : Move} (hm : m.index? = some i) {events events' : List Event}
    (r : Except MoveError Reply) :
    (Turn.mk (m.at 0) r events').installs? 0 = (Turn.mk m r events).installs? i := by
  cases m with
  | perform j operation =>
    cases hm
    cases r <;> simp [Turn.installs?, Move.at]
  | _ => rfl

omit hk h hs hs' hn hn' in
private theorem events_of_unheld {t : Session σ} {j : Nat} {m : Move} (hm : m.index? = some j)
    (hj : t.context? j = none) : (Session.move compiler m t).events = [] := by
  cases m with
  | drop | perform | runJob =>
    cases hm
    simp [Session.move, Session.drop, Session.on, hj]
  | _ => cases hm

/-- What is done with the context itself is seen again. -/
theorem own {m : Move} (hm : m.index? = some i)
    (hf : ∀ job path, m = .runJob i job → job.source? = some path →
      (s'.world.files compiler).isFile path = (s.world.files compiler).isFile path) :
    let o := Session.move compiler m s
    let o' := Session.move compiler (m.at 0) s'
    (s'.turn compiler (m.at 0)).view 0 = (s.turn compiler m).view n ∧
      o.state.Echoes (events ++ o.events) i n o'.state (events' ++ o'.events) := by
  intro o o'
  obtain ⟨hresult, hdeeds, hcontext⟩ := h.again hk hs hs' hn hn' hm hf
  have hm' := Move.index?_at hm 0
  have hrequests : requests 0 o'.events = requests n o.events :=
    congrArg (List.filterMap Deed.request?) hdeeds
  have hmessages : messages 0 o'.events = messages n o.events := by
    rw [(hs'.shown.since (hs'.move hk (Move.ne_outside hm')).shown 0).2,
      (hs.shown.since (hs.move hk (Move.ne_outside hm)).shown n).2, hrequests, h.asked]
  have hrelays := turn_relays compiler hs.obeys m
  have hrelays' := turn_relays compiler hs'.obeys (m.at 0)
  have hreceipts : receipts 0 o'.events = receipts n o.events := by
    cases hi : s.context? i with
    | none =>
      have hi' : s'.context? 0 = none := by rw [h.context, hi]; rfl
      rw [show o.events = [] from events_of_unheld hm hi,
        show o'.events = [] from events_of_unheld hm' hi']
      rfl
    | some c =>
      have hreceived : receipts n o.events = received (s.world.sink? n) (messages n o.events) :=
        hrelays.received n
      have hreceived' : receipts 0 o'.events =
          received (s'.world.sink? 0) (messages 0 o'.events) := hrelays'.received 0
      rw [hreceived, hreceived', h.sink c hi, hmessages]
  refine ⟨?_, hcontext, ?_, ?_, ?_⟩
  · simp only [Turn.view, turn]
    rw [hresult, hdeeds, hmessages, hreceipts]
  · rw [deeds_append, deeds_append, h.done, hdeeds]
  · intro c hc
    have hleads := leads_move compiler m s hs.obeys.coherent
    obtain ⟨d, hd⟩ : ∃ d, s.context? i = some d := by
      rcases hleads.held hc with ⟨d, _, hd, _⟩ | ⟨hlast, _⟩
      · exact ⟨d, hd⟩
      · exact absurd hn.index (by rw [hlast]; exact Nat.lt_irrefl _)
    have hc' : o'.state.context? 0 = some (c.renumbered 0) := by
      rw [hcontext, hc]
      rfl
    have hsink := hrelays.sinks i c hc
    have hsink' := hrelays'.sinks 0 (c.renumbered 0) hc'
    change o'.state.world.sink? 0 = _ at hsink'
    rw [(hn.leads hleads).number c hc] at hsink
    rw [hsink, hsink', turn, turn, hresult, installs?_at hm]
    rw [show (c.renumbered 0).number = 0 from rfl, h.sink d hd]
  · have hcounted : o.state.world.delivered n =
        s.world.delivered n + (messages n o.events).length := hrelays.counted n
    have hcounted' : o'.state.world.delivered 0 =
        s'.world.delivered 0 + (messages 0 o'.events).length := hrelays'.counted 0
    rw [hcounted, hcounted', hmessages, h.delivered]

end Own

/-- Moves on the context and moves on others, one after the other: the first are seen again, and
the others are not seen at all. -/
theorem play (hk : compiler.KeepsApart start manner) (h : s.Echoes events i n s' events')
    (hs : s.Runs manner compiler start events) (hs' : s'.Runs manner compiler start events')
    (hn : s.Houses i n) (hn' : s'.Houses 0 0) {moves : List Move}
    (hm : ∀ m ∈ moves, ∀ sent, m ≠ .outside sent)
    (hf : ∀ first job rest path, moves = first ++ .runJob i job :: rest →
      job.source? = some path →
        ((s'.play compiler (Move.alone i first)).1.world.files compiler).isFile path =
          ((s.play compiler first).1.world.files compiler).isFile path) :
    (s'.turns compiler (Move.alone i moves)).map (Turn.view 0) =
        ((s.turns compiler moves).filter fun t => t.move.index? = some i).map (Turn.view n) ∧
      (∀ t ∈ s.turns compiler moves, t.move.index? ≠ some i →
        deeds n t.events = [] ∧ messages n t.events = [] ∧ receipts n t.events = []) ∧
      (s.play compiler moves).1.Echoes (events ++ (s.play compiler moves).2) i n
        (s'.play compiler (Move.alone i moves)).1
        (events' ++ (s'.play compiler (Move.alone i moves)).2) := by
  induction moves generalizing s s' events events' with
  | nil => exact ⟨rfl, by simp [turns], by simpa [Session.play, Move.alone] using h⟩
  | cons m rest ih =>
    have hleads := leads_move compiler m s hs.obeys.coherent
    have hrest : ∀ m ∈ rest, ∀ sent, m ≠ .outside sent := fun m' h' => hm m' (.tail _ h')
    by_cases hi : m.index? = some i
    · have halone : ∀ moves, Move.alone i (m :: moves) = m.at 0 :: Move.alone i moves := by
        intro moves
        simp [Move.alone, hi]
      have hleads' := leads_move compiler (m.at 0) s' hs'.obeys.coherent
      obtain ⟨hview, hafter⟩ := h.own hk hs hs' hn hn' hi fun job path hjob =>
        hf [] job rest path (by rw [hjob]; rfl)
      obtain ⟨hviews, hothers, hend⟩ := ih hafter (hs.move hk (hm m (.head _)))
        (hs'.move hk (Move.ne_outside (Move.index?_at hi 0))) (hn.leads hleads)
        (hn'.leads hleads') hrest fun first job rest' path hsplit hsource => by
          have hfirst := hf (m :: first) job rest' path (by rw [hsplit]; rfl) hsource
          rw [halone] at hfirst
          exact hfirst
      rw [halone]
      refine ⟨?_, ?_, ?_⟩
      · rw [turns, turns, List.map_cons, hview, hviews, List.filter_cons_of_pos, List.map_cons]
        exact decide_eq_true hi
      · exact List.forall_mem_cons.2 ⟨fun hne => absurd hi hne, hothers⟩
      · rw [List.append_assoc, List.append_assoc] at hend
        exact hend
    · have halone : ∀ moves, Move.alone i (m :: moves) = Move.alone i moves := by
        intro moves
        simp [Move.alone, hi]
      obtain ⟨hsilent, hafter⟩ := h.elsewhere hk hs hn hi (hm m (.head _))
      obtain ⟨hviews, hothers, hend⟩ := ih hafter (hs.move hk (hm m (.head _))) hs'
        (hn.leads hleads) hn' hrest fun first job rest' path hsplit hsource => by
          have hfirst := hf (m :: first) job rest' path (by rw [hsplit]; rfl) hsource
          rw [halone] at hfirst
          exact hfirst
      rw [halone]
      refine ⟨?_, ?_, ?_⟩
      · rw [turns, hviews, List.filter_cons_of_neg]
        exact fun hd => hi (of_decide_eq_true hd)
      · exact List.forall_mem_cons.2 ⟨fun _ => hsilent, hothers⟩
      · rw [List.append_assoc] at hend
        exact hend

end Echoes

section Opening

variable {s : Session σ} {events : List Event}

private theorem Houses.opened {I : Context → List Deed → Prop} {P : List Deed → Prop}
    {s' : Session σ} {m : Move} {more events' : List Event} {c : Context} (hs : s.Obeys I P events)
    (hs' : s'.Obeys I P events') (hm : s.Leads m more s')
    (hc : s'.contexts = s.contexts ++ [some c]) :
    s'.Houses s.contexts.length s.world.channels.length := by
  have hnumber : ∀ d, s'.context? s.contexts.length = some d →
      d.number = s.world.channels.length := by
    intro d hd
    rcases hm.held hd with ⟨_, _, hheld, _⟩ | ⟨_, hn, _⟩
    · exact absurd (lt_of_context? hheld) (Nat.lt_irrefl _)
    · exact hn
  have hlast : s'.context? s.contexts.length = some c := by rw [context?_append hc, if_pos rfl]
  refine ⟨hnumber, ?_, hnumber c hlast ▸ hs'.known _ c hlast, by simp [hc]⟩
  intro j d hd hn
  rcases hm.held hd with ⟨d', _, hheld, hr⟩ | ⟨hj, _⟩
  · have hlt := hs.known j d' hheld
    rw [← hr.number, hn] at hlt
    exact absurd hlt (Nat.lt_irrefl _)
  · exact hj

private theorem Begins.again {s first : Session σ} {row : List Operation}
    {o o' : Outcome Event (Session σ) MoveError Reply} (h : s.Begins compiler row o)
    (h' : first.Begins compiler row o') (htable : first.toolchain.table = s.toolchain.table)
    (hempty : first.contexts = []) (hzero : first.world.channels.length = 0)
    (hcreated : (compiler.create first.world.outside).1)
    (hopened : o.result = .ok (.opened s.contexts.length))
    (ha : manner.Answers [] (deeds s.world.channels.length o.events))
    (ha' : manner.Answers [] (deeds 0 o'.events)) :
    o'.result = .ok (.opened 0) ∧
      deeds 0 o'.events = deeds s.world.channels.length o.events ∧
      ∃ c, o.state.contexts = s.contexts ++ [some c] ∧
        o'.state.contexts = [some (c.renumbered 0)] := by
  cases h with
  | failed => exact nomatch hopened
  | abandoned => exact nomatch hopened
  | @opened c ds _ _ _ answer hh hall hd hc =>
    have hall0 := hall.renumbered 0
    rw [Context.renumbered_fresh] at hall0
    rw [hd] at ha
    cases h' with
    | failed hn =>
      rcases hn with hn | hn
      · rw [htable, hh] at hn
        exact Bool.noConfusion hn
      · exact Bool.noConfusion (hcreated.symm.trans hn)
    | abandoned answer' _ hall' hd' =>
      rw [hzero, htable] at hall'
      rw [hzero] at hd'
      rw [hd', ← List.cons_append, ← List.cons_append, manner.answers_append] at ha'
      obtain ⟨_, _, hblank⟩ := hall0.determined hall' ha.2 ha'.1.2
      exact nomatch hblank
    | opened answer' _ hall' hd' hc' =>
      rw [hzero, htable] at hall'
      rw [hzero] at hd'
      rw [hd'] at ha'
      obtain ⟨rfl, rfl, _⟩ := hall0.determined hall' ha.2 ha'.2
      refine ⟨by simp [hempty], ?_, c, hc, by simpa [hempty] using hc'⟩
      rw [hd, hd', ha.1, ha'.1]

private theorem echoes_openContext (hk : compiler.KeepsApart start manner)
    (hs : s.Runs manner compiler start events) {toolchain : Toolchain}
    (htoolchain : s.toolchain = toolchain) (hcreated : (compiler.create start).1) (bare : Bool)
    (hopened : (s.turn compiler (.openContext bare)).result = .ok (.opened s.contexts.length)) :
    let n := s.world.channels.length
    let first : Session σ := ⟨toolchain, { outside := start }, []⟩
    let o := Session.move compiler (.openContext bare) s
    let o' := Session.move compiler (.openContext bare) first
    o'.result = .ok (.opened 0) ∧
      (deeds 0 o'.events = deeds n o.events ∧ messages 0 o'.events = messages n o.events ∧
        receipts 0 o'.events = receipts n o.events) ∧
      o.state.Houses s.contexts.length n ∧ o'.state.Houses 0 0 ∧
      o.state.Echoes (events ++ o.events) s.contexts.length n o'.state o'.events := by
  subst htoolchain
  intro n first o o'
  have hs' : first.Runs manner compiler start [] := .first manner compiler s.toolchain start
  have hrun := hs.move hk (m := .openContext bare) nofun
  have hrun' := hs'.move hk (m := .openContext bare) nofun
  have hleads := leads_move compiler (.openContext bare) s hs.obeys.coherent
  have hleads' := leads_move compiler (.openContext bare) first hs'.obeys.coherent
  have hrelays := turn_relays compiler hs.obeys (.openContext bare)
  have hrelays' := turn_relays compiler hs'.obeys (.openContext bare)
  obtain ⟨hanswers, hmessages⟩ := hs.shown.since hrun.shown n
  obtain ⟨hanswers', hmessages'⟩ := hs'.shown.since hrun'.shown 0
  rw [hs.shown.unborn n (Nat.le_refl _)] at hanswers hmessages
  obtain ⟨hresult, hdeeds, c, hc, hc'⟩ := (s.begins_openContext compiler bare).again
    (first.begins_openContext compiler bare) rfl rfl rfl hcreated hopened hanswers hanswers'
  have hhouses : o.state.Houses s.contexts.length n := .opened hs.obeys hrun.obeys hleads hc
  have hhouses' : o'.state.Houses 0 0 := .opened hs'.obeys hrun'.obeys hleads' hc'
  have hrequests : requests 0 o'.events = requests n o.events :=
    congrArg (List.filterMap Deed.request?) hdeeds
  have hsaid : messages 0 o'.events = messages n o.events := by
    rw [hmessages', hmessages, hrequests]
    rfl
  -- a new channel has no sink, and has counted nothing yet
  have hsink : s.world.sink? n = none := sink?_unborn s.world
  have hsink' : first.world.sink? 0 = none := rfl
  have hdelivered : s.world.delivered n = 0 := by
    simp [World.delivered, World.channel?, n]
  have hreceived : receipts n o.events = [] := by
    have h := hrelays.received n
    rwa [hsink] at h
  have hreceived' : receipts 0 o'.events = [] := by
    have h := hrelays'.received 0
    rwa [hsink'] at h
  have hlast : o.state.context? s.contexts.length = some c :=
    (context?_append hc _).trans (if_pos rfl)
  have hlast' : o'.state.context? 0 = some (c.renumbered 0) :=
    congrArg (fun contexts => (contexts[0]?).join) hc'
  refine ⟨hresult, ⟨hdeeds, hsaid, hreceived'.trans hreceived.symm⟩, hhouses, hhouses', ?_⟩
  constructor
  · rw [hlast, hlast']
    rfl
  · rw [deeds_append, hs.obeys.unborn n (Nat.le_refl _), List.nil_append]
    exact hdeeds
  · intro d hd
    have h := hrelays.sinks _ d hd
    have h' := hrelays'.sinks 0 _ hlast'
    change o'.state.world.sink? 0 = first.world.sink? 0 at h'
    rw [hhouses.number d hd] at h
    exact h'.trans (hsink'.trans (hsink.symm.trans h.symm))
  · have h : o.state.world.delivered n = _ := hrelays.counted n
    have h' : o'.state.world.delivered 0 = _ := hrelays'.counted 0
    rw [h, h', hdelivered]
    exact congrArg (0 + List.length ·) hsaid

end Opening

/-- On an other side that keeps states apart, each context goes the way it would go alone. Whatever
has been done with others before it is opened, and is done with them meanwhile, it is opened in the
same way; each move on it is replied to in the same way, with the same calls, hooks, messages and
receipts; nothing is seen of it in the other moves; and it ends up the same, with as many messages
counted. All it takes is that one state can be had, and that the sources it looks for are there or
not as before. -/
theorem contexts_go_their_own_way (compiler : Compiler σ) (toolchain : Toolchain) (outside : σ)
    (manner : Manner) (hk : compiler.KeepsApart outside manner)
    (hcreated : (compiler.create outside).1) (before after : List Move) (bare : Bool)
    (hm : ∀ m ∈ before ++ after, ∀ sent, m ≠ .outside sent) :
    let start : Session σ := ⟨toolchain, { outside }, []⟩
    let s := (start.play compiler before).1
    let i := s.contexts.length
    let n := s.world.channels.length
    let opened := (move compiler (.openContext bare) s).state
    let alone := (move compiler (.openContext bare) start).state
    let together := start.play compiler (before ++ .openContext bare :: after)
    let apart := start.play compiler (.openContext bare :: Move.alone i after)
    (s.turn compiler (.openContext bare)).result = .ok (.opened i) →
      (∀ first job rest path, after = first ++ .runJob i job :: rest → job.source? = some path →
        ((alone.play compiler (Move.alone i first)).1.world.files compiler).isFile path =
          ((opened.play compiler first).1.world.files compiler).isFile path) →
      (start.turn compiler (.openContext bare)).result = .ok (.opened 0) ∧
        ((start.turn compiler (.openContext bare)).view 0).2 =
          ((s.turn compiler (.openContext bare)).view n).2 ∧
        (alone.turns compiler (Move.alone i after)).map (Turn.view 0) =
          ((opened.turns compiler after).filter fun t => t.move.index? = some i).map
            (Turn.view n) ∧
        (∀ t ∈ opened.turns compiler after, t.move.index? ≠ some i →
          deeds n t.events = [] ∧ messages n t.events = [] ∧ receipts n t.events = []) ∧
        apart.1.context? 0 = (together.1.context? i).map (Context.renumbered 0) ∧
        apart.1.world.delivered 0 = together.1.world.delivered n ∧
        deeds 0 apart.2 = deeds n together.2 := by
  intro start s i n opened alone together apart hopened hf
  have hfirst : start.Runs manner compiler outside [] := .first manner compiler toolchain outside
  have hs : s.Runs manner compiler outside (start.play compiler before).2 :=
    hfirst.play hk fun m h => hm m (List.mem_append_left _ h)
  obtain ⟨hresult, ⟨hdeeds, hmessages, hreceipts⟩, hhouses, hhouses', hechoes⟩ :=
    echoes_openContext hk hs (play_toolchain compiler start before) hcreated bare hopened
  obtain ⟨hviews, hothers, hend⟩ := hechoes.play hk (hs.move hk (m := .openContext bare) nofun)
    (hfirst.move hk (m := .openContext bare) nofun) hhouses hhouses'
    (fun m h => hm m (List.mem_append_right _ h)) hf
  have htogether : together = ((opened.play compiler after).1,
      (start.play compiler before).2 ++ ((move compiler (.openContext bare) s).events ++
        (opened.play compiler after).2)) := by
    simp only [together, play_append]
    rfl
  refine ⟨hresult, ?_, hviews, hothers, ?_, ?_, ?_⟩
  · simp only [Turn.view, turn, hdeeds, hmessages, hreceipts, start, s, n]
  · rw [htogether]
    exact hend.context
  · rw [htogether]
    exact hend.delivered
  · rw [htogether, ← List.append_assoc]
    exact hend.done

/-- A context compiles, and is told of its warning, while another one fails and is dropped. -/
theorem compiles_while_another_fails :
    let warning : CText := .upToNul [117]
    let manner : Manner :=
      { answer := fun past _ => { status := if past.length < 3 then 0 else -1 }
        remarks := fun _ request => if request matches .compile _ then [warning] else []
        returns := fun _ _ _ => 0 }
    let start : Session _ := ⟨⟨⟨.wide, ⟨[]⟩⟩, ⟨⟨[]⟩⟩, {}⟩, { outside := [] }, []⟩
    let before : List Move := [.openContext true, .perform 0 (.compileString "int a;")]
    let after : List Move := [.perform 1 (.setErrorSink { tag := "log" }),
      .perform 0 (.compileString "int b;"), .perform 1 (.compileString "int c;"), .drop 0]
    let s := (start.play manner.compiler before).1
    let together := (start.play manner.compiler (before ++ .openContext true :: after)).1
    (together.context? s.contexts.length).map (·.stage) = some .compiled ∧
      together.world.delivered s.world.channels.length = 1 := by
  intro warning manner start before after s together
  have hm : ∀ m ∈ before ++ after, ∀ sent, m ≠ .outside sent := by simp [before, after]
  have hopened : (s.turn manner.compiler (.openContext true)).result = .ok (.opened 1) := by
    decide +kernel
  have hfiles : ∀ w : World (List (Handle × Request)), w.files manner.compiler = {} :=
    fun _ => rfl
  obtain ⟨_, _, _, _, hcontext, hdelivered, _⟩ := contexts_go_their_own_way manner.compiler _ []
    manner manner.compiler_keepsApart (by decide +kernel) before after true hm hopened
    fun _ _ _ _ _ _ => by rw [hfiles, hfiles]
  have hstage := (congrArg (Option.map Context.stage) hcontext).symm
  rw [Option.map_map, show Context.stage ∘ Context.renumbered 0 = Context.stage from rfl] at hstage
  -- the two sides must agree in form, or the moves are played to compare them
  dsimp +zetaDelta only at hstage hdelivered ⊢
  refine ⟨hstage.trans ?_, hdelivered.symm.trans ?_⟩ <;> decide +kernel

end Session

end EmbeddedC
