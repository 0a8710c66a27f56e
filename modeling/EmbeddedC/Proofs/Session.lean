import EmbeddedC.Proofs.ReachableContext
import EmbeddedC.Proofs.HistoryRules
/-!
# Sessions

One move of a session opens a context on a new state, works on one context, releases one, or touches
none. From this, what holds of each context together with all deeds on its state is carried through a
session of any length: it is enough to look at fresh contexts, timely tasks and releases.
-/

namespace EmbeddedC

variable {σ : Type} (compiler : Compiler σ)

/-- What is done with the state of a context that nobody needs any more. -/
inductive Context.Releases (c : Context) : List Deed → Prop
  | released (hc : c.handle? = none) : c.Releases []
  | deleted (answer : Answer) (hc : c.handle? ≠ none) : c.Releases [.called .delete answer]

theorem ContextAction.yields_release {c : Context} (hc : c.Coherent) :
    Yields c.number (release compiler) c fun ds _ c' => c.Releases ds ∧ c'.number = c.number := by
  by_cases hd : c.stage = .disposed
  · have hn := hc.handle_eq_none_iff.2 hd
    exact Yields.release_released hn ⟨.released hn, rfl⟩
  · have hh := hc.handle_of_live hd
    exact Yields.release hh fun answer => ⟨.deleted answer (by simp [hh]), rfl⟩

/-- The ways of opening a context in a world: with a table for another host, with no memory left, to
a context that the caller gets, or to one that fails while it is prepared. -/
inductive Opens (table : EntryTable) (w : World σ) :
    Outcome Event (World σ) BindError Context → Prop
  | mismatch (hh : table.abi.isHost = false) :
    Opens table w ⟨.error (.load (.abiMismatch table.abi pointerBits)), w, []⟩
  | exhausted (outside : σ) (hh : table.abi.isHost) :
    Opens table w ⟨.error .createFailed, { w with outside }, [.created none]⟩
  | opened {c : Context} {w' : World σ} {events : List Event} {ds : List Deed} (answer : Answer)
    (hh : table.abi.isHost) (hk : ∀ e ∈ events, e.Keeps w.channels.length)
    (hw : w'.channels.length = w.channels.length + 1)
    (hd : deeds w.channels.length events = .called .setErrorFunc answer :: ds)
    (hc : (Context.fresh table w.channels.length).Reaches ds c) :
    Opens table w ⟨.ok c, w', .created (some w.channels.length) :: events⟩
  | abandoned {e : BindError} {c : Context} {w' : World σ} {events : List Event}
    {ds ds' : List Deed} (answer : Answer)
    (hh : table.abi.isHost) (hk : ∀ e ∈ events, e.Keeps w.channels.length)
    (hw : w'.channels.length = w.channels.length + 1)
    (hd : deeds w.channels.length events = .called .setErrorFunc answer :: (ds ++ ds'))
    (hc : (Context.fresh table w.channels.length).Reaches ds c) (hr : c.Releases ds') :
    Opens table w ⟨.error e, w', .created (some w.channels.length) :: events⟩

theorem Context.create_mismatch {table : EntryTable} (hh : table.abi.isHost = false) (w : World σ) :
    create compiler table w = ⟨.error (.load (.abiMismatch table.abi pointerBits)), w, []⟩ := by
  simp [create, hh, Action.fail]

theorem Context.create_exhausted {table : EntryTable} {w : World σ} {outside : σ}
    (hh : table.abi.isHost) (hc : compiler.create w.outside = (false, outside)) :
    create compiler table w = ⟨.error .createFailed, { w with outside }, [.created none]⟩ := by
  simp [create, hh, Action.fail, Action.step, Bind.bind, Action.bind, World.create, hc]

theorem Context.create_fresh {table : EntryTable} {w : World σ} {outside : σ}
    (hh : table.abi.isHost) (hc : compiler.create w.outside = (true, outside)) :
    ∃ answer w' events, create compiler table w = ⟨.ok (.fresh table w.channels.length), w',
        .created (some w.channels.length) ::
          .called (some w.channels.length) .setErrorFunc answer :: events⟩ ∧
      (∀ e ∈ events, e.isQuiet) ∧ w'.channels.length = w.channels.length + 1 := by
  obtain ⟨answer, w', events, hcall, hquiet, hchannels⟩ := World.call_eq compiler
    w.channels.length .setErrorFunc { outside, channels := w.channels ++ [{}] }
  refine ⟨answer, w', events ++ [.logged (.createdContext table.abi table.origin)], ?_, ?_, ?_⟩
  · simp [create, hh, Action.emit, Action.step, Bind.bind, Action.bind, World.create, hc, hcall,
      Pure.pure, Action.pure]
  · exact List.forall_mem_append.2 ⟨hquiet, by simp [Event.isQuiet]⟩
  · simpa using hchannels

theorem Context.opens_create (table : EntryTable) (w : World σ) :
    Opens table w (Context.create compiler table w) := by
  cases hh : table.abi.isHost with
  | false =>
    rw [create_mismatch compiler hh]
    exact .mismatch hh
  | true =>
    rcases hc : compiler.create w.outside with ⟨_ | _, outside⟩
    · rw [create_exhausted compiler hh hc]
      exact .exhausted outside hh
    · obtain ⟨answer, w', events, ho, hquiet, hchannels⟩ := create_fresh compiler hh hc
      rw [ho]
      refine .opened answer hh ?_ hchannels ?_ (.refl _)
      · exact List.forall_mem_cons.2 ⟨rfl, fun e he => Event.keeps_of_isQuiet (hquiet e he) _⟩
      · simp [deeds_cons, Event.deed?, deeds_of_quiet hquiet]

/-- Work on a new context leaves it opened, and a failure of that work abandons it. -/
theorem Opens.prepare {table : EntryTable} {w : World σ}
    {y : Action Event (World σ) BindError Context} {x : ContextAction σ Value}
    (hy : Opens table w (y w))
    (hx : ∀ c : Context, c.Coherent → x.Yields c.number c fun ds _ c' => c.Reaches ds c') :
    Opens table w ((y >>= fun c => c.prepare compiler x) w) := by
  simp only [Bind.bind, Action.bind]
  cases ho : y w with
  | mk r w' events =>
    rw [ho] at hy
    cases hy with
    | mismatch hh => exact .mismatch hh
    | exhausted outside hh => exact .exhausted outside hh
    | abandoned answer hh hk hw hd hc hr => exact .abandoned answer hh hk hw hd hc hr
    | @opened c _ events ds answer hh hk hw hd hc =>
      have hn : c.number = w.channels.length := hc.number
      have hcoh := hc.coherent (.fresh table w.channels.length)
      obtain ⟨hreach, hkeeps, hchannels⟩ := hx c hcoh w'
      rw [hn] at hreach hkeeps
      simp only [Context.prepare]
      cases hxo : x ⟨c, w'⟩ with
      | mk r s more =>
        rw [hxo] at hreach hkeeps hchannels
        cases r with
        | ok value =>
          refine .opened answer hh ?_ (hchannels.trans hw) ?_ (hc.trans hreach)
          · exact fun e he => (List.mem_append.1 he).elim (hk e) (hkeeps e)
          · simp [hd]
        | error e =>
          have hcoh' := hreach.coherent hcoh
          obtain ⟨⟨hrel, _⟩, hrelkeeps, hrelchannels⟩ :=
            ContextAction.yields_release compiler hcoh' s.world
          rw [hreach.number.trans hn] at hrel hrelkeeps
          refine .abandoned answer hh ?_ ((hrelchannels.trans hchannels).trans hw) ?_
            (hc.trans hreach) hrel
          · intro e he
            rcases List.mem_append.1 he with he | he
            · exact hk e he
            · exact (List.mem_append.1 he).elim (hkeeps e) (hrelkeeps e)
          · simp [hd]

theorem Toolchain.opens_openContext (t : Toolchain) (w : World σ) :
    Opens t.table w (t.openContext compiler w) :=
  (Context.opens_create compiler t.table w).prepare compiler fun _ hc =>
    Operation.yields_performAll compiler hc t.plan

def Move.index? : Move → Option Nat
  | drop index | perform index _ | runJob index _ => some index
  | _ => none

namespace Session

/-- What one move comes to: nothing done with any state, work on one context, a context dropped, or a
context opened or given up on a new state. -/
inductive Leads (s : Session σ) : Move → List Event → Session σ → Prop
  | idle {m : Move} {events : List Event} {s' : Session σ}
    (hq : ∀ e ∈ events, e.isQuiet ∨ e = .created none) (hc : s'.contexts = s.contexts)
    (hw : s'.world.channels.length = s.world.channels.length) : s.Leads m events s'
  | worked {m : Move} {i : Nat} {c c' : Context} {events : List Event} {s' : Session σ}
    (hm : m.index? = some i) (hi : s.context? i = some c) (hk : ∀ e ∈ events, e.Keeps c.number)
    (hr : c.Reaches (deeds c.number events) c') (hc : s'.contexts = s.contexts.set i (some c'))
    (hw : s'.world.channels.length = s.world.channels.length) : s.Leads m events s'
  | dropped {i : Nat} {c : Context} {events : List Event} {s' : Session σ}
    (hi : s.context? i = some c) (hk : ∀ e ∈ events, e.Keeps c.number)
    (hr : c.Releases (deeds c.number events)) (hc : s'.contexts = s.contexts.set i none)
    (hw : s'.world.channels.length = s.world.channels.length) : s.Leads (.drop i) events s'
  | opened {bare : Bool} {c : Context} {events : List Event} {ds : List Deed} {s' : Session σ}
    (answer : Answer) (hk : ∀ e ∈ events, e.Keeps s.world.channels.length)
    (hd : deeds s.world.channels.length events = .called .setErrorFunc answer :: ds)
    (hr : (Context.fresh s.toolchain.table s.world.channels.length).Reaches ds c)
    (hc : s'.contexts = s.contexts ++ [some c])
    (hw : s'.world.channels.length = s.world.channels.length + 1) :
    s.Leads (.openContext bare) (.created (some s.world.channels.length) :: events) s'
  | abandoned {bare : Bool} {c : Context} {events : List Event} {ds ds' : List Deed}
    {s' : Session σ} (answer : Answer) (hk : ∀ e ∈ events, e.Keeps s.world.channels.length)
    (hd : deeds s.world.channels.length events = .called .setErrorFunc answer :: (ds ++ ds'))
    (hr : (Context.fresh s.toolchain.table s.world.channels.length).Reaches ds c)
    (hr' : c.Releases ds') (hc : s'.contexts = s.contexts)
    (hw : s'.world.channels.length = s.world.channels.length + 1) :
    s.Leads (.openContext bare) (.created (some s.world.channels.length) :: events) s'

private theorem leads_openContext (s : Session σ) (bare : Bool) :
    s.Leads (.openContext bare) (s.openContext compiler bare).events
      (s.openContext compiler bare).state := by
  have ho : Opens s.toolchain.table s.world
      ((if bare then Context.create compiler s.toolchain.table
        else s.toolchain.openContext compiler) s.world) := by
    cases bare with
    | true => exact Context.opens_create compiler _ _
    | false => exact s.toolchain.opens_openContext compiler _
  simp only [openContext]
  generalize (if bare then Context.create compiler s.toolchain.table
    else s.toolchain.openContext compiler) s.world = o at ho
  cases ho with
  | mismatch => exact .idle (by simp) rfl rfl
  | exhausted => exact .idle (by simp) rfl rfl
  | opened answer _ hk hw hd hc => exact .opened answer hk hd hc rfl hw
  | abandoned answer _ hk hw hd hc hr => exact .abandoned answer hk hd hc hr rfl hw

theorem on_events {s : Session σ} {i : Nat} {c : Context} (hi : s.context? i = some c)
    (x : ContextAction σ Value) : (s.on i x).events = (x ⟨c, s.world⟩).events := by
  simp [on, hi]

private theorem leads_on {s : Session σ} {m : Move} {i : Nat} {x : ContextAction σ Value}
    (hm : m.index? = some i) (hs : ∀ c, s.context? i = some c → c.Coherent)
    (hx : ∀ c : Context, c.Coherent → x.Yields c.number c fun ds _ c' => c.Reaches ds c') :
    s.Leads m (s.on i x).events (s.on i x).state := by
  unfold on
  cases hi : s.context? i with
  | none => exact .idle (by simp) rfl rfl
  | some c =>
    obtain ⟨hreach, hkeeps, hchannels⟩ := hx c (hs c hi) s.world
    exact .worked hm hi hkeeps hreach rfl hchannels

theorem leads_move (m : Move) (s : Session σ) (hs : ∀ i c, s.context? i = some c → c.Coherent) :
    s.Leads m (move compiler m s).events (move compiler m s).state := by
  cases m with
  | openContext bare => exact leads_openContext compiler s bare
  | drop i =>
    simp only [move, drop]
    cases hi : s.context? i with
    | none => exact .idle (by simp) rfl rfl
    | some c =>
      obtain ⟨⟨hrel, _⟩, hkeeps, hchannels⟩ :=
        ContextAction.yields_release compiler (hs i c hi) s.world
      exact .dropped hi hkeeps hrel rfl hchannels
  | perform i operation =>
    exact leads_on rfl (hs i) fun c hc =>
      (operation.yields_perform compiler hc).mono fun _ _ _ => Operation.Does.reaches
  | runJob i job => exact leads_on rfl (hs i) fun c hc => job.yields_perform compiler hc
  | enter address arguments =>
    obtain ⟨status, w', events, henter, hquiet, hchannels⟩ :=
      World.enter_eq compiler none address arguments s.world
    have ho : move compiler (.enter address arguments) s =
        ⟨.ok (.value (.status status)), { s with world := w' },
          .entered none address arguments :: events⟩ := by
      simp [move, henter]
    rw [ho]
    refine .idle (fun e he => .inl ?_) rfl hchannels
    rcases List.mem_cons.1 he with rfl | he
    · rfl
    · exact hquiet e he
  | outside sent =>
    exact .idle (fun e he => .inl (World.absorb_quiet _ _ e he)) rfl (World.absorb_channels _ _)

variable {s s' : Session σ}

theorem lt_of_context? {i : Nat} {c : Context} (hi : s.context? i = some c) :
    i < s.contexts.length := by
  apply Nat.lt_of_not_le
  intro hge
  simp [context?, List.getElem?_eq_none hge] at hi

theorem context?_set {i : Nat} {c : Context} {x? : Option Context}
    (hi : s.context? i = some c) (hc : s'.contexts = s.contexts.set i x?) (j : Nat) :
    s'.context? j = if j = i then x? else s.context? j := by
  have hlt := lt_of_context? hi
  by_cases hj : j = i
  · simp [context?, hc, hj, hlt]
  · simp [context?, hc, hj, List.getElem?_set_ne (Ne.symm hj)]

theorem context?_append {x? : Option Context} (hc : s'.contexts = s.contexts ++ [x?])
    (j : Nat) : s'.context? j = if j = s.contexts.length then x? else s.context? j := by
  unfold context?
  rw [hc, getElem?_append_singleton]
  split <;> rfl

theorem play_append (s : Session σ) (moves more : List Move) :
    s.play compiler (moves ++ more) =
      let (s', events) := s.play compiler moves
      let (s'', events') := s'.play compiler more
      (s'', events ++ events') := by
  induction moves generalizing s with
  | nil => rfl
  | cons m rest ih => simp [play, ih]

/-- A context that is held after a move has come from the one held before, or its state was made
right at the start. -/
theorem Leads.held {m : Move} {events : List Event} (hm : s.Leads m events s') {i : Nat}
    {c : Context} (hi : s'.context? i = some c) :
    (∃ d ds, s.context? i = some d ∧ d.Reaches ds c) ∨
      i = s.contexts.length ∧ c.number = s.world.channels.length ∧
        events.head? = some (.created (some c.number)) := by
  cases hm with
  | idle _ hcs | abandoned _ _ _ _ _ hcs =>
    rw [context?, hcs] at hi
    exact .inl ⟨c, [], hi, .refl c⟩
  | @worked _ j d d' _ _ _ hj _ hr hcs =>
    rw [context?_set hj hcs] at hi
    by_cases hij : i = j
    · rw [if_pos hij] at hi
      cases hi
      exact .inl ⟨d, _, hij ▸ hj, hr⟩
    · rw [if_neg hij] at hi
      exact .inl ⟨c, [], hi, .refl c⟩
  | dropped hj _ _ hcs =>
    rw [context?_set hj hcs] at hi
    split at hi
    · exact nomatch hi
    · exact .inl ⟨c, [], hi, .refl c⟩
  | opened _ _ _ hr hcs =>
    rw [context?_append hcs] at hi
    by_cases hij : i = s.contexts.length
    · rw [if_pos hij] at hi
      cases hi
      exact .inr ⟨hij, hr.number, by rw [hr.number]; rfl⟩
    · rw [if_neg hij] at hi
      exact .inl ⟨c, [], hi, .refl c⟩

theorem Leads.contexts {m : Move} {events : List Event} (hm : s.Leads m events s') :
    s.contexts.length ≤ s'.contexts.length := by
  cases hm with
  | idle _ hcs | abandoned _ _ _ _ _ hcs => exact Nat.le_of_eq (by rw [hcs])
  | worked _ _ _ _ hcs | dropped _ _ _ hcs | opened _ _ _ _ hcs => simp [hcs]

end Session

/-- A law about contexts and the deeds on their states: one part for a context that somebody holds,
the other for a state whose context is gone or never was. -/
structure Law (I : Context → List Deed → Prop) (P : List Deed → Prop) : Prop where
  idle : P []
  fresh : ∀ table handle answer, I (.fresh table handle) [.created, .called .setErrorFunc answer]
  task : ∀ {c c' : Context} {task : Task} {ds ds' : List Deed} {r : Except BindError Value},
    c.Coherent → I c ds → task.Timely c → task.Does c ds' r c' → I c' (ds ++ ds')
  release : ∀ {c : Context} {ds ds' : List Deed},
    c.Coherent → I c ds → c.Releases ds' → P (ds ++ ds')

theorem Law.reaches {I : Context → List Deed → Prop} {P : List Deed → Prop} (law : Law I P)
    {c c' : Context} {ds ds' : List Deed} (hc : c.Coherent) (hI : I c ds)
    (hr : c.Reaches ds' c') : I c' (ds ++ ds') := by
  induction hr generalizing ds with
  | refl c => rwa [List.append_nil]
  | step ht hd _ ih =>
    rw [← List.append_assoc]
    exact ih (hd.coherent hc ht) (law.task hc hI ht hd)

/-- A session whose contexts hold states of their own and obey a law, given all events so far. -/
structure Session.Obeys (I : Context → List Deed → Prop) (P : List Deed → Prop) (s : Session σ)
    (events : List Event) : Prop where
  held : ∀ i c, s.context? i = some c → I c (deeds c.number events)
  freed : ∀ handle, (∀ i c, s.context? i = some c → c.number ≠ handle) → P (deeds handle events)
  coherent : ∀ i c, s.context? i = some c → c.Coherent
  apart : ∀ i j c d, s.context? i = some c → s.context? j = some d → c.number = d.number → i = j
  known : ∀ i c, s.context? i = some c → c.number < s.world.channels.length
  unborn : ∀ handle, s.world.channels.length ≤ handle → deeds handle events = []

namespace Session.Obeys

variable {I : Context → List Deed → Prop} {P : List Deed → Prop} {s s' : Session σ}
  {events more : List Event}

theorem empty (law : Law I P) (toolchain : Toolchain) (w : World σ) :
    Obeys I P ⟨toolchain, w, []⟩ [] where
  held := by simp [context?]
  freed := fun _ _ => law.idle
  coherent := by simp [context?]
  apart := by simp [context?]
  known := by simp [context?]
  unborn := fun _ _ => rfl

private theorem quiet (hs : s.Obeys I P events) (hq : ∀ handle, deeds handle more = [])
    (hc : s'.contexts = s.contexts)
    (hw : s'.world.channels.length = s.world.channels.length) : s'.Obeys I P (events ++ more) := by
  have hd : ∀ handle, deeds handle (events ++ more) = deeds handle events := by simp [hq]
  have hx : ∀ i, s'.context? i = s.context? i := by simp [context?, hc]
  constructor
  · intro i c hi
    rw [hd]
    exact hs.held i c (hx i ▸ hi)
  · intro handle hfree
    rw [hd]
    exact hs.freed handle fun i c hi => hfree i c (hx i ▸ hi)
  · exact fun i c hi => hs.coherent i c (hx i ▸ hi)
  · exact fun i j c d hi hj => hs.apart i j c d (hx i ▸ hi) (hx j ▸ hj)
  · exact fun i c hi => hw ▸ hs.known i c (hx i ▸ hi)
  · intro handle hle
    rw [hd]
    exact hs.unborn handle (hw ▸ hle)

private theorem change (hs : s.Obeys I P events) {handle : Handle} {i : Nat} {x? : Option Context}
    (hm : ∀ other, other ≠ handle → deeds other more = [])
    (hx : ∀ j, s'.context? j = if j = i then x? else s.context? j)
    (hold : ∀ c, s.context? i = some c → c.number = handle)
    (happart : ∀ j c, j ≠ i → s.context? j = some c → c.number ≠ handle)
    (hw : s.world.channels.length ≤ s'.world.channels.length)
    (hborn : handle < s'.world.channels.length)
    (hnew : ∀ c, x? = some c →
      c.number = handle ∧ c.Coherent ∧ I c (deeds handle (events ++ more)))
    (hgone : x? = none → P (deeds handle (events ++ more))) : s'.Obeys I P (events ++ more) := by
  have hd : ∀ other, other ≠ handle → deeds other (events ++ more) = deeds other events :=
    fun other ho => by simp [hm other ho]
  -- what an index holds now is the one thing that changed, or was there before and is another's
  have hcases : ∀ j c, s'.context? j = some c →
      j = i ∧ x? = some c ∨ j ≠ i ∧ s.context? j = some c := by
    intro j c hj
    rw [hx] at hj
    by_cases hji : j = i
    · exact .inl ⟨hji, by rwa [if_pos hji] at hj⟩
    · exact .inr ⟨hji, by rwa [if_neg hji] at hj⟩
  constructor
  · intro j c hj
    rcases hcases j c hj with ⟨rfl, hc⟩ | ⟨hji, hc⟩
    · obtain ⟨hn, _, hI⟩ := hnew c hc
      exact hn ▸ hI
    · rw [hd _ (happart j c hji hc)]
      exact hs.held j c hc
  · intro other hfree
    by_cases ho : other = handle
    · rw [ho]
      refine hgone (Option.eq_none_iff_forall_ne_some.2 fun c hc => ?_)
      exact hfree i c (by rw [hx, if_pos rfl, hc]) ((hnew c hc).1.trans ho.symm)
    · rw [hd other ho]
      refine hs.freed other fun j c hj => ?_
      by_cases hji : j = i
      · rw [hold c (hji ▸ hj)]
        exact Ne.symm ho
      · exact hfree j c (by rw [hx, if_neg hji, hj])
  · intro j c hj
    rcases hcases j c hj with ⟨_, hc⟩ | ⟨_, hc⟩
    · exact (hnew c hc).2.1
    · exact hs.coherent j c hc
  · intro j k c d hj hk hn
    rcases hcases j c hj with ⟨hji, hc⟩ | ⟨hji, hc⟩ <;>
      rcases hcases k d hk with ⟨hki, hc'⟩ | ⟨hki, hc'⟩
    · exact hji.trans hki.symm
    · exact absurd (hn.symm.trans (hnew c hc).1) (happart k d hki hc')
    · exact absurd (hn.trans (hnew d hc').1) (happart j c hji hc)
    · exact hs.apart j k c d hc hc' hn
  · intro j c hj
    rcases hcases j c hj with ⟨_, hc⟩ | ⟨_, hc⟩
    · exact (hnew c hc).1 ▸ hborn
    · exact Nat.lt_of_lt_of_le (hs.known j c hc) hw
  · intro other hle
    rw [hd other fun ho => Nat.not_le_of_lt hborn (ho ▸ hle)]
    exact hs.unborn other (Nat.le_trans hw hle)

private theorem deeds_created_cons {handle other : Handle} (events : List Event) :
    deeds other (.created (some handle) :: events) =
      if handle = other then .created :: deeds other events else deeds other events := by
  by_cases h : handle = other <;> simp [deeds_cons, Event.deed?, h]

private theorem change_new (hs : s.Obeys I P events) {x? : Option Context}
    (hk : ∀ e ∈ more, e.Keeps s.world.channels.length)
    (hx : ∀ j, s'.context? j = if j = s.contexts.length then x? else s.context? j)
    (hw : s'.world.channels.length = s.world.channels.length + 1)
    (hnew : ∀ c, x? = some c → c.number = s.world.channels.length ∧ c.Coherent ∧
      I c (.created :: deeds s.world.channels.length more))
    (hgone : x? = none → P (.created :: deeds s.world.channels.length more)) :
    s'.Obeys I P (events ++ .created (some s.world.channels.length) :: more) := by
  have hnow : deeds s.world.channels.length
      (events ++ .created (some s.world.channels.length) :: more) =
        .created :: deeds s.world.channels.length more := by
    rw [deeds_append, hs.unborn _ (Nat.le_refl _), deeds_created_cons, if_pos rfl, List.nil_append]
  have hle : s.world.channels.length ≤ s'.world.channels.length := by omega
  have hlt : s.world.channels.length < s'.world.channels.length := by omega
  refine hs.change (fun other ho => ?_) hx (fun d hd => ?_)
    (fun j d _ hd hn => Nat.lt_irrefl _ (hn ▸ hs.known j d hd)) hle hlt ?_ ?_
  · rw [deeds_created_cons, if_neg (Ne.symm ho)]
    exact deeds_of_keeps hk ho
  · simp [context?] at hd
  · rwa [hnow]
  · rwa [hnow]

private theorem leads (law : Law I P) {m : Move} (hs : s.Obeys I P events)
    (hm : s.Leads m more s') : s'.Obeys I P (events ++ more) := by
  cases hm with
  | idle hq hc hw =>
    refine hs.quiet (fun handle => List.filterMap_eq_nil_iff.2 fun e he => ?_) hc hw
    rcases hq e he with hquiet | rfl
    · exact Event.deed?_of_isQuiet hquiet handle
    · simp [Event.deed?]
  | @worked _ i c c' _ _ _ hi hk hr hc hw =>
    have hcoh := hs.coherent i c hi
    refine hs.change (fun _ => deeds_of_keeps hk) (context?_set hi hc) (fun d hd => ?_) ?_
      (Nat.le_of_eq hw.symm) (hw ▸ hs.known i c hi) ?_ (by simp)
    · rw [Option.some.inj (hd.symm.trans hi)]
    · exact fun j d hj hd hn => hj (hs.apart j i d c hd hi hn)
    · rintro _ ⟨⟩
      rw [deeds_append]
      exact ⟨hr.number, hr.coherent hcoh, law.reaches hcoh (hs.held i c hi) hr⟩
  | @dropped i c _ _ hi hk hr hc hw =>
    refine hs.change (fun _ => deeds_of_keeps hk) (context?_set hi hc) (fun d hd => ?_) ?_
      (Nat.le_of_eq hw.symm) (hw ▸ hs.known i c hi) (by simp) fun _ => ?_
    · rw [Option.some.inj (hd.symm.trans hi)]
    · exact fun j d hj hd hn => hj (hs.apart j i d c hd hi hn)
    · rw [deeds_append]
      exact law.release (hs.coherent i c hi) (hs.held i c hi) hr
  | opened answer hk hd hr hc hw =>
    have hcoh := Context.Coherent.fresh s.toolchain.table s.world.channels.length
    have hI := law.reaches hcoh (law.fresh _ _ answer) hr
    refine hs.change_new hk (context?_append hc) hw ?_ (by simp)
    rintro _ ⟨⟩
    rw [hd]
    exact ⟨hr.number, hr.coherent hcoh, hI⟩
  | abandoned answer hk hd hr hr' hc hw =>
    have hcoh := Context.Coherent.fresh s.toolchain.table s.world.channels.length
    have hI := law.reaches hcoh (law.fresh _ _ answer) hr
    have hx : ∀ j, s'.context? j = if j = s.contexts.length then none else s.context? j := by
      intro j
      by_cases hj : j = s.contexts.length <;> simp [context?, hc, hj]
    refine hs.change_new hk hx hw (by simp) fun _ => ?_
    rw [hd]
    exact law.release (hr.coherent hcoh) hI hr'

theorem move (law : Law I P) (m : Move) (hs : s.Obeys I P events) :
    (Session.move compiler m s).state.Obeys I P (events ++ (Session.move compiler m s).events) :=
  hs.leads law (leads_move compiler m s hs.coherent)

/-- What one move keeps is kept by a session of any length. -/
theorem play (law : Law I P) (moves : List Move) (hs : s.Obeys I P events) :
    (s.play compiler moves).1.Obeys I P (events ++ (s.play compiler moves).2) := by
  induction moves generalizing s events with
  | nil => simpa [Session.play] using hs
  | cons m rest ih =>
    have := ih (hs.move compiler law m)
    rwa [List.append_assoc] at this

/-- A context that is held in the end and had its index all along has come from the one held at the
start. -/
theorem reaches (law : Law I P) (hs : s.Obeys I P events) (moves : List Move) {i : Nat}
    (hlt : i < s.contexts.length) {c : Context}
    (hi : (s.play compiler moves).1.context? i = some c) :
    ∃ d ds, s.context? i = some d ∧ d.Reaches ds c := by
  induction moves generalizing s events with
  | nil => exact ⟨c, [], hi, .refl c⟩
  | cons m rest ih =>
    have hm := leads_move compiler m s hs.coherent
    obtain ⟨d, ds, hd, hr⟩ := ih (hs.move compiler law m) (Nat.lt_of_lt_of_le hlt hm.contexts) hi
    rcases hm.held hd with ⟨first, ds', hfirst, hr'⟩ | ⟨hnew, _⟩
    · exact ⟨first, _, hfirst, hr'.trans hr⟩
    · omega

end Session.Obeys

/-- What both parts of a law say of the deeds on a state holds of every state. -/
theorem Session.Obeys.deeds {I : Context → List Deed → Prop} {P Q : List Deed → Prop}
    {s : Session σ} {events : List Event} (hs : s.Obeys I P events) (hI : ∀ c ds, I c ds → Q ds)
    (hP : ∀ ds, P ds → Q ds) (handle : Handle) : Q (deeds handle events) := by
  by_cases hx : ∃ i c, s.context? i = some c ∧ c.number = handle
  · obtain ⟨i, c, hi, rfl⟩ := hx
    exact hI c _ (hs.held i c hi)
  · exact hP _ (hs.freed handle fun i c hi hn => hx ⟨i, c, hi, hn⟩)

/-- A law holds all through a session that starts without contexts. -/
theorem Law.play {I : Context → List Deed → Prop} {P : List Deed → Prop} (law : Law I P)
    (toolchain : Toolchain) (w : World σ) (moves : List Move) :
    (Session.play compiler ⟨toolchain, w, []⟩ moves).1.Obeys I P
      (Session.play compiler ⟨toolchain, w, []⟩ moves).2 :=
  (Session.Obeys.empty law toolchain w).play compiler law moves

end EmbeddedC
