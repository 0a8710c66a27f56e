import EmbeddedC.Proofs.Session
/-!
# The life of a state

A state is created and gets its error function, is used, and is deleted: once each, in this order.
No context leaks its state, uses another's, or uses its own after the end, whichever way it ends.
-/

namespace EmbeddedC

/-- Neither how a state begins nor how it ends. -/
def Deed.isOrdinary : Deed → Bool
  | created | called .setErrorFunc _ | called .delete _ => false
  | _ => true

/-- A state in use. -/
def InUse (ds : List Deed) : Prop :=
  ∃ answer rest, ds = .created :: .called .setErrorFunc answer :: rest ∧ ∀ d ∈ rest, d.isOrdinary

/-- A state that was in use until it was deleted. -/
def Deleted (ds : List Deed) : Prop :=
  ∃ before answer, InUse before ∧ ds = before ++ [.called .delete answer]

variable {ds ds' : List Deed}

theorem InUse.append (h : InUse ds) (h' : ∀ d ∈ ds', d.isOrdinary) : InUse (ds ++ ds') := by
  obtain ⟨answer, rest, rfl, hr⟩ := h
  exact ⟨answer, rest ++ ds', by simp, fun d hd => (List.mem_append.1 hd).elim (hr d) (h' d)⟩

theorem InUse.delete (h : InUse ds) (answer : Answer) : Deleted (ds ++ [.called .delete answer]) :=
  ⟨ds, answer, h, rfl⟩

theorem InUse.created (h : InUse ds) : .created ∈ ds := by
  obtain ⟨_, rest, rfl, _⟩ := h
  exact List.mem_cons_self

theorem InUse.not_deleted (h : InUse ds) (answer : Answer) : .called .delete answer ∉ ds := by
  obtain ⟨_, rest, rfl, hr⟩ := h
  intro hm
  simp only [List.mem_cons, reduceCtorEq, Deed.called.injEq, false_and, false_or] at hm
  exact Bool.noConfusion (hr _ hm)

theorem InUse.before_call (h : InUse ds) {before after : List Deed} {request : Request}
    {answer : Answer} (hs : ds = before ++ .called request answer :: after) :
    .created ∈ before ∧ ∀ a, .called .delete a ∉ before := by
  constructor
  · obtain ⟨_, rest, rfl, _⟩ := h
    cases before with
    | nil => exact nomatch List.head_eq_of_cons_eq hs
    | cons d before =>
      rw [← List.head_eq_of_cons_eq hs]
      exact List.mem_cons_self
  · intro a ha
    have := h.not_deleted a
    rw [hs] at this
    exact this (List.mem_append_left _ ha)

theorem Deleted.before_call (h : Deleted ds) {before after : List Deed} {request : Request}
    {answer : Answer} (hs : ds = before ++ .called request answer :: after) :
    .created ∈ before ∧ ∀ a, .called .delete a ∉ before := by
  obtain ⟨used, a, hu, rfl⟩ := h
  rcases append_singleton_eq_iff.1 hs with ⟨rfl, _, _⟩ | ⟨after', _, hused⟩
  · exact ⟨hu.created, hu.not_deleted⟩
  · exact hu.before_call hused

/-- A deed on a deleted state would be one too many. -/
theorem Deleted.eq_nil (h : Deleted ds)
    (h' : InUse (ds ++ ds') ∨ ds ++ ds' = [] ∨ Deleted (ds ++ ds')) : ds' = [] := by
  obtain ⟨used, answer, hused, rfl⟩ := h
  rcases h' with huse | hnil | ⟨used', answer', hused', heq⟩
  · exact absurd (by simp) (huse.not_deleted answer)
  · simp at hnil
  · rcases List.eq_nil_or_concat ds' with rfl | ⟨more, d, rfl⟩
    · rfl
    · rw [List.concat_eq_append, ← List.append_assoc] at heq
      obtain ⟨rfl, _⟩ := List.append_inj' heq rfl
      exact absurd (by simp) (hused'.not_deleted answer)

namespace Task

variable {c c' : Context} {task : Task}

private theorem ordinary_fixType (hf : c.FixesType ds c') : ∀ d ∈ ds, d.isOrdinary := by
  cases hf with
  | known => simp
  | sent => simp [Deed.isOrdinary]

private theorem ordinary_hook : ∀ d ∈ c.hookDeeds, d.isOrdinary := by
  unfold Context.hookDeeds
  cases c.hook? <;> simp [Deed.isOrdinary]

/-- A task uses the state of a context, or ends both. -/
theorem Does.ordinary {r : Except BindError Value} (ht : task.Timely c) (hd : task.Does c ds r c') :
    c'.stage ≠ .disposed ∧ (∀ d ∈ ds, d.isOrdinary) ∨
      c'.stage = .disposed ∧ ∃ answer, ds = [.called .delete answer] := by
  have hl := ht.live
  cases hd with
  | libraryAdded hf answer | libraryRefused hf answer =>
    have hl' := Stage.live_of_isOpen (hf.isOpen ht)
    refine .inl ⟨by simpa [Context.configured_disposed_iff] using hl', ?_⟩
    exact List.forall_mem_append.2 ⟨ordinary_fixType hf, by simp [Deed.isOrdinary]⟩
  | compiled hf | compileFailed hf =>
    refine .inl ⟨by simp [Stage.live_of_isOpen (hf.isOpen ht)], ?_⟩
    refine List.forall_mem_append.2 ⟨ordinary_fixType hf, ?_⟩
    exact List.forall_mem_append.2 ⟨ordinary_hook, by simp [Deed.isOrdinary]⟩
  | disposed answer => exact .inr ⟨rfl, answer, rfl⟩
  | _ => exact .inl (by simp_all [Context.configured_disposed_iff, Deed.isOrdinary])

end Task

/-- What has been done with the state of a context, as its stage has it. -/
def Context.Minds (c : Context) (ds : List Deed) : Prop :=
  if c.stage = .disposed then Deleted ds else InUse ds

theorem law_minds : Law Context.Minds fun ds => ds = [] ∨ Deleted ds where
  idle := .inl rfl
  fresh _ _ answer := ⟨answer, [], rfl, by simp⟩
  task := by
    intro c c' task ds ds' r hc hI ht hd
    rw [Context.Minds, if_neg ht.live] at hI
    rcases hd.ordinary ht with ⟨hl, ho⟩ | ⟨hl, answer, rfl⟩
    · rw [Context.Minds, if_neg hl]
      exact hI.append ho
    · rw [Context.Minds, if_pos hl]
      exact hI.delete answer
  release := by
    intro c ds ds' hc hI hr
    cases hr with
    | released hn =>
      rw [Context.Minds, if_pos (hc.handle_eq_none_iff.1 hn)] at hI
      rw [List.append_nil]
      exact .inr hI
    | deleted answer hn =>
      rw [Context.Minds, if_neg fun hd => hn (hc.handle_eq_none_iff.2 hd)] at hI
      exact .inr (hI.delete answer)

namespace Session

variable {σ : Type} (compiler : Compiler σ)

/-- A session that looks after its states, given all events so far. -/
structure Tends (s : Session σ) (events : List Event) : Prop where
  /-- A state that a context holds is in use, and no other context holds it. -/
  inUse : ∀ i c handle, s.context? i = some c → c.handle? = some handle →
    InUse (deeds handle events) ∧
      ∀ j d, s.context? j = some d → d.handle? = some handle → j = i
  /-- A state that no context holds any more is deleted. -/
  deleted : ∀ handle, .created (some handle) ∈ events →
    (∀ i c, s.context? i = some c → c.handle? ≠ some handle) → Deleted (deeds handle events)
  /-- No call is made without a state, on one that does not exist, or on one that is deleted. -/
  live : ∀ before state? request answer after,
    events = before ++ .called state? request answer :: after →
      ∃ handle, state? = some handle ∧ .created (some handle) ∈ before ∧
        ∀ a, .called (some handle) .delete a ∉ before
  disposed : ∀ i c, s.context? i = some c → (c.handle? = none ↔ c.stage = .disposed)

/-- What a move calls, it calls on the state of the context that it is about, or on a new one. -/
def CallsOwn (s : Session σ) (m : Move) : Prop :=
  ∀ state? request answer, .called state? request answer ∈ (move compiler m s).events →
    ∃ handle, state? = some handle ∧
      ((∃ i c, m.index? = some i ∧ s.context? i = some c ∧ c.handle? = some handle) ∨
        (∃ bare, m = .openContext bare) ∧ .created (some handle) ∈ (move compiler m s).events)

variable {compiler} {s s' : Session σ} {m : Move} {events : List Event}

private theorem Leads.addressed (hm : s.Leads m events s') (request : Request) (answer : Answer) :
    .called none request answer ∉ events := by
  intro he
  cases hm with
  | idle hq =>
    rcases hq _ he with h | h
    · exact Bool.noConfusion h
    · exact nomatch h
  | worked _ _ hk | dropped _ hk => exact nomatch hk _ he
  | opened _ hk | abandoned _ hk =>
    rcases List.mem_cons.1 he with h | h
    · exact nomatch h
    · exact nomatch hk _ h

private theorem Obeys.addressed (compiler : Compiler σ) {I : Context → List Deed → Prop}
    {P : List Deed → Prop} (law : Law I P) (hs : s.Obeys I P events) (moves : List Move)
    (request : Request) (answer : Answer) : .called none request answer ∉ (s.play compiler moves).2 := by
  induction moves generalizing s events with
  | nil => simp [Session.play]
  | cons m rest ih =>
    intro he
    rcases List.mem_append.1 he with he | he
    · exact (leads_move compiler m s hs.coherent).addressed request answer he
    · exact ih (hs.move compiler law m) he

private theorem callsOwn (hs : ∀ i c, s.context? i = some c → c.Coherent) (m : Move) :
    s.CallsOwn compiler m := by
  intro state? request answer he
  have hm := leads_move compiler m s hs
  generalize (move compiler m s).events = events at hm he
  generalize (move compiler m s).state = s' at hm
  cases hm with
  | idle hq =>
    rcases hq _ he with h | h
    · exact Bool.noConfusion h
    · exact nomatch h
  | @worked _ i c _ _ _ hm hi hk hr =>
    cases (hk _ he : state? = some c.number)
    refine ⟨c.number, rfl, .inl ⟨i, c, hm, hi, (hs i c hi).handle_of_live fun hd => ?_⟩⟩
    have hmem := called_mem_deeds.2 he
    rw [hr.deeds_of_disposed hd] at hmem
    exact nomatch hmem
  | @dropped i c _ _ hi hk hr =>
    cases (hk _ he : state? = some c.number)
    refine ⟨c.number, rfl, .inl ⟨i, c, rfl, hi, (hs i c hi).handle_of_live fun hd => ?_⟩⟩
    have hmem := called_mem_deeds.2 he
    generalize deeds c.number events = ds at hr hmem
    cases hr with
    | released => exact nomatch hmem
    | deleted _ hn => exact hn ((hs i c hi).handle_eq_none_iff.2 hd)
  | @opened bare _ _ _ _ _ hk | @abandoned bare _ _ _ _ _ _ hk =>
    rcases List.mem_cons.1 he with h | h
    · exact nomatch h
    · exact ⟨_, hk _ h, .inr ⟨⟨bare, rfl⟩, List.mem_cons_self⟩⟩

private theorem deeds_split {before after : List Event} {handle : Handle} {request : Request}
    {answer : Answer} (he : events = before ++ .called (some handle) request answer :: after) :
    deeds handle events = deeds handle before ++ .called request answer :: deeds handle after := by
  simp [he, deeds_cons, Event.deed?]

private theorem tends_of_obeys (hs : s.Obeys Context.Minds (fun ds => ds = [] ∨ Deleted ds) events)
    (ha : ∀ request answer, .called none request answer ∉ events) : s.Tends events where
  inUse i c handle hi hh := by
    obtain ⟨hn, hl⟩ := (hs.coherent i c hi).of_handle hh
    have hminds := hs.held i c hi
    rw [Context.Minds, if_neg hl, hn] at hminds
    refine ⟨hminds, fun j d hj hdh => ?_⟩
    exact hs.apart j i d c hj hi (((hs.coherent j d hj).of_handle hdh).1.trans hn.symm)
  deleted handle hcreated hfree := by
    by_cases hx : ∃ i c, s.context? i = some c ∧ c.number = handle
    · obtain ⟨i, c, hi, hn⟩ := hx
      have hd : c.stage = .disposed := Decidable.byContradiction fun hl =>
        hfree i c hi (hn ▸ (hs.coherent i c hi).handle_of_live hl)
      have hminds := hs.held i c hi
      rwa [Context.Minds, if_pos hd, hn] at hminds
    · refine (hs.freed handle fun i c hi hn => hx ⟨i, c, hi, hn⟩).resolve_left fun hnil => ?_
      have hmem := created_mem_deeds.2 hcreated
      rw [hnil] at hmem
      exact nomatch hmem
  live before state? request answer after he := by
    cases state? with
    | none => exact absurd (by simp [he]) (ha request answer)
    | some handle =>
      have hsplit := deeds_split he
      have hbefore : .created ∈ deeds handle before ∧
          ∀ a, .called .delete a ∉ deeds handle before := by
        have hkind : InUse (deeds handle events) ∨ deeds handle events = [] ∨
            Deleted (deeds handle events) := by
          refine hs.deeds (Q := fun ds => InUse ds ∨ ds = [] ∨ Deleted ds)
            (fun c ds hI => ?_) (fun ds => .inr) handle
          unfold Context.Minds at hI
          split at hI
          · exact .inr (.inr hI)
          · exact .inl hI
        rcases hkind with h | h | h
        · exact h.before_call hsplit
        · simp [h] at hsplit
        · exact h.before_call hsplit
      refine ⟨handle, rfl, created_mem_deeds.1 hbefore.1, fun a hm => ?_⟩
      exact hbefore.2 a (called_mem_deeds.2 hm)
  disposed i c hi := (hs.coherent i c hi).handle_eq_none_iff

section Close

private theorem context?_drop (s : Session σ) (i j : Nat) :
    (move compiler (.drop i) s).state.context? j = if j = i then none else s.context? j := by
  simp only [move, drop]
  cases hi : s.context? i with
  | none =>
    by_cases hj : j = i
    · rw [if_pos hj, hj, hi]
    · rw [if_neg hj]
  | some c => exact context?_set hi rfl j

private theorem context?_play_drop (indices : List Nat) (s : Session σ) (j : Nat) :
    (s.play compiler (indices.map .drop)).1.context? j =
      if j ∈ indices then none else s.context? j := by
  induction indices generalizing s with
  | nil => simp [play]
  | cons i rest ih =>
    have h := ih (move compiler (.drop i) s).state
    rw [context?_drop] at h
    simp only [List.map_cons, play, h, List.mem_cons]
    by_cases hj : j = i <;> by_cases hr : j ∈ rest <;> simp [hj, hr]

theorem context?_close (s : Session σ) (j : Nat) : (s.close compiler).1.context? j = none := by
  rw [close, context?_play_drop]
  by_cases hj : j < s.contexts.length
  · rw [if_pos (List.mem_range.2 hj)]
  · rw [if_neg fun h => hj (List.mem_range.1 h)]
    simp [context?, List.getElem?_eq_none (Nat.le_of_not_lt hj)]

end Close

variable (compiler)

/-- Where no state can be had, none is used: nothing but its creation is tried. -/
structure Refuses (s : Session σ) : Prop where
  mismatch : ∀ bare, s.toolchain.table.abi.isHost = false →
    let o := move compiler (.openContext bare) s
    o.result = .error (.bind (.load (.abiMismatch s.toolchain.table.abi pointerBits))) ∧
      o.events = []
  exhausted : ∀ bare, s.toolchain.table.abi.isHost → (compiler.create s.world.outside).1 = false →
    let o := move compiler (.openContext bare) s
    o.result = .error (.bind .createFailed) ∧ o.events = [.created none]

private theorem openContext_of_create_error {s : Session σ} {e : BindError} {w : World σ}
    (bare : Bool) (hc : Context.create compiler s.toolchain.table s.world = ⟨.error e, w, events⟩) :
    move compiler (.openContext bare) s = ⟨.error (.bind e), { s with world := w }, events⟩ := by
  cases bare <;>
    simp [move, openContext, Toolchain.openContext, Bind.bind, Action.bind, hc]

theorem refuses (s : Session σ) : s.Refuses compiler where
  mismatch bare hh := by
    rw [openContext_of_create_error compiler bare (Context.create_mismatch compiler hh s.world)]
    exact ⟨rfl, rfl⟩
  exhausted bare hh hc := by
    have hcreate : compiler.create s.world.outside =
        (false, (compiler.create s.world.outside).2) := by rw [← hc]
    rw [openContext_of_create_error compiler bare (Context.create_exhausted compiler hh hcreate)]
    exact ⟨rfl, rfl⟩

/-- States are looked after all through a session and its end: each is created, gets its error
function, is used by its own context only, and is deleted. -/
theorem tends_states (toolchain : Toolchain) (w : World σ) (moves : List Move) :
    let s := (play compiler ⟨toolchain, w, []⟩ moves).1
    let events := (play compiler ⟨toolchain, w, []⟩ moves).2
    s.Tends events ∧ (∀ m, s.CallsOwn compiler m) ∧ s.Refuses compiler ∧
      (s.close compiler).1.Tends (events ++ (s.close compiler).2) ∧
      ∀ i, (s.close compiler).1.context? i = none := by
  intro s events
  have hempty := Obeys.empty law_minds toolchain w
  have hs : s.Obeys _ _ events := hempty.play compiler law_minds moves
  have ha := hempty.addressed compiler law_minds moves
  refine ⟨tends_of_obeys hs ha, callsOwn hs.coherent, s.refuses compiler, ?_, context?_close s⟩
  refine tends_of_obeys (hs.play compiler law_minds _) fun request answer hm => ?_
  rcases List.mem_append.1 hm with hm | hm
  · exact ha request answer hm
  · exact hs.addressed compiler law_minds _ request answer hm

end Session

end EmbeddedC
