import EmbeddedC.Proofs.Linkage
import EmbeddedC.Proofs.Refusal
/-!
# Resolution

What the host has recorded for a context is what look-ups in it find and what its relocated code is
bound to. All other names are found as the units exported them.
-/

namespace EmbeddedC

open Scripted (Machine)

variable {σ : Type}

section Operations

variable (compiler : Compiler σ) {c : Context} {w : World σ} {handle : Handle}

/-- A symbol looked up in its time is what the compiler answers. -/
theorem Operation.result_getSymbol (hh : c.handle? = some handle) (hr : c.stage.isRelocated)
    {name : String} {t : CText} (ht : CText.ofString? name = some t) :
    ((Operation.getSymbol name).perform compiler ⟨c, w⟩).result =
      .ok (.address (compiler.call handle (.getSymbol t) w.outside).1.address.nonNull?) := by
  have hlive : c.ensureLive "get_symbol" = .ok () :=
    (Context.guards_ensureLive (b := true)).1 (Stage.live_of_isRelocated hr)
  have hcheck : (Operation.getSymbol name).check c = .ok (.lookUp t) := by
    simp [check, Context.checkLookUp, hlive, Context.ensure, hr, boundaryText, ht, Bind.bind,
      Except.bind, Pure.pure, Except.pure]
  rw [Operation.perform_of_check compiler (s := ⟨c, w⟩) hcheck]
  by_cases hs : c.stage = .finalized .resolved
  · simp [Task.perform, ContextAction.lookUp, ContextAction.call, Action.step, hh, World.call,
      ContextAction.advance, ContextAction.context, Action.get, Bind.bind, Action.bind, Pure.pure,
      Action.pure, hs]
  · simp [Task.perform, ContextAction.lookUp, ContextAction.call, Action.step, hh, World.call,
      ContextAction.advance, ContextAction.context, Action.get, Bind.bind, Action.bind, Pure.pure,
      Action.pure, hs, ContextAction.log, Action.emit, ContextAction.modify, Action.modify]

/-- The symbol that an operation asks to inject. -/
def Operation.symbol? : Operation → Option InjectedSymbol
  | injectFunction name _ address => some ⟨name, .function, address⟩
  | injectData name address => some ⟨name, .data, address⟩
  | injectRaw name kind address => some ⟨name, kind, address⟩
  | _ => none

theorem Operation.check_symbol {operation : Operation} {symbol : InjectedSymbol}
    (hk : operation.symbol? = some symbol) (c : Context) :
    (∃ e, operation.check c = .error e) ∨
      ∃ t, CText.ofString? symbol.name = some t ∧ operation.check c = .ok (.inject t symbol) := by
  have hinjection : (∃ e, injection symbol = .error e) ∨
      ∃ t, CText.ofString? symbol.name = some t ∧ injection symbol = .ok (.inject t symbol) := by
    unfold injection boundaryText
    cases ht : CText.ofString? symbol.name with
    | none => exact .inl ⟨_, rfl⟩
    | some t => exact .inr ⟨t, rfl, rfl⟩
  have hguarded : ∀ guard : Except BindError Unit,
      (∃ e, (guard >>= fun _ => injection symbol) = .error e) ∨
        ∃ t, CText.ofString? symbol.name = some t ∧
          (guard >>= fun _ => injection symbol) = .ok (.inject t symbol) := by
    intro guard
    cases guard with
    | error e => exact .inl ⟨e, rfl⟩
    | ok u => exact hinjection
  cases operation with
  | injectFunction name convention address =>
    cases hk
    simp only [check]
    cases c.ensureInjectable name with
    | error e => exact .inl ⟨e, rfl⟩
    | ok u => exact hguarded (c.ensureCallable name convention)
  | injectData name | injectRaw name =>
    cases hk
    exact hguarded (c.ensureInjectable name)
  | _ => cases hk

/-- An injection that the compiler accepts is recorded, and one that it refuses leaves no trace. -/
theorem Task.perform_inject (hh : c.handle? = some handle) (t : CText) (symbol : InjectedSymbol) :
    let a := compiler.call handle (.addSymbol t symbol.address) w.outside
    let o := (Task.inject t symbol).perform compiler ⟨c, w⟩
    o.state.world.outside = a.2.2 ∧
      (a.1.status < 0 → (∃ e, o.result = .error e) ∧ o.state.context = c) ∧
      (0 ≤ a.1.status → o.result = .ok .none ∧
        o.state.context = { c with symbols := (c.symbols.record symbol).2 }) := by
  rcases ha : compiler.call handle (.addSymbol t symbol.address) w.outside with ⟨answer, sent, left⟩
  by_cases hs : answer.status < 0
  · simp [Task.perform, ContextAction.silent, ContextAction.inject, ContextAction.call,
      Action.step, hh, World.call, ha, hs, Action.fail, Bind.bind, Action.bind, World.absorb_outside,
      Int32.not_le.2 hs]
  · simp [Task.perform, ContextAction.silent, ContextAction.inject, ContextAction.call,
      Action.step, hh, World.call, ha, hs, Bind.bind, Action.bind, World.absorb_outside,
      ContextAction.context, Action.get, Pure.pure, Action.pure, ContextAction.modify,
      Action.modify, ContextAction.log, Action.emit]

end Operations

namespace Scripted

/-- What becomes of a look-up when one name is added. -/
theorem State.Gains.lookup_injected {s s' : State} {name : String} {address : Address}
    (h : s.Gains { injected := [(name, address)] } s') (other : String) :
    s'.lookup other = if other = name then address else s.lookup other := by
  unfold State.lookup
  rw [h.injected, h.defined, List.append_nil, lookup_latest]
  split <;> rfl

theorem State.Gains.lookup_kept {s s' : State} (h : s.Gains {} s') (other : String) :
    s'.lookup other = s.lookup other := by
  unfold State.lookup
  rw [h.injected, h.defined, List.append_nil, List.append_nil]

end Scripted

namespace Context

/-- What both sides have for a name: the host's record, and what the compiler finds. -/
def sees (c : Context) (w : World Machine) (name : String) : Option InjectedSymbol × Address :=
  (c.symbols.get? name, (w.outside.state c.number).lookup name)

variable {c : Context} {w w' : World Machine}

theorem sees_recorded (hc : c.symbols.Indexed) {symbol : InjectedSymbol}
    (hg : (w.outside.state c.number).Gains { injected := [(symbol.name, symbol.address)] }
      (w'.outside.state c.number)) (name : String) :
    { c with symbols := (c.symbols.record symbol).2 }.sees w' name =
      if name = symbol.name then (some symbol, symbol.address) else c.sees w name := by
  simp only [sees, hg.lookup_injected, SymbolTable.get?_record hc]
  split <;> rfl

theorem sees_kept (hg : (w.outside.state c.number).Gains {} (w'.outside.state c.number)) :
    c.sees w' = c.sees w := by
  funext name
  simp only [sees, hg.lookup_kept]

end Context

namespace Session

open Scripted

/-- Where a session of the scripted compiler has got to: in order, with true records, and linked. -/
private structure Reached (s : Session Machine) (log : List (Exchange Machine))
    (events : List Event) : Prop where
  ordered : s.Obeys (fun c ds => c.Tracks ds ∧ Heeds InOrder ds) (Heeds InOrder) events
  recorded : s.Obeys Context.Records (fun _ => True) events
  linked : Linked events { s.world with outside := (s.world.outside, log) }

private theorem reached (toolchain : Toolchain) {m : Machine} (hf : m.forced = [])
    (hm : m.states = []) (moves : List Move) :
    let start : Session Machine := ⟨toolchain, { outside := m }, []⟩
    Reached (start.play Scripted.compiler moves).1 (start.exchanges Scripted.compiler moves)
      (start.play Scripted.compiler moves).2 := by
  intro start
  have hwithin : ∀ i c, start.watched.context? i = some c → c.Within start.watched.world := by
    intro i c hi
    simp [watched, start, context?] at hi
  have hstart : Linked [] start.watched.world := by
    have hstate : ∀ handle, m.state handle = { alive := false } := by
      intro handle
      simp [Machine.state, hm]
    constructor
    · exact congrArg List.length hm
    · constructor
      · exact hf
      all_goals
        intro handle
        simp only [watched, start, hstate]
        rfl
    · exact fun _ => rfl
    · exact heeds_nil
  have hlinked := Linked.passage.play (fun handle sink? h => h.setSink handle sink?)
    (fun sent h => h.absorb sent) hwithin hstart moves
  have hplay := play_unwatched Scripted.compiler hwithin moves
  have hsame : start.watched.unwatched = start := rfl
  rw [hsame] at hplay
  constructor
  · exact InOrder.law.play Scripted.compiler toolchain { outside := m } moves
  · exact law_records.play Scripted.compiler toolchain { outside := m } moves
  · rw [hplay]
    exact hlinked

namespace Reached

variable {s : Session Machine} {log : List (Exchange Machine)} {events : List Event} {i : Nat}
  {c : Context} (h : Reached s log events) (hi : s.context? i = some c)
include h hi

/-- A look-up finds what is recorded, else what was exported. -/
theorem lookup_eq (hl : c.stage ≠ .disposed) (name : String) :
    (s.world.outside.state c.number).lookup name =
      (((c.symbols.get? name).map (·.address)).or ((exported c.number log).lookup name)).getD
        .null := by
  have hrecords := (h.recorded.held i c hi).latest hl name
  have hseen : accepted (calls c.number log) = injections (deeds c.number events) :=
    congrArg accepted (h.linked.seen c.number)
  rw [hrecords, ← hseen]
  exact h.linked.holds.lookup c.number name

theorem getSymbol_eq (hr : c.stage.isRelocated) {name : String} {t : CText}
    (ht : CText.ofString? name = some t) :
    ((Operation.getSymbol name).perform Scripted.compiler ⟨c, s.world⟩).result =
      .ok (.address ((s.world.outside.state c.number).lookup name).nonNull?) := by
  have hl := Stage.live_of_isRelocated hr
  have hh := (h.recorded.coherent i c hi).handle_of_live hl
  have hcall : Scripted.compiler.call c.number (.getSymbol t) s.world.outside =
      s.world.outside.answer c.number (.getSymbol t) :=
    Machine.call_unforced h.linked.holds.unforced _ _
  rw [Operation.result_getSymbol Scripted.compiler hh hr ht, hcall]
  simp only [Machine.answer, CText.text_of_ofString? ht]

/-- A name on record is found at its address. -/
theorem getSymbol_recorded (hr : c.stage.isRelocated) {name : String} {symbol : InjectedSymbol}
    (hs : c.symbols.get? name = some symbol) :
    ((Operation.getSymbol name).perform Scripted.compiler ⟨c, s.world⟩).result =
      .ok (.address symbol.address.nonNull?) := by
  obtain ⟨t, ht⟩ := (h.recorded.held i c hi).crossed name symbol hs
  rw [h.getSymbol_eq hi hr ht, h.lookup_eq hi (Stage.live_of_isRelocated hr), hs]
  rfl

theorem getSymbol_exported (hr : c.stage.isRelocated) {name : String}
    (hn : '\x00' ∉ name.toList) (hs : c.symbols.get? name = none) :
    ((Operation.getSymbol name).perform Scripted.compiler ⟨c, s.world⟩).result =
      .ok (.address (((exported c.number log).lookup name).getD .null).nonNull?) := by
  obtain ⟨t, ht⟩ := CText.exists_of_no_nul hn
  rw [h.getSymbol_eq hi hr ht, h.lookup_eq hi (Stage.live_of_isRelocated hr), hs]
  rfl

theorem isRelocated (hl : c.stage ≠ .disposed) {left : Machine}
    (hleft : left ∈ log.filterMap (Exchange.placed? c.number)) : c.stage.isRelocated := by
  rw [(h.ordered.held i c hi).1.relocated hl]
  exact h.linked.relocates hleft

/-- A relocation has bound recorded names to the addresses on record. -/
theorem slot_recorded (hl : c.stage ≠ .disposed) {left : Machine}
    (hleft : left ∈ log.filterMap (Exchange.placed? c.number)) {name : String}
    {symbol : InjectedSymbol} (hs : c.symbols.get? name = some symbol)
    (hname : name ∈ imported c.number log) : left.slot name = symbol.address := by
  have hbound := h.linked.bound (h.ordered.held i c hi).2 hleft name hname
  have hlookup := h.lookup_eq hi hl name
  rw [hs] at hlookup
  rw [hbound, ← h.linked.holds.lookup]
  exact hlookup

/-- What the compiler's state gains by an injection. -/
theorem gains_addSymbol (t : CText) (address : Address) :
    let o := Scripted.compiler.call c.number (.addSymbol t address) s.world.outside
    (s.world.outside.state c.number).Gains
      (if 0 ≤ o.1.status then { injected := [(t.text, address)] } else {})
      (o.2.2.state c.number) := by
  have hlt : c.number < s.world.outside.states.length := by
    rw [h.linked.states]
    exact h.recorded.known i c hi
  have hcall : Scripted.compiler.call c.number (.addSymbol t address) s.world.outside =
      s.world.outside.answer c.number (.addSymbol t address) :=
    Machine.call_unforced h.linked.holds.unforced _ _
  rw [hcall]
  exact (Machine.answer_extends hlt (.addSymbol t address)).gained

theorem injects_task (hl : c.stage ≠ .disposed) {t : CText} {symbol : InjectedSymbol}
    (ht : CText.ofString? symbol.name = some t) :
    let o := (Task.inject t symbol).perform Scripted.compiler ⟨c, s.world⟩
    (∀ value, o.result = .ok value → ∀ name, o.state.context.sees o.state.world name =
        if name = symbol.name then (some symbol, symbol.address) else c.sees s.world name) ∧
      ∀ e, o.result = .error e → o.state.context.sees o.state.world = c.sees s.world := by
  intro o
  have hh := (h.recorded.coherent i c hi).handle_of_live hl
  obtain ⟨hworld, hrefused, haccepted⟩ :=
    Task.perform_inject Scripted.compiler (w := s.world) hh t symbol
  have hgains := h.gains_addSymbol hi t symbol.address
  dsimp only at hgains
  rw [← hworld, CText.text_of_ofString? ht] at hgains
  by_cases hs : (Scripted.compiler.call c.number (.addSymbol t symbol.address)
      s.world.outside).1.status < 0
  · obtain ⟨⟨e, he⟩, hcontext⟩ := hrefused hs
    rw [if_neg (Int32.not_le.2 hs)] at hgains
    constructor
    · intro value hvalue
      exact nomatch he.symm.trans hvalue
    · intro _ _
      rw [hcontext]
      exact Context.sees_kept hgains
  · have hs := Int32.not_lt.1 hs
    obtain ⟨hok, hcontext⟩ := haccepted hs
    rw [if_pos hs] at hgains
    constructor
    · intro _ _ name
      rw [hcontext]
      exact Context.sees_recorded (h.recorded.held i c hi).indexed hgains name
    · intro e he
      exact nomatch hok.symm.trans he

/-- An injection is seen on both sides or on neither. -/
theorem injects {operation : Operation} {symbol : InjectedSymbol}
    (hk : operation.symbol? = some symbol) :
    let o := operation.perform Scripted.compiler ⟨c, s.world⟩
    (∀ value, o.result = .ok value → ∀ name, o.state.context.sees o.state.world name =
        if name = symbol.name then (some symbol, symbol.address) else c.sees s.world name) ∧
      ∀ e, o.result = .error e → o.state.context.sees o.state.world = c.sees s.world := by
  rcases operation.check_symbol hk c with ⟨e, he⟩ | ⟨t, ht, hcheck⟩
  · rw [operation.perform_of_check_error Scripted.compiler (s := ⟨c, s.world⟩) he]
    constructor
    · intro value hvalue
      exact nomatch hvalue
    · exact fun _ _ => rfl
  · rw [operation.perform_of_check Scripted.compiler (s := ⟨c, s.world⟩) hcheck]
    exact h.injects_task hi ((operation.checks c).of_ok _ hcheck).2.live ht

end Reached

/-- Once a context is relocated, what it has on record is what look-ups find, now and as long as it
lives, and what its code was bound to; other names are found as the units exported them. Before that,
an injection that is accepted is seen on both sides, and one that is refused on neither. -/
theorem record_links (toolchain : Toolchain) (m : Machine) (hf : m.forced = [])
    (hm : m.states = []) (moves : List Move) (i : Nat) (c : Context) :
    let start : Session Machine := ⟨toolchain, { outside := m }, []⟩
    let s := (start.play Scripted.compiler moves).1
    let log := start.exchanges Scripted.compiler moves
    let find (c : Context) (w : World Machine) (name : String) : Except BindError Value :=
      ((Operation.getSymbol name).perform Scripted.compiler ⟨c, w⟩).result
    s.context? i = some c →
      (∀ left, c.stage ≠ .disposed →
        (log.filterMap (Exchange.placed? c.number)).getLast? = some left →
          (∀ name symbol, c.symbols.get? name = some symbol →
            (name ∈ imported c.number log → left.slot name = symbol.address) ∧
              ∀ more c', let s' := (s.play Scripted.compiler more).1
                s'.context? i = some c' → c'.stage ≠ .disposed → c'.symbols = c.symbols ∧
                  find c' s'.world name = .ok (.address symbol.address.nonNull?)) ∧
            ∀ name, '\x00' ∉ name.toList → c.symbols.get? name = none →
              find c s.world name =
                .ok (.address (((exported c.number log).lookup name).getD .null).nonNull?)) ∧
        ∀ (operation : Operation) (symbol : InjectedSymbol), operation.symbol? = some symbol →
          let o := operation.perform Scripted.compiler ⟨c, s.world⟩
          (∀ value, o.result = .ok value → ∀ name, o.state.context.sees o.state.world name =
              if name = symbol.name then (some symbol, symbol.address)
              else c.sees s.world name) ∧
            ∀ e, o.result = .error e → o.state.context.sees o.state.world = c.sees s.world := by
  intro start s log find hi
  have hs := reached toolchain hf hm moves
  refine ⟨?_, fun operation symbol => hs.injects hi⟩
  intro left hl hlast
  have hleft := List.mem_of_getLast? hlast
  have hr := hs.isRelocated hi hl hleft
  refine ⟨?_, fun name => hs.getSymbol_exported hi hr⟩
  intro name symbol hsymbol
  refine ⟨hs.slot_recorded hi hl hleft hsymbol, ?_⟩
  intro more c' s' hi' hl'
  have hplay : s' = (start.play Scripted.compiler (moves ++ more)).1 := by
    rw [play_append]
  -- the context has come from the one held then, and nothing has been recorded since
  obtain ⟨d, ds, hd, hreaches⟩ :=
    hs.recorded.reaches Scripted.compiler law_records more (lt_of_context? hi) hi'
  cases hi.symm.trans hd
  obtain ⟨hr', hsymbols⟩ := (hreaches.recordSealed hr).resolve_left hl'
  have hs' := reached toolchain hf hm (moves ++ more)
  refine ⟨hsymbols, ?_⟩
  rw [hplay] at hi' ⊢
  exact hs'.getSymbol_recorded hi' hr' (hsymbols ▸ hsymbol)

/-- A symbol injected twice is linked to its second address, and found there even after a third
attempt. -/
theorem reinjected_symbol_links :
    let toolchain : Toolchain := ⟨⟨.wide, ⟨[]⟩⟩, ⟨⟨[]⟩⟩, {}⟩
    let machine : Machine := { files := {} }
    let moves : List Move := [.openContext true, .perform 0 (.injectRaw "x" .data (.word 1)),
      .perform 0 (.injectRaw "x" .data (.word 2)), .perform 0 (.compileString "//import x"),
      .perform 0 .relocate]
    let more : List Move := [.perform 0 (.injectRaw "x" .data (.word 3))]
    let start : Session Machine := ⟨toolchain, { outside := machine }, []⟩
    let s := (start.play Scripted.compiler moves).1
    let log := start.exchanges Scripted.compiler moves
    let s' := (s.play Scripted.compiler more).1
    let c : Context := { Context.fresh toolchain.table 0 with
      stage := .relocated
      typeFixed := true
      relocateAttempted := true
      symbols := ⟨[⟨"x", .data, .word 2⟩], [("x", 0)]⟩ }
    s'.context? 0 = some c ∧
      (∃ left, (log.filterMap (Exchange.placed? 0)).getLast? = some left ∧
        left.slot "x" = .word 2) ∧
      ((Operation.getSymbol "x").perform Scripted.compiler ⟨c, s'.world⟩).result =
        .ok (.address (some (.word 2))) := by
  intro toolchain machine moves more start s log s' c
  have hc : s.context? 0 = some c := by decide +kernel
  have hc' : s'.context? 0 = some c := by decide +kernel
  have hplaced : ((log.filterMap (Exchange.placed? 0)).getLast?).isSome := by decide +kernel
  have himported : "x" ∈ imported 0 log := by decide +kernel
  have hrecord : c.symbols.get? "x" = some ⟨"x", .data, .word 2⟩ := rfl
  obtain ⟨left, hleft⟩ := Option.isSome_iff_exists.1 hplaced
  obtain ⟨hlinks, _⟩ := record_links toolchain machine rfl rfl moves 0 c hc
  obtain ⟨hslot, hfind⟩ := (hlinks left (by decide) hleft).1 "x" _ hrecord
  have hbound : left.slot "x" = .word 2 := hslot himported
  have hfound := (hfind more c hc' (by decide)).2
  refine ⟨hc', ⟨left, hleft, hbound⟩, ?_⟩
  -- the two sides must agree in form, or the session is run to compare them
  dsimp +zetaDelta only at hfound ⊢
  exact hfound

end Session

end EmbeddedC
