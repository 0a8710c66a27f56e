import EmbeddedC.Scripted.Code
/-!
# Symbols of scripted states

A state of the scripted compiler gains symbols and imports by what is asked of it, keeps all it has,
and is not touched by what is asked of others. When it is relocated each of its imports is bound to
what a look-up of it gives.
-/

namespace EmbeddedC.Scripted

/-- Symbols and imports that come to those a state has. -/
structure Gain where
  defined : List (String × Address) := []
  imports : List String := []
  injected : List (String × Address) := []

instance : Append Gain where
  append g h := ⟨g.defined ++ h.defined, g.imports ++ h.imports, g.injected ++ h.injected⟩

def Export.address : Export → Address
  | returning _ => .compiled "ret"
  | code label => .compiled label
  | word value => .word value
  | nothing => .null

def Directive.gain : Directive → Gain
  | exports name value => { defined := [(name, value.address)] }
  | imports name => { imports := [name] }
  | warning _ | error _ => {}

/-- What directives come to, one after the other. -/
def gains (lines : List (Nat × Directive)) : Gain where
  defined := lines.flatMap (·.2.gain.defined)
  imports := lines.flatMap (·.2.gain.imports)

/-- A state with all it had before and what it has gained. -/
structure State.Gains (s : State) (g : Gain) (s' : State) : Prop where
  defined : s'.defined = s.defined ++ g.defined
  imports : s'.imports = s.imports ++ g.imports
  injected : s'.injected = s.injected ++ g.injected

namespace State.Gains

variable {s s' s'' : State} {g g' : Gain}

/-- A state that has changed in other ways. -/
theorem kept (hd : s'.defined = s.defined) (hi : s'.imports = s.imports)
    (hj : s'.injected = s.injected) : s.Gains {} s' := by
  constructor
  · rw [hd, List.append_nil]
  · rw [hi, List.append_nil]
  · rw [hj, List.append_nil]

theorem refl (s : State) : s.Gains {} s :=
  kept rfl rfl rfl

theorem trans (h : s.Gains g s') (h' : s'.Gains g' s'') : s.Gains (g ++ g') s'' := by
  constructor
  · rw [h'.defined, h.defined, List.append_assoc]
    rfl
  · rw [h'.imports, h.imports, List.append_assoc]
    rfl
  · rw [h'.injected, h.injected, List.append_assoc]
    rfl

end State.Gains

namespace Machine

/-- The source of a unit, if it can be read. -/
def source? (m : Machine) : SourceUnit → Option String
  | .text source => some source.text
  | .file path => (m.files.readText ⟨path.bytes⟩).toOption

/-- What the greeting unit comes to beside its directives. -/
def greetingGain (m : Machine) (source : String) : Gain :=
  if m.greeting && (source.splitOn greetingText).length > 1 then
    { defined := [("foo", .compiled "greet")], imports := ["add", "hello"] }
  else {}

/-- What a source comes to, whether it compiles or not. -/
def sourceGain (m : Machine) (source : String) : Gain :=
  gains (directives source) ++ m.greetingGain source

/-- What a request with this answer comes to. -/
def gain (m : Machine) (request : Request) (answer : Answer) : Gain :=
  match request with
  | .compile unit => ((m.source? unit).map m.sourceGain).getD {}
  | .addSymbol name address =>
    if 0 ≤ answer.status then { injected := [(name.text, address)] } else {}
  | _ => {}

section States

variable {m : Machine} {handle other : Handle} {s : State}

theorem state_of_states {m' : Machine} (hm : m'.states = m.states) (other : Handle) :
    m'.state other = m.state other := by
  simp [state, hm]

theorem state_of_set {m' : Machine} (hm : m'.states = m.states.set handle s)
    (hlt : handle < m.states.length) : m'.state handle = s := by
  simp [state, hm, hlt]

theorem state_of_set_ne {m' : Machine} (hm : m'.states = m.states.set handle s)
    (ho : other ≠ handle) : m'.state other = m.state other := by
  simp [state, hm, List.getElem?_set_ne (Ne.symm ho)]

end States

/-- One state has gained something, and other states have not changed. -/
structure Extends (m : Machine) (handle : Handle) (g : Gain) (m' : Machine) : Prop where
  gained : (m.state handle).Gains g (m'.state handle)
  others : ∀ other, other ≠ handle → m'.state other = m.state other
  states : m'.states.length = m.states.length
  forced : m'.forced = m.forced
  greeting : m'.greeting = m.greeting

namespace Extends

variable {m m' m'' : Machine} {handle : Handle} {g g' : Gain} {s : State}

theorem of_states (hm : m'.states = m.states) (hf : m'.forced = m.forced)
    (hg : m'.greeting = m.greeting) : m.Extends handle {} m' := by
  have hstate := state_of_states hm
  constructor
  · rw [hstate]
    exact .refl _
  · exact fun other _ => hstate other
  · rw [hm]
  · exact hf
  · exact hg

theorem refl (m : Machine) (handle : Handle) : m.Extends handle {} m :=
  of_states rfl rfl rfl

theorem of_set (hlt : handle < m.states.length) (hm : m'.states = m.states.set handle s)
    (hf : m'.forced = m.forced) (hg : m'.greeting = m.greeting)
    (hs : (m.state handle).Gains g s) : m.Extends handle g m' := by
  constructor
  · rw [state_of_set hm hlt]
    exact hs
  · exact fun other ho => state_of_set_ne hm ho
  · rw [hm, List.length_set]
  · exact hf
  · exact hg

theorem of_setState (hlt : handle < m.states.length) (hs : (m.state handle).Gains g s) :
    m.Extends handle g (m.setState handle s) :=
  of_set hlt rfl rfl rfl hs

theorem trans (h : m.Extends handle g m') (h' : m'.Extends handle g' m'') :
    m.Extends handle (g ++ g') m'' := by
  constructor
  · exact h.gained.trans h'.gained
  · intro other ho
    rw [h'.others other ho, h.others other ho]
  · rw [h'.states, h.states]
  · rw [h'.forced, h.forced]
  · rw [h'.greeting, h.greeting]

theorem lt (h : m.Extends handle g m') (hlt : handle < m.states.length) :
    handle < m'.states.length := by
  rw [h.states]
  exact hlt

/-- What comes on top without a gain. -/
theorem keep (h : m.Extends handle g m') (h' : m'.Extends handle {} m'') :
    m.Extends handle g m'' := by
  have ht := h.trans h'
  have hg : g ++ {} = g := by
    show Gain.mk _ _ _ = g
    simp
  rwa [hg] at ht

end Extends

variable {m : Machine} {handle : Handle}

theorem obey_extends (hlt : handle < m.states.length) (unit : String) (sent : List Emission)
    (failed : Bool) (line : Nat × Directive) :
    m.Extends handle line.2.gain (obey handle unit (m, sent, failed) line).1 := by
  obtain ⟨number, directive⟩ := line
  cases directive with
  | warning | error => exact .refl m handle
  | imports name =>
    exact .of_setState hlt ⟨(List.append_nil _).symm, rfl, (List.append_nil _).symm⟩
  | exports name value =>
    cases value <;>
      exact .of_set hlt rfl rfl rfl ⟨rfl, (List.append_nil _).symm, (List.append_nil _).symm⟩

theorem obeyAll_extends (hlt : handle < m.states.length) (unit : String) (sent : List Emission)
    (failed : Bool) (lines : List (Nat × Directive)) :
    m.Extends handle (gains lines) (lines.foldl (obey handle unit) (m, sent, failed)).1 := by
  induction lines generalizing m sent failed with
  | nil => exact .refl m handle
  | cons line rest ih =>
    have hfirst := obey_extends hlt unit sent failed line
    have hrest := ih (hfirst.lt hlt) (obey handle unit (m, sent, failed) line).2.1
      (obey handle unit (m, sent, failed) line).2.2
    have hgains : gains (line :: rest) = line.2.gain ++ gains rest := by
      obtain ⟨number, directive⟩ := line
      cases directive <;> rfl
    rw [hgains]
    exact hfirst.trans hrest

theorem greet_extends (hlt : handle < m.states.length) (source : String) :
    m.Extends handle (m.greetingGain source) (m.greet handle source) := by
  unfold greetingGain greet
  split
  · exact .of_setState hlt ⟨rfl, rfl, (List.append_nil _).symm⟩
  · exact .refl m handle

theorem compile_extends (hlt : handle < m.states.length) (unit source : String) :
    m.Extends handle (m.sourceGain source) (m.compile handle unit source).2.2 := by
  have hlines := obeyAll_extends hlt unit [] false (directives source)
  have hgreet := greet_extends (hlines.lt hlt) source
  rw [greetingGain, hlines.greeting] at hgreet
  have hboth := hlines.trans hgreet
  simp only [compile]
  split
  · exact hboth
  · exact hboth.keep (.of_setState (hboth.lt hlt) (.kept rfl rfl rfl))

theorem bindAll_states (f : String → Address) (names : List String) (m : Machine) :
    let m' := names.foldl (fun m name => m.bind name (f name)) m
    m'.states = m.states ∧ m'.forced = m.forced ∧ m'.greeting = m.greeting := by
  induction names generalizing m with
  | nil => exact ⟨rfl, rfl, rfl⟩
  | cons name rest ih => exact ih (m.bind name (f name))

theorem relocate_extends (hlt : handle < m.states.length) (target : Target) :
    m.Extends handle {} (m.relocate handle target).2.2 := by
  unfold relocate
  dsimp only
  split
  · exact .refl m handle
  · split
    · exact .refl m handle
    · split
      · exact .refl m handle
      · obtain ⟨hs, hf, hg⟩ := bindAll_states (m.state handle).lookup (m.state handle).imports m
        have hbound : m.Extends handle {} _ := .of_states hs hf hg
        apply hbound.keep
        apply Extends.of_setState (hbound.lt hlt)
        rw [state_of_states hs handle]
        exact .kept rfl rfl rfl

theorem enter_extends (address : Address) (arguments : Arguments) :
    m.Extends handle {} (m.enter address arguments).2.2 := by
  cases address with
  | host | word => exact .refl m handle
  | compiled label =>
    simp only [enter, enterCompiled]
    split
    · split <;> exact .refl m handle
    · exact .refl m handle
    · exact .refl m handle
    · split
      · exact .of_states rfl rfl rfl
      · exact .refl m handle
    · exact .refl m handle
    · exact .refl m handle

theorem run_extends (arguments : List CText) :
    m.Extends handle {} (m.run handle arguments).2.2 := by
  unfold run
  dsimp only
  split
  · exact .refl m handle
  · split
    · exact .refl m handle
    · exact enter_extends _ _

theorem outputFile_extends (path : CText) :
    m.Extends handle {} (m.outputFile handle path).2.2 := by
  unfold outputFile
  dsimp only
  split
  · exact .of_states rfl rfl rfl
  · exact .refl m handle

theorem call_unforced (hf : m.forced = []) (handle : Handle) (request : Request) :
    m.call handle request = m.answer handle request := by
  simp [call, forcedStatus?, hf]

/-- All that a request makes a state gain. -/
theorem answer_extends (hlt : handle < m.states.length) (request : Request) :
    let o := m.answer handle request
    m.Extends handle (m.gain request o.1) o.2.2 := by
  intro o
  cases request with
  | setErrorFunc | delete | setOutputType =>
    exact .of_setState hlt (.kept rfl rfl rfl)
  | configure | getSymbol => exact .refl m handle
  | addLibrary name =>
    simp only [o, answer, gain]
    split <;> exact .refl m handle
  | compile unit =>
    cases unit with
    | text source =>
      simp only [o, answer, gain, source?, Option.map_some, Option.getD_some]
      exact compile_extends hlt (SourceUnit.text source).name source.text
    | file path =>
      simp only [o, answer, compileFile, gain, source?]
      cases m.files.readText ⟨path.bytes⟩ with
      | ok source => exact compile_extends hlt _ _
      | error e => exact .refl m handle
  | addSymbol name address =>
    simp only [o, answer, gain]
    split
    · exact .refl m handle
    · exact .of_setState hlt ⟨(List.append_nil _).symm, (List.append_nil _).symm, rfl⟩
  | relocate target => exact relocate_extends hlt target
  | run arguments => exact run_extends arguments
  | outputFile path => exact outputFile_extends path

end Machine

section Slots

variable {m : Machine} {handle : Handle}

private theorem lookup_others (slots : List (String × Address)) {name other : String}
    (ho : other ≠ name) : (slots.filter (·.1 ≠ name)).lookup other = slots.lookup other := by
  induction slots with
  | nil => rfl
  | cons slot rest ih =>
    by_cases hs : slot.1 = name
    · have hother : (other == slot.1) = false := beq_false_of_ne (hs ▸ ho)
      rw [List.filter_cons_of_neg (by simp [hs]), List.lookup_cons, hother]
      exact ih
    · rw [List.filter_cons_of_pos (by simp [hs]), List.lookup_cons, List.lookup_cons, ih]

theorem Machine.slot_bind (name other : String) (address : Address) :
    (m.bind name address).slot other = if other = name then address else m.slot other := by
  by_cases ho : other = name
  · simp [bind, slot, ho]
  · rw [if_neg ho]
    unfold bind slot
    rw [List.lookup_cons, beq_false_of_ne ho]
    dsimp only
    rw [lookup_others _ ho]

/-- Names bound one after the other are all bound in the end. -/
theorem Machine.slot_bindAll (f : String → Address) (names : List String) (name : String) :
    (names.foldl (fun m name => m.bind name (f name)) m).slot name =
      if name ∈ names then f name else m.slot name := by
  induction names generalizing m with
  | nil => rfl
  | cons first rest ih =>
    rw [List.foldl_cons, ih, slot_bind]
    by_cases hf : name = first <;> by_cases hr : name ∈ rest <;> simp [hf, hr]

/-- A relocation that places code binds each import to what a look-up gives. -/
theorem Machine.slot_relocate {target : Target} (ht : target ≠ .size)
    (hs : 0 ≤ (m.relocate handle target).1.status) {name : String}
    (hn : name ∈ (m.state handle).imports) :
    (m.relocate handle target).2.2.slot name = (m.state handle).lookup name := by
  have hrefused : ¬(0 : Int32) ≤ -1 := by decide
  revert hs
  unfold relocate
  dsimp only
  split
  · exact fun hs => absurd hs hrefused
  · split
    · exact fun hs => absurd hs hrefused
    · intro _
      exact (slot_bindAll _ _ _).trans (if_pos hn)

end Slots

end EmbeddedC.Scripted
