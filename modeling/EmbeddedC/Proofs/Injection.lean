import EmbeddedC.Proofs.Encoding
import EmbeddedC.Proofs.Session
import EmbeddedC.Proofs.SymbolTable
/-!
# Injected symbols

A live context's record shows for each name the address that the compiler accepted for it last. From
a relocation on the record stays as it is.
-/

namespace EmbeddedC

def Deed.call? : Deed → Option (Request × Answer)
  | called request answer => some (request, answer)
  | _ => none

theorem Deed.call?_eq_some_iff {d : Deed} {request : Request} {answer : Answer} :
    d.call? = some (request, answer) ↔ d = .called request answer := by
  cases d <;> simp [call?]

/-- The name and address of an injection that was not refused. -/
def accepted? : Request × Answer → Option (String × Address)
  | (.addSymbol name address, answer) =>
    if 0 ≤ answer.status then some (name.text, address) else none
  | _ => none

/-- All names accepted with their addresses, in order. -/
def accepted (calls : List (Request × Answer)) : List (String × Address) :=
  calls.filterMap accepted?

theorem accepted_append (calls more : List (Request × Answer)) :
    accepted (calls ++ more) = accepted calls ++ accepted more :=
  List.filterMap_append

/-- All names accepted in these deeds. -/
def injections (ds : List Deed) : List (String × Address) :=
  accepted (ds.filterMap Deed.call?)

theorem injections_append (ds ds' : List Deed) :
    injections (ds ++ ds') = injections ds ++ injections ds' := by
  simp [injections, accepted_append]

/-- The latest entry for a name hides those before it. -/
theorem lookup_latest (l : List (String × Address)) (name other : String)
    (address : Address) :
    (l ++ [(name, address)]).reverse.lookup other =
      if other = name then some address else l.reverse.lookup other := by
  rw [List.reverse_append, List.reverse_singleton, List.singleton_append, List.lookup_cons]
  by_cases h : other = name
  · simp [h]
  · rw [if_neg h, beq_false_of_ne h]

/-- What a context's record says of the deeds on its state. -/
structure Context.Records (c : Context) (ds : List Deed) : Prop where
  indexed : c.symbols.Indexed
  /-- A recorded name has crossed the boundary. -/
  crossed : ∀ name symbol, c.symbols.get? name = some symbol → ∃ t, CText.ofString? name = some t
  latest : c.stage ≠ .disposed → ∀ name,
    (c.symbols.get? name).map (·.address) = (injections ds).reverse.lookup name

namespace Context

variable {c c' : Context} {ds ds' : List Deed}

theorem FixesType.symbols (hf : c.FixesType ds c') : c'.symbols = c.symbols := by
  cases hf <;> rfl

theorem FixesType.injections (hf : c.FixesType ds c') : injections ds = [] := by
  cases hf <;> rfl

theorem injections_hookDeeds : injections c.hookDeeds = [] := by
  unfold hookDeeds
  cases c.hook? <;> rfl

end Context

section Tasks

variable {c c' : Context} {task : Task} {ds ds' : List Deed} {r : Except BindError Value}

/-- Only an injection touches the record, and the end of the context empties it. -/
theorem Task.Does.symbols (hd : task.Does c ds r c') (hk : task.kind ≠ .injection) :
    injections ds = [] ∧ (c'.symbols = c.symbols ∨ c'.stage = .disposed ∧ c'.symbols = .empty) := by
  cases hd with
  | injected | injectionRefused => exact absurd rfl hk
  | libraryAdded hf | libraryRefused hf =>
    rw [injections_append, hf.injections]
    exact ⟨rfl, .inl (by simp [hf.symbols])⟩
  | compiled hf | compileFailed hf =>
    rw [injections_append, injections_append, hf.injections, Context.injections_hookDeeds]
    exact ⟨rfl, .inl (by simp [hf.symbols])⟩
  | disposed => exact ⟨rfl, .inr ⟨rfl, rfl⟩⟩
  | _ => exact ⟨rfl, .inl (by simp)⟩

private theorem Context.Records.kept (h : c.Records ds) (hl : c.stage ≠ .disposed)
    (hs : c'.symbols = c.symbols) (hd : injections ds' = []) : c'.Records (ds ++ ds') := by
  constructor
  · rw [hs]
    exact h.indexed
  · rw [hs]
    exact h.crossed
  · intro _
    rw [injections_append, hd, List.append_nil, hs]
    exact h.latest hl

private theorem Context.Records.injected (h : c.Records ds) (hl : c.stage ≠ .disposed)
    {name : CText} {symbol : InjectedSymbol} (hn : CText.ofString? symbol.name = some name)
    {answer : Answer} (ha : 0 ≤ answer.status) :
    { c with symbols := (c.symbols.record symbol).2 }.Records
      (ds ++ [Deed.called (.addSymbol name symbol.address) answer]) := by
  have hrecord := SymbolTable.get?_record h.indexed symbol
  constructor
  · exact h.indexed.record symbol
  · intro other found hfound
    rw [hrecord] at hfound
    by_cases ho : other = symbol.name
    · exact ⟨name, ho ▸ hn⟩
    · rw [if_neg ho] at hfound
      exact h.crossed other found hfound
  · intro _ other
    have hnew : injections [.called (.addSymbol name symbol.address) answer] =
        [(symbol.name, symbol.address)] := by
      simp [injections, accepted, accepted?, Deed.call?, ha, CText.text_of_ofString? hn]
    rw [injections_append, hnew, lookup_latest, hrecord, ← h.latest hl other]
    split <;> rfl

theorem Task.Does.records (h : c.Records ds) (ht : task.Timely c) (hd : task.Does c ds' r c') :
    c'.Records (ds ++ ds') := by
  by_cases hk : task.kind = .injection
  · cases hd with
    | injected answer ha => exact h.injected ht.live ht.2 ha
    | @injectionRefused name symbol answer ha =>
      apply h.kept ht.live rfl
      simp [injections, accepted, accepted?, Deed.call?, Int32.not_le.2 ha]
    | typeRefused _ hn => cases task <;> simp_all [Task.kind, Task.needsType]
    | _ => cases hk
  · obtain ⟨hnone, hsymbols | ⟨hdisposed, hempty⟩⟩ := hd.symbols hk
    · exact h.kept ht.live hsymbols hnone
    · constructor
      · rw [hempty]
        exact SymbolTable.indexed_empty
      · intro name symbol hsymbol
        rw [hempty] at hsymbol
        cases hsymbol
      · exact fun hlive => absurd hdisposed hlive

/-- From a relocation on a context is looked into, run or disposed of, and records nothing more. -/
theorem Task.Does.recordSealed (ht : task.Timely c) (hd : task.Does c ds r c')
    (hr : c.stage.isRelocated) :
    c'.stage = .disposed ∨ c'.stage.isRelocated ∧ c'.symbols = c.symbols := by
  have hunopen : ¬c.stage.isOpen := by
    rcases Stage.isRelocated_iff.1 hr with hs | hs | hs <;> simp [hs, Stage.isOpen]
  have hcompiled : c.stage ≠ .compiled := fun hs => hunopen (by simp [hs, Stage.isOpen])
  have hconfigured : ∀ d : Context, d.stage = c.stage → d.configured = d := by
    intro d hd
    unfold Context.configured
    rw [if_neg]
    intro hs
    exact hunopen (by simp [← hd, hs, Stage.isOpen])
  cases hd with
  | sinkInstalled =>
    rw [hconfigured c rfl]
    exact .inr ⟨hr, rfl⟩
  | hookInstalled hook =>
    rw [hconfigured { c with hook? := some hook } rfl]
    exact .inr ⟨hr, rfl⟩
  | lookedUp | ran => exact .inr ⟨rfl, rfl⟩
  | noMain => exact .inr ⟨hr, rfl⟩
  | disposed => exact .inl rfl
  | typeRefused _ hn => exact absurd (ht.isOpen hn) hunopen
  | typeChosen | typeKept | injected | injectionRefused => exact absurd ht.1 hunopen
  | configured | configureRefused | libraryAdded | libraryRefused | compiled | compileFailed =>
    exact absurd ht hunopen
  | sized | relocated | relocationFailed => exact absurd ht.1 hcompiled
  | emitted | emissionFailed =>
    rcases ht.2.2 with hs | hs
    · exact absurd hs hcompiled
    · simp [hs, Stage.isRelocated] at hr

end Tasks

theorem law_records : Law Context.Records fun _ => True where
  idle := trivial
  fresh := fun _ _ _ => ⟨SymbolTable.indexed_empty, nofun, fun _ _ => rfl⟩
  task := fun _ h ht hd => hd.records h ht
  release := fun _ _ _ => trivial

theorem Context.Reaches.recordSealed {c c' : Context} {ds : List Deed} (h : c.Reaches ds c')
    (hr : c.stage.isRelocated) :
    c'.stage = .disposed ∨ c'.stage.isRelocated ∧ c'.symbols = c.symbols := by
  induction h with
  | refl c => exact .inr ⟨hr, rfl⟩
  | step ht hd hrest ih =>
    rcases hd.recordSealed ht hr with hdisposed | ⟨hrelocated, hsymbols⟩
    · -- nothing follows the end of a context
      cases hrest with
      | refl => exact .inl hdisposed
      | step ht' => exact absurd hdisposed ht'.live
    · rw [← hsymbols]
      exact ih hrelocated

end EmbeddedC
