import EmbeddedC.Proofs.Session
/-!
# A context as a record of its calls

The stage of a context, its output type and its three flags are a record of the calls made on its
state. Each task keeps that record true, whatever the answers.
-/

namespace EmbeddedC

namespace Deed

def isCall : Deed → Bool
  | called _ _ => true
  | _ => false

def isLookUp : Deed → Bool
  | called (.getSymbol _) _ => true
  | _ => false

def isDelete : Deed → Bool
  | called .delete _ => true
  | _ => false

def isEntry : Deed → Bool
  | entered _ _ => true
  | _ => false

def fixesType : Deed → Bool
  | called (.setOutputType _) answer => 0 ≤ answer.status
  | _ => false

def compiles : Deed → Bool
  | called (.compile _) answer => 0 ≤ answer.status
  | _ => false

/-- A relocation, or a query of its size. -/
def isRelocation : Deed → Bool
  | called (.relocate _) _ => true
  | _ => false

def relocates : Deed → Bool
  | called (.relocate target) answer => target ≠ .size ∧ 0 ≤ answer.status
  | _ => false

def failsToRelocate : Deed → Bool
  | called (.relocate _) answer => answer.status < 0
  | _ => false

def isEmission : Deed → Bool
  | called (.outputFile _) _ => true
  | _ => false

def emits : Deed → Bool
  | called (.outputFile _) answer => 0 ≤ answer.status
  | _ => false

theorem isRelocation_of_relocates {d : Deed} (h : d.relocates) : d.isRelocation := by
  unfold relocates at h
  split at h
  · rfl
  · exact Bool.noConfusion h

theorem isRelocation_of_failsToRelocate {d : Deed} (h : d.failsToRelocate) : d.isRelocation := by
  unfold failsToRelocate at h
  split at h
  · rfl
  · exact Bool.noConfusion h

theorem isEmission_of_emits {d : Deed} (h : d.emits) : d.isEmission := by
  unfold emits at h
  split at h
  · rfl
  · exact Bool.noConfusion h

/-- A deed that leaves a context as it was. -/
def isPlain (d : Deed) : Bool :=
  !d.fixesType && !d.compiles && !d.isRelocation && !d.isEmission

theorem isPlain_setOutputType {code : Int32} {answer : Answer} (ha : answer.status < 0) :
    (called (.setOutputType code) answer).isPlain := by
  simp [isPlain, fixesType, compiles, isRelocation, isEmission, Int32.not_le.2 ha]

theorem isPlain_compile {unit : SourceUnit} {answer : Answer} (ha : answer.status < 0) :
    (called (.compile unit) answer).isPlain := by
  simp [isPlain, fixesType, compiles, isRelocation, isEmission, Int32.not_le.2 ha]

end Deed

namespace Stage

/-- A unit has been compiled, as far as an undisposed context remembers. -/
def hasUnits : Stage → Bool
  | created | configured => false
  | _ => true

def isEmitted : Stage → Bool
  | finalized .emitted => true
  | _ => false

theorem isOpen_iff_unfinished {s : Stage} :
    s.isOpen ↔ s ≠ .disposed ∧ s.isRelocated = false ∧ s.isEmitted = false := by
  rcases s with _ | _ | _ | _ | how | _ <;> try cases how
  all_goals decide

theorem eq_compiled_iff {s : Stage} : s = .compiled ↔ s.isOpen ∧ s.hasUnits := by
  rcases s with _ | _ | _ | _ | how | _ <;> try cases how
  all_goals decide

theorem unemitted_of_isRelocated {s : Stage} (hs : s.isRelocated) :
    s ≠ .disposed ∧ s.hasUnits ∧ s.isEmitted = false := by
  rcases isRelocated_iff.1 hs with rfl | rfl | rfl <;> decide

theorem writable_iff {s : Stage} :
    s = .compiled ∨ s = .finalized .emitted ↔
      s ≠ .disposed ∧ s.hasUnits ∧ s.isRelocated = false := by
  rcases s with _ | _ | _ | _ | how | _ <;> try cases how
  all_goals decide

end Stage

namespace Context

/-- What the fields of a context say of the calls on its state. What the stage says is lost when the
context is disposed of; the rest stays. -/
structure Tracks (c : Context) (ds : List Deed) : Prop where
  fixed : c.typeFixed = ds.any Deed.fixesType
  code : ∀ code answer, .called (.setOutputType code) answer ∈ ds → 0 ≤ answer.status →
    code = c.outputType.code
  attempted : c.relocateAttempted = ds.any Deed.isRelocation
  failed : c.relocationFailed ↔ Pending Deed.failsToRelocate Deed.compiles ds
  typed : ds.any Deed.compiles → c.typeFixed
  memory : ds.any Deed.isRelocation → c.outputType = .memory ∧ c.typeFixed
  file : ds.any Deed.isEmission → c.outputType.isFile ∧ c.typeFixed
  compiled : c.stage ≠ .disposed → c.stage.hasUnits = ds.any Deed.compiles
  relocated : c.stage ≠ .disposed → c.stage.isRelocated = ds.any Deed.relocates
  emitted : c.stage ≠ .disposed → c.stage.isEmitted = ds.any Deed.emits

/-- What one deed, done in its time, leaves in the fields of a context. -/
structure Notes (c : Context) (d : Deed) (c' : Context) : Prop where
  type : c'.outputType = c.outputType
  fixed : c'.typeFixed = (c.typeFixed || d.fixesType)
  code : ∀ code answer, d = .called (.setOutputType code) answer → 0 ≤ answer.status →
    code = c.outputType.code
  attempted : c'.relocateAttempted = (c.relocateAttempted || d.isRelocation)
  failed : c'.relocationFailed = (d.failsToRelocate || c.relocationFailed && !d.compiles)
  typed : d.compiles ∨ d.isRelocation ∨ d.isEmission → c.typeFixed
  memory : d.isRelocation → c.outputType = .memory
  file : d.isEmission → c.outputType.isFile
  live : c'.stage ≠ .disposed → c.stage ≠ .disposed
  compiled : c'.stage ≠ .disposed → c'.stage.hasUnits = (c.stage.hasUnits || d.compiles)
  relocated : c'.stage ≠ .disposed → c'.stage.isRelocated = (c.stage.isRelocated || d.relocates)
  emitted : c'.stage ≠ .disposed → c'.stage.isEmitted = (c.stage.isEmitted || d.emits)

section Notes

variable {c : Context} {d : Deed} {answer : Answer}

private theorem emits_of_isPlain (hd : d.isPlain) : d.emits = false := by
  apply Bool.eq_false_iff.2
  intro h
  simp [Deed.isPlain, Deed.isEmission_of_emits h] at hd

private theorem notes_plain (hd : d.isPlain) : c.Notes d c := by
  have hemit := emits_of_isPlain hd
  simp only [Deed.isPlain, Bool.and_eq_true, Bool.not_eq_true'] at hd
  obtain ⟨⟨⟨hfix, hcompile⟩, hrelocation⟩, hemission⟩ := hd
  have hrelocate : d.relocates = false := Bool.eq_false_iff.2 fun h =>
    Bool.eq_false_iff.1 hrelocation (Deed.isRelocation_of_relocates h)
  have hfail : d.failsToRelocate = false := Bool.eq_false_iff.2 fun h =>
    Bool.eq_false_iff.1 hrelocation (Deed.isRelocation_of_failsToRelocate h)
  have hcode : ∀ code answer, d = .called (.setOutputType code) answer → 0 ≤ answer.status →
      code = c.outputType.code := by
    rintro code answer rfl ha
    exact absurd (decide_eq_true ha) (Bool.eq_false_iff.1 hfix)
  constructor
  case code => exact hcode
  all_goals simp [hfix, hcompile, hrelocation, hemission, hrelocate, hfail, hemit]

private theorem notes_finalized (hc : c.stage.isRelocated) {next : Stage}
    (hn : next.isRelocated) (hd : d.isPlain) : c.Notes d { c with stage := next } := by
  obtain ⟨hlive, hunits, hemitted⟩ := Stage.unemitted_of_isRelocated hc
  obtain ⟨_, hunits', hemitted'⟩ := Stage.unemitted_of_isRelocated hn
  refine { notes_plain hd with
    live := fun _ => hlive
    compiled := fun _ => by simp [hunits, hunits']
    relocated := fun _ => by simp [hc, hn]
    emitted := fun _ => by simp [hemitted, hemitted', emits_of_isPlain hd] }

attribute [local simp] Deed.fixesType Deed.compiles Deed.isRelocation Deed.isEmission
  Deed.relocates Deed.failsToRelocate Deed.emits Stage.hasUnits Stage.isRelocated Stage.isEmitted

private theorem notes_typeSent (ha : 0 ≤ answer.status) :
    c.Notes (.called (.setOutputType c.outputType.code) answer) { c with typeFixed := true } := by
  constructor <;> simp [ha]

private theorem notes_compiled (ho : c.stage.isOpen) (hf : c.typeFixed) (unit : SourceUnit)
    (ha : 0 ≤ answer.status) :
    c.Notes (.called (.compile unit) answer)
      { c with relocationFailed := false, stage := .compiled } := by
  rcases Stage.isOpen_iff.1 ho with hs | hs | hs <;> constructor <;> simp [ha, hf, hs]

private theorem notes_sized (hr : c.Relocatable) (hf : c.typeFixed) (ha : 0 ≤ answer.status) :
    c.Notes (.called (.relocate .size) answer) { c with relocateAttempted := true } := by
  constructor <;> simp [Int32.not_lt.2 ha, hf, hr.2.1]

private theorem notes_relocated (hr : c.Relocatable) (hf : c.typeFixed) {target : Target}
    (ht : target ≠ .size) (ha : 0 ≤ answer.status) :
    c.Notes (.called (.relocate target) answer)
      { c with relocateAttempted := true, stage := .relocated } := by
  obtain ⟨hs, ho, _⟩ := hr
  constructor <;> simp [Int32.not_lt.2 ha, ha, ht, hf, ho, hs]

private theorem notes_relocationFailed (hr : c.Relocatable) (hf : c.typeFixed) (target : Target)
    (ha : answer.status < 0) :
    c.Notes (.called (.relocate target) answer)
      { c with relocateAttempted := true, relocationFailed := true } := by
  constructor <;> simp [Int32.not_le.2 ha, ha, hf, hr.2.1]

private theorem notes_emitted (hf : c.typeFixed) (ht : c.outputType.isFile)
    (hs : c.stage = .compiled ∨ c.stage = .finalized .emitted) (path : CText)
    (ha : 0 ≤ answer.status) :
    c.Notes (.called (.outputFile path) answer) { c with stage := .finalized .emitted } := by
  rcases hs with hs | hs <;> constructor <;> simp [ha, hf, ht, hs]

private theorem notes_emissionFailed (hf : c.typeFixed) (ht : c.outputType.isFile) (path : CText)
    (ha : answer.status < 0) : c.Notes (.called (.outputFile path) answer) c := by
  constructor <;> simp [Int32.not_le.2 ha, hf, ht]

end Notes

private theorem any_append_singleton {ds : List Deed} {d : Deed} {p : Deed → Bool} :
    (ds ++ [d]).any p = (ds.any p || p d) := by
  simp

namespace Tracks

variable {c c' : Context} {d : Deed} {ds ds' : List Deed}

theorem note (h : c.Tracks ds) (hn : c.Notes d c') : c'.Tracks (ds ++ [d]) := by
  have hfixed : c.typeFixed → c'.typeFixed := fun hf => by simp [hn.fixed, hf]
  constructor
  · simp [hn.fixed, h.fixed]
  · -- a deed fixes the type of its own context, and the type stays
    intro code answer hm ha
    rw [hn.type]
    rcases List.mem_append.1 hm with hm | hm
    · exact h.code code answer hm ha
    · exact hn.code code answer (List.mem_singleton.1 hm).symm ha
  · simp [hn.attempted, h.attempted]
  · simp [hn.failed, ← h.failed]
  · intro hc
    rw [any_append_singleton, Bool.or_eq_true] at hc
    exact hfixed (hc.elim h.typed fun hd => hn.typed (.inl hd))
  · intro hr
    rw [any_append_singleton, Bool.or_eq_true] at hr
    rw [hn.type]
    rcases hr with hr | hr
    · exact ⟨(h.memory hr).1, hfixed (h.memory hr).2⟩
    · exact ⟨hn.memory hr, hfixed (hn.typed (.inr (.inl hr)))⟩
  · intro he
    rw [any_append_singleton, Bool.or_eq_true] at he
    rw [hn.type]
    rcases he with he | he
    · exact ⟨(h.file he).1, hfixed (h.file he).2⟩
    · exact ⟨hn.file he, hfixed (hn.typed (.inr (.inr he)))⟩
  · intro hl
    rw [hn.compiled hl, h.compiled (hn.live hl), any_append_singleton]
  · intro hl
    rw [hn.relocated hl, h.relocated (hn.live hl), any_append_singleton]
  · intro hl
    rw [hn.emitted hl, h.emitted (hn.live hl), any_append_singleton]

theorem plain (h : c.Tracks ds) (hd : d.isPlain) : c.Tracks (ds ++ [d]) :=
  h.note (notes_plain hd)

theorem untouched (table : EntryTable) (handle : Handle) :
    (Context.fresh table handle).Tracks [] := by
  constructor <;> simp [Context.fresh, Stage.hasUnits, Stage.isRelocated, Stage.isEmitted]

theorem fresh (table : EntryTable) (handle : Handle) (answer : Answer) :
    (Context.fresh table handle).Tracks [.created, .called .setErrorFunc answer] :=
  ((untouched table handle).plain (d := .created) rfl).plain rfl

theorem configured (h : c.Tracks ds) : c.configured.Tracks ds := by
  unfold Context.configured
  split
  · next hs =>
    have hl : c.stage ≠ .disposed := by simp [hs]
    have hcompiled := h.compiled hl
    have hrelocated := h.relocated hl
    have hemitted := h.emitted hl
    rw [hs] at hcompiled hrelocated hemitted
    exact { h with
      compiled := fun _ => hcompiled
      relocated := fun _ => hrelocated
      emitted := fun _ => hemitted }
  · exact h

/-- The type may change as long as the compiler has not accepted one. -/
theorem typeChosen (h : c.Tracks ds) (hf : c.typeFixed = false) (type : OutputType) :
    { c with outputType := type }.Tracks ds := by
  have hne : c.typeFixed ≠ true := Bool.eq_false_iff.1 hf
  refine { h with
    code := fun code answer hm ha => ?_
    memory := fun hr => absurd (h.memory hr).2 hne
    file := fun he => absurd (h.file he).2 hne }
  exact absurd (h.fixed.trans (List.any_eq_true.2 ⟨_, hm, decide_eq_true ha⟩)) hne

theorem fixType (h : c.Tracks ds) (hf : c.FixesType ds' c') : c'.Tracks (ds ++ ds') := by
  cases hf with
  | known => rwa [List.append_nil]
  | sent answer hc ha => exact h.note (notes_typeSent ha)

theorem typeFixed (h : c.Tracks ds) (hl : c.stage ≠ .disposed) (hs : c.stage.hasUnits) :
    c.typeFixed :=
  h.typed (h.compiled hl ▸ hs)

theorem hook (h : c.Tracks ds) : c.Tracks (ds ++ c.hookDeeds) := by
  unfold hookDeeds
  cases c.hook? with
  | none => rwa [Option.map_none, Option.toList_none, List.append_nil]
  | some hook => exact h.plain rfl

/-- Every task keeps the record true. -/
theorem task (h : c.Tracks ds) {task : Task} {r : Except BindError Value} (ht : task.Timely c)
    (hd : task.Does c ds' r c') : c'.Tracks (ds ++ ds') := by
  have hl := ht.live
  have hfixed := h.typeFixed hl
  have hrelocatable : c.Relocatable → c.typeFixed := fun hr => hfixed (by rw [hr.1]; rfl)
  cases hd with
  | sinkInstalled =>
    rw [List.append_nil]
    exact h.configured
  | hookInstalled hook =>
    have h' : { c with hook? := some hook }.Tracks ds := { h with }
    rw [List.append_nil]
    exact h'.configured
  | typeChosen type =>
    rw [List.append_nil]
    exact (h.typeChosen ht.2 type).configured
  | typeKept => rwa [List.append_nil]
  | configured => exact (h.plain rfl).configured
  | configureRefused | injectionRefused | noMain => exact h.plain rfl
  | typeRefused answer _ _ ha => exact h.plain (Deed.isPlain_setOutputType ha)
  | libraryAdded hf =>
    rw [← List.append_assoc]
    exact ((h.fixType hf).plain rfl).configured
  | libraryRefused hf =>
    rw [← List.append_assoc]
    exact (h.fixType hf).plain rfl
  | compiled hf answer ha =>
    rw [← List.append_assoc, ← List.append_assoc]
    exact (h.fixType hf).hook.note (notes_compiled (hf.isOpen ht) hf.typeFixed _ ha)
  | compileFailed hf answer ha =>
    rw [← List.append_assoc, ← List.append_assoc]
    exact (h.fixType hf).hook.plain (Deed.isPlain_compile ha)
  | injected => exact { h.plain rfl with }
  | sized answer ha => exact h.note (notes_sized ht (hrelocatable ht) ha)
  | relocated htarget answer ha => exact h.note (notes_relocated ht (hrelocatable ht) htarget ha)
  | relocationFailed answer ha => exact h.note (notes_relocationFailed ht (hrelocatable ht) _ ha)
  | lookedUp => exact h.note (notes_finalized ht rfl rfl)
  | ran answer hm status =>
    have h' := h.plain (d := .called (.getSymbol ContextAction.mainName) answer) rfl
    rw [List.append_cons]
    exact h'.note (notes_finalized ht.2 rfl rfl)
  | @emitted path answer ha =>
    obtain ⟨_, hfile, hs⟩ := ht
    have hunits := (Stage.writable_iff.1 hs).2.1
    exact h.note (notes_emitted (hfixed hunits) hfile hs path ha)
  | @emissionFailed path answer ha =>
    obtain ⟨_, hfile, hs⟩ := ht
    have hunits := (Stage.writable_iff.1 hs).2.1
    exact h.note (notes_emissionFailed (hfixed hunits) hfile path ha)
  | disposed answer =>
    -- from here on the stage says nothing, so only the flags need care
    have h' := h.plain (d := .called .delete answer) rfl
    exact { h' with
      compiled := fun hn => absurd rfl hn
      relocated := fun hn => absurd rfl hn
      emitted := fun hn => absurd rfl hn }

end Tracks

end Context

end EmbeddedC
