import EmbeddedC.Proofs.TimelyDeeds
/-!
# The order of calls

What libtcc asks of those who call it: relocation and files exclude each other, both need a compiled
unit, symbols need a relocation, and a failed relocation needs another unit. Contexts call in that
order, however their operations are strung together and whatever is answered.
-/

namespace EmbeddedC

/-- What may be done with a state, given all that was done with it before. -/
structure InOrder (past : List Deed) (d : Deed) : Prop where
  /-- Relocations, size queries among them, and files exclude each other. -/
  apart : ¬(d.isRelocation ∧ past.any Deed.isEmission) ∧ ¬(d.isEmission ∧ past.any Deed.isRelocation)
  /-- Code is placed once, and then nothing is asked for but symbols. -/
  placed : past.any Deed.relocates → d.isCall → d.isLookUp ∨ d.isDelete
  /-- Symbols are looked up, and programs entered, in placed code only. -/
  resolvable : d.isLookUp ∨ d.isEntry → past.any Deed.relocates
  /-- Something is compiled first. -/
  compiled : d.isRelocation ∨ d.isEmission → past.any Deed.compiles
  /-- A relocation that failed is not tried again before another unit is compiled. -/
  repaired : d.isRelocation → ¬Pending Deed.failsToRelocate Deed.compiles past
  /-- Once a file is written there are only more files. -/
  written : past.any Deed.emits → d.isCall → d.isEmission ∨ d.isDelete

namespace InOrder

variable {c : Context} {past : List Deed} {d : Deed}

private theorem delete (answer : Answer) : InOrder past (.called .delete answer) := by
  constructor <;>
    simp [Deed.isRelocation, Deed.isEmission, Deed.isLookUp, Deed.isEntry, Deed.isDelete]

private theorem of_isOpen (h : c.Tracks past) (ho : c.stage.isOpen) (hr : d.isRelocation = false)
    (he : d.isEmission = false) (hl : d.isLookUp = false) (hn : d.isEntry = false) :
    InOrder past d := by
  obtain ⟨hlive, hrelocated, hemitted⟩ := Stage.isOpen_iff_unfinished.1 ho
  rw [h.relocated hlive] at hrelocated
  rw [h.emitted hlive] at hemitted
  constructor <;> simp only [hr, he, hl, hn, hrelocated, hemitted] <;> simp

private theorem relocation (h : c.Tracks past) (hr : c.Relocatable) (target : Target)
    (answer : Answer) : InOrder past (.called (.relocate target) answer) := by
  obtain ⟨hs, hmemory, hfailed⟩ := hr
  have ho : c.stage.isOpen := by rw [hs]; rfl
  obtain ⟨hlive, hrelocated, hemitted⟩ := Stage.isOpen_iff_unfinished.1 ho
  rw [h.relocated hlive] at hrelocated
  rw [h.emitted hlive] at hemitted
  have hfile : ¬past.any Deed.isEmission := fun he => by
    have := (h.file he).1
    rw [hmemory] at this
    exact nomatch this
  have hcompiled : past.any Deed.compiles := by
    rw [← h.compiled hlive, hs]
    rfl
  constructor
  · exact ⟨fun hh => hfile hh.2, fun hh => Bool.noConfusion hh.1⟩
  · exact fun hp => absurd hp (Bool.eq_false_iff.1 hrelocated)
  · exact fun hd => nomatch hd
  · exact fun _ => hcompiled
  · exact fun _ hp => Bool.eq_false_iff.1 hfailed (h.failed.2 hp)
  · exact fun hp => absurd hp (Bool.eq_false_iff.1 hemitted)

private theorem emission (h : c.Tracks past) (ha : c.relocateAttempted = false)
    (hs : c.stage = .compiled ∨ c.stage = .finalized .emitted) (path : CText)
    (answer : Answer) : InOrder past (.called (.outputFile path) answer) := by
  obtain ⟨hlive, hunits, hrelocated⟩ := Stage.writable_iff.1 hs
  rw [h.relocated hlive] at hrelocated
  rw [h.compiled hlive] at hunits
  rw [h.attempted] at ha
  constructor
  · exact ⟨fun hh => Bool.noConfusion hh.1, fun hh => Bool.eq_false_iff.1 ha hh.2⟩
  · exact fun hp => absurd hp (Bool.eq_false_iff.1 hrelocated)
  · exact fun hd => nomatch hd
  · exact fun _ => hunits
  · exact fun hd => nomatch hd
  · exact fun _ _ => .inl rfl

private theorem resolution (h : c.Tracks past) (hr : c.stage.isRelocated)
    (hd : d.isLookUp ∨ d.isCall = false) (hn : d.isRelocation = false) (he : d.isEmission = false) :
    InOrder past d := by
  obtain ⟨hlive, _, hemitted⟩ := Stage.unemitted_of_isRelocated hr
  rw [h.relocated hlive] at hr
  rw [h.emitted hlive] at hemitted
  constructor
  · simp [hn, he]
  · exact fun _ hc => .inl (hd.resolve_right fun hf => by simp [hf] at hc)
  · exact fun _ => hr
  · simp [hn, he]
  · simp [hn]
  · exact fun hp => absurd hp (Bool.eq_false_iff.1 hemitted)

theorem rules : Rules InOrder := by
  intro past c d h hd
  cases d with
  | created => exact hd.elim
  | hookRan => exact of_isOpen h hd.1 rfl rfl rfl rfl
  | entered => exact resolution h hd (.inr rfl) rfl rfl
  | called request answer =>
    cases request with
    | setErrorFunc | run => exact hd.elim
    | delete => exact .delete answer
    | configure | addSymbol => exact of_isOpen h hd rfl rfl rfl rfl
    | setOutputType | addLibrary | compile => exact of_isOpen h hd.1 rfl rfl rfl rfl
    | relocate target => exact relocation h hd target answer
    | getSymbol => exact resolution h hd (.inl rfl) rfl rfl
    | outputFile path => exact emission h hd.1 hd.2.2 path answer

theorem law : Law (fun c ds => c.Tracks ds ∧ Heeds InOrder ds) (Heeds InOrder) := by
  refine rules.law ?_ fun answer => ?_ <;> constructor <;>
    simp [Deed.isRelocation, Deed.isEmission, Deed.isCall, Deed.isLookUp, Deed.isEntry,
      Deed.relocates, Deed.emits]

end InOrder

namespace Session

variable {σ : Type} (compiler : Compiler σ)

/-- Whatever moves a session is made of, the calls on each state are in order. -/
theorem heeds_inOrder (toolchain : Toolchain) (w : World σ) (moves : List Move) (handle : Handle) :
    let events := (play compiler ⟨toolchain, w, []⟩ moves).2
    Heeds InOrder (deeds handle events) ∧ (deeds handle events).countP Deed.relocates ≤ 1 := by
  intro events
  have hs := InOrder.law.play compiler toolchain w moves
  have hheeds := hs.deeds (fun _ _ h => h.2) (fun _ h => h) handle
  refine ⟨hheeds, hheeds.countP_le_one fun before d hd hr => Bool.eq_false_iff.2 fun hb => ?_⟩
  unfold Deed.relocates at hr
  split at hr
  · exact absurd (hd.placed hb rfl) (by simp [Deed.isLookUp, Deed.isDelete])
  · exact Bool.noConfusion hr

end Session

end EmbeddedC
