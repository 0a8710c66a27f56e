import EmbeddedC.Text.Outline

/-!
# Stages

Where a compilation context stands in its life: it is configured, compiles one or more units, and
then either relocates into memory, to look up symbols or run a program, or writes files. From any
live stage it can be disposed of.
-/

namespace EmbeddedC

/-- How a context was finished. -/
inductive Finish where
  | resolved
  | ran
  | emitted
  deriving DecidableEq, Repr

def Finish.label : Finish → String
  | .resolved => "Resolved"
  | .ran => "Ran"
  | .emitted => "Emitted"

inductive Stage where
  | created
  | configured
  | compiled
  | relocated
  | finalized (how : Finish)
  | disposed
  deriving DecidableEq, Repr

namespace Stage

/-- Options, paths, macros and further units are still accepted. -/
def isOpen : Stage → Bool
  | created | configured | compiled => true
  | _ => false

/-- Code lies in memory and symbols can be looked up. -/
def isRelocated : Stage → Bool
  | relocated | finalized .resolved | finalized .ran => true
  | _ => false

/-- No more symbols may be injected. -/
def isSealed : Stage → Bool
  | relocated | finalized _ => true
  | _ => false

def isDisposed : Stage → Bool
  | disposed => true
  | _ => false

theorem isOpen_iff {s : Stage} : s.isOpen ↔ s = created ∨ s = configured ∨ s = compiled := by
  cases s <;> simp [isOpen]

theorem isRelocated_iff {s : Stage} :
    s.isRelocated ↔ s = relocated ∨ s = finalized .resolved ∨ s = finalized .ran := by
  rcases s with _ | _ | _ | _ | how | _ <;> try cases how
  all_goals simp [isRelocated]

theorem live_of_isOpen {s : Stage} (hs : s.isOpen) : s ≠ disposed := by
  rintro rfl
  exact Bool.noConfusion hs

theorem live_of_isRelocated {s : Stage} (hs : s.isRelocated) : s ≠ disposed := by
  rintro rfl
  exact Bool.noConfusion hs

@[simp] theorem isDisposed_iff {s : Stage} : s.isDisposed ↔ s = disposed := by
  cases s <;> simp [isDisposed]

/-- Symbols may be injected exactly while a context is open. -/
theorem isSealed_eq_false_iff {s : Stage} : s.isSealed = false ↔ s.isOpen ∨ s = disposed := by
  cases s <;> simp [isSealed, isOpen]

def text : Stage → String
  | created => "created"
  | configured => "configured"
  | compiled => "compiled"
  | relocated => "relocated"
  | finalized .resolved => "finalized (symbols resolved)"
  | finalized .ran => "finalized (program ran)"
  | finalized .emitted => "finalized (file emitted)"
  | disposed => "disposed"

def outline : Stage → Text.Outline
  | created => .text "Created"
  | configured => .text "Configured"
  | compiled => .text "Compiled"
  | relocated => .text "Relocated"
  | finalized how => .around "Finalized" how.label
  | disposed => .text "Disposed"

end Stage

end EmbeddedC
