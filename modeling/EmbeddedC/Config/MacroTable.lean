import EmbeddedC.Text.Utf8

/-!
# Macro tables

Macros with their values, in ascending byte order of names. No name stands in a table twice: what is
put in under a name takes the place of what was there.
-/

namespace EmbeddedC.Config

/-- Macros in ascending byte order of their names, no name twice. -/
def Ascending (defines : List (String × String)) : Prop :=
  defines.Pairwise fun a b => Text.Utf8.encode a.1 < Text.Utf8.encode b.1

instance (defines : List (String × String)) : Decidable (Ascending defines) :=
  inferInstanceAs (Decidable (List.Pairwise _ _))

structure MacroTable where
  entries : List (String × String)
  ascending : Ascending entries
  deriving DecidableEq, Repr

namespace MacroTable

def empty : MacroTable := ⟨[], .nil⟩

instance : Inhabited MacroTable := ⟨empty⟩

/-- A macro put where its name belongs, in place of the one of that name. -/
def insertEntry (entry : String × String) : List (String × String) → List (String × String)
  | [] => [entry]
  | e :: rest =>
    if Text.Utf8.encode entry.1 < Text.Utf8.encode e.1 then entry :: e :: rest
    else if Text.Utf8.encode e.1 < Text.Utf8.encode entry.1 then e :: insertEntry entry rest
    else entry :: rest

variable {entry : String × String} {entries : List (String × String)}

theorem mem_of_mem_insertEntry {e : String × String} (h : e ∈ insertEntry entry entries) :
    e = entry ∨ e ∈ entries := by
  induction entries with
  | nil => exact .inl (List.mem_singleton.1 h)
  | cons first rest ih =>
    simp only [insertEntry] at h
    split at h
    · exact List.mem_cons.1 h
    · split at h
      · rcases List.mem_cons.1 h with rfl | h
        · exact .inr (.head _)
        · exact (ih h).imp_right (.tail _)
      · exact (List.mem_cons.1 h).imp_right (.tail _)

theorem ascending_insertEntry (h : Ascending entries) : Ascending (insertEntry entry entries) := by
  induction entries with
  | nil => exact List.pairwise_singleton _ _
  | cons first rest ih =>
    obtain ⟨hfirst, hrest⟩ := List.pairwise_cons.1 h
    simp only [insertEntry]
    split
    · next hlt =>
      refine List.pairwise_cons.2 ⟨?_, h⟩
      intro e he
      rcases List.mem_cons.1 he with rfl | he
      · exact hlt
      · exact List.lt_trans hlt (hfirst e he)
    · next hge =>
      split
      · next hlt =>
        refine List.pairwise_cons.2 ⟨?_, ih hrest⟩
        intro e he
        rcases mem_of_mem_insertEntry he with rfl | he
        · exact hlt
        · exact hfirst e he
      · next hle =>
        -- neither name comes first, so they are one
        have hsame : Text.Utf8.encode first.1 = Text.Utf8.encode entry.1 :=
          List.le_antisymm (List.not_lt.1 hge) (List.not_lt.1 hle)
        exact List.pairwise_cons.2 ⟨fun e he => hsame ▸ hfirst e he, hrest⟩

def insert (t : MacroTable) (entry : String × String) : MacroTable :=
  ⟨insertEntry entry t.entries, ascending_insertEntry t.ascending⟩

/-- The table of macros that are given in any order. Of one name the last counts. -/
def ofList (macros : List (String × String)) : MacroTable :=
  macros.foldl insert empty

/-- What becomes of each macro, in the order of the table. -/
def map {α : Type} (t : MacroTable) (f : String × String → α) : List α :=
  t.entries.map f

end MacroTable

end EmbeddedC.Config
