import EmbeddedC.Proofs.HistoryRules
import EmbeddedC.Symbols
/-!
# The record of symbols

The index of a symbol table leads from each recorded name to its own record and nowhere else. So a
table answers for each name with what was recorded for it last.
-/

namespace EmbeddedC.SymbolTable

/-- The names in a table, by position. -/
def names (t : SymbolTable) : List String :=
  t.entries.map (·.name)

/-- A name is found just where it is recorded, so no name is recorded twice. -/
def Indexed (t : SymbolTable) : Prop :=
  ∀ name slot, t.index.lookup name = some slot ↔ t.names[slot]? = some name

variable {t : SymbolTable} {symbol : InjectedSymbol} {slot : Nat}

theorem indexed_empty : empty.Indexed := by
  intro name slot
  simp [empty, names]

/-- No slot that the index leads to is out of bounds. -/
theorem Indexed.slot_lt (ht : t.Indexed) {name : String}
    (h : t.index.lookup name = some slot) : slot < t.entries.length := by
  have hlt := (List.getElem?_eq_some_iff.1 ((ht name slot).1 h)).1
  rwa [names, List.length_map] at hlt

/-- Recording a known name replaces its record where it is. -/
theorem record_known (h : t.index.lookup symbol.name = some slot) :
    (t.record symbol).2 = { t with entries := t.entries.set slot symbol } := by
  simp only [record, h]

/-- Recording a new name adds its record at the end. -/
theorem record_new (h : t.index.lookup symbol.name = none) :
    (t.record symbol).2 = ⟨t.entries ++ [symbol], (symbol.name, t.entries.length) :: t.index⟩ := by
  simp only [record, h]

theorem names_replace (ht : t.Indexed) (h : t.index.lookup symbol.name = some slot) :
    names { t with entries := t.entries.set slot symbol } = t.names := by
  have hname := (ht symbol.name slot).1 h
  have hset : names { t with entries := t.entries.set slot symbol } =
      t.names.set slot symbol.name := List.map_set
  apply List.ext_getElem?
  intro k
  rw [hset]
  by_cases hk : slot = k
  · subst hk
    rw [List.getElem?_set_self (List.getElem?_eq_some_iff.1 hname).1]
    exact hname.symm
  · rw [List.getElem?_set_ne hk]

private theorem lookup_new (name : String) :
    ((symbol.name, slot) :: t.index).lookup name =
      if name = symbol.name then some slot else t.index.lookup name := by
  rw [List.lookup_cons]
  by_cases h : name = symbol.name
  · simp [h]
  · rw [if_neg h, beq_false_of_ne h]

theorem Indexed.record (ht : t.Indexed) (symbol : InjectedSymbol) :
    (t.record symbol).2.Indexed := by
  cases hl : t.index.lookup symbol.name with
  | some slot =>
    rw [record_known hl]
    intro name k
    rw [names_replace ht hl]
    exact ht name k
  | none =>
    rw [record_new hl]
    intro name k
    have hnew : t.names[k]? ≠ some symbol.name := by
      intro hk
      rw [← ht, hl] at hk
      exact nomatch hk
    have hlength : t.names.length = t.entries.length := by simp [names]
    have hnames : names ⟨t.entries ++ [symbol], (symbol.name, t.entries.length) :: t.index⟩ =
        t.names ++ [symbol.name] := by simp [names]
    rw [lookup_new, hnames, getElem?_append_singleton, hlength]
    by_cases hn : name = symbol.name
    · by_cases hk : k = t.entries.length
      · simp [hn, hk]
      · simp [hn, hk, hnew, Ne.symm hk]
    · by_cases hk : k = t.entries.length
      · -- the new place holds the new name, and the index led nobody there before
        have hpast : t.index.lookup name ≠ some k := by
          intro h
          have hlt := ht.slot_lt h
          omega
        simp [hn, hk, hk ▸ hpast, Ne.symm hn]
      · rw [if_neg hn, if_neg hk]
        exact ht name k

/-- What was recorded last for a name is its record, and other names keep theirs. -/
theorem get?_record (ht : t.Indexed) (symbol : InjectedSymbol) (name : String) :
    (t.record symbol).2.get? name = if name = symbol.name then some symbol else t.get? name := by
  cases hl : t.index.lookup symbol.name with
  | some slot =>
    rw [record_known hl]
    by_cases hn : name = symbol.name
    · have hlt := ht.slot_lt hl
      simp [get?, hn, hl, hlt]
    · rw [if_neg hn]
      simp only [get?]
      cases hk : t.index.lookup name with
      | none => rfl
      | some k =>
        have hne : slot ≠ k := by
          rintro rfl
          have hsame := ((ht symbol.name slot).1 hl).symm.trans ((ht name slot).1 hk)
          exact hn (Option.some.inj hsame).symm
        exact List.getElem?_set_ne hne
  | none =>
    rw [record_new hl]
    simp only [get?, lookup_new]
    by_cases hn : name = symbol.name
    · simp [hn]
    · rw [if_neg hn, if_neg hn]
      cases hk : t.index.lookup name with
      | none => rfl
      | some k =>
        exact List.getElem?_append_left (ht.slot_lt hk)

end EmbeddedC.SymbolTable
