import EmbeddedC.Proofs.PerformedOperations
import EmbeddedC.Proofs.Resolution
/-!
# The roster of injected symbols

What a context lists as injected can be told from the injections that it has performed: each name
once, in the order in which names first came up, with what was injected under it last. The list and
its index stay in step however symbols are recorded and cleared.
-/

namespace EmbeddedC

/-- What was injected last under a name. -/
def latest? (symbols : List InjectedSymbol) (name : String) : Option InjectedSymbol :=
  symbols.reverse.find? fun symbol => symbol.name = name

/-- Each name at the place where it came up first, with what was injected under it last. -/
def roster (symbols : List InjectedSymbol) : List InjectedSymbol :=
  (symbols.map (·.name)).eraseDups.filterMap (latest? symbols)

section Roster

variable {symbols : List InjectedSymbol} {name : String}

theorem latest?_append (symbols : List InjectedSymbol) (symbol : InjectedSymbol) (name : String) :
    latest? (symbols ++ [symbol]) name =
      if name = symbol.name then some symbol else latest? symbols name := by
  unfold latest?
  rw [List.reverse_append, List.reverse_singleton, List.singleton_append, List.find?_cons]
  by_cases h : name = symbol.name
  · simp [h]
  · simp [h, Ne.symm h]

theorem latest?_eq_none_iff :
    latest? symbols name = none ↔ ∀ symbol ∈ symbols, symbol.name ≠ name := by
  simp [latest?]

/-- A name that has come up before keeps its place, and a new one comes last. -/
theorem eraseDups_append_singleton (names : List String) (name : String) :
    (names ++ [name]).eraseDups =
      if name ∈ names then names.eraseDups else names.eraseDups ++ [name] := by
  rw [List.eraseDups_append]
  by_cases h : name ∈ names
  · simp [h, List.removeAll]
  · simp [h, List.removeAll, List.eraseDups_cons]

end Roster

namespace SymbolTable

variable {t : SymbolTable} {symbol entry : InjectedSymbol} {name : String} {slot : Nat}

namespace Indexed

variable (ht : t.Indexed)
include ht

theorem nodup : t.names.Nodup := by
  rw [List.nodup_iff_getElem?_ne_getElem?]
  intro i j hij hj hsame
  obtain ⟨name, hname⟩ : ∃ name, t.names[j]? = some name := ⟨_, List.getElem?_eq_getElem hj⟩
  have hi := (ht name i).2 (hsame.trans hname)
  have hj' := (ht name j).2 hname
  exact Nat.ne_of_lt hij (Option.some.inj (hi.symm.trans hj'))

/-- Each entry is what its own name is looked up as. -/
theorem get?_of_slot (he : t.entries[slot]? = some entry) : t.get? entry.name = some entry := by
  have hname : t.names[slot]? = some entry.name := by
    rw [names, List.getElem?_map, he]
    rfl
  rw [get?, (ht entry.name slot).2 hname]
  exact he

theorem get?_name (h : t.get? name = some entry) : entry.name = name := by
  obtain ⟨k, hk, he⟩ := Option.bind_eq_some_iff.1 h
  have hname := (ht name k).1 hk
  rw [names, List.getElem?_map, he] at hname
  exact Option.some.inj hname

theorem mem_entries_iff : entry ∈ t.entries ↔ t.get? entry.name = some entry := by
  constructor
  · intro h
    obtain ⟨k, hk⟩ := List.mem_iff_getElem?.1 h
    exact ht.get?_of_slot hk
  · intro h
    obtain ⟨k, _, he⟩ := Option.bind_eq_some_iff.1 h
    exact List.mem_of_getElem? he

theorem mem_names_iff : name ∈ t.names ↔ ∃ slot, t.index.lookup name = some slot := by
  rw [List.mem_iff_getElem?]
  exact exists_congr fun k => (ht name k).symm

/-- A name is looked up as the entry that the list has under it. -/
theorem find?_entries (name : String) : t.entries.find? (·.name = name) = t.get? name := by
  cases hg : t.get? name with
  | none =>
    rw [List.find?_eq_none]
    intro entry hentry hname
    have hfound := ht.mem_entries_iff.1 hentry
    rw [of_decide_eq_true hname, hg] at hfound
    exact nomatch hfound
  | some entry =>
    have hmem : entry ∈ t.entries := ht.mem_entries_iff.2 (by rw [ht.get?_name hg, hg])
    obtain ⟨other, hother⟩ : ∃ other, t.entries.find? (·.name = name) = some other := by
      rw [← Option.isSome_iff_exists, List.find?_isSome]
      exact ⟨entry, hmem, decide_eq_true (ht.get?_name hg)⟩
    have hname : other.name = name := by simpa using List.find?_some hother
    have hfound := ht.mem_entries_iff.1 (List.mem_of_find?_eq_some hother)
    rw [hname, hg] at hfound
    rw [hother, hfound]

theorem entries_eq : t.entries = t.names.filterMap t.get? := by
  rw [names, List.filterMap_map]
  have hself : ∀ entry ∈ t.entries, (t.get? ∘ (·.name)) entry = some entry :=
    fun entry h => ht.mem_entries_iff.1 h
  rw [List.filterMap_congr hself, List.filterMap_some]

theorem names_record (symbol : InjectedSymbol) :
    (t.record symbol).2.names =
      if symbol.name ∈ t.names then t.names else t.names ++ [symbol.name] := by
  cases hl : t.index.lookup symbol.name with
  | some slot =>
    rw [record_known hl, names_replace ht hl, if_pos (ht.mem_names_iff.2 ⟨slot, hl⟩)]
  | none =>
    have hnew : symbol.name ∉ t.names := by
      rw [ht.mem_names_iff, hl]
      simp
    rw [record_new hl, if_neg hnew]
    simp [names]

omit ht in
/-- Recording tells the address that the name had before. -/
theorem record_previous (symbol : InjectedSymbol) :
    (t.record symbol).1 = (t.get? symbol.name).map (·.address) := by
  unfold SymbolTable.record SymbolTable.get?
  cases t.index.lookup symbol.name with
  | some slot => rfl
  | none => rfl

/-- Entries of other names stay what they are and where they are. -/
theorem getElem?_record (hn : entry.name ≠ symbol.name) :
    (t.record symbol).2.entries[slot]? = some entry ↔ t.entries[slot]? = some entry := by
  cases hl : t.index.lookup symbol.name with
  | some k =>
    rw [record_known hl]
    by_cases hk : k = slot
    · subst hk
      have hname := (ht symbol.name k).1 hl
      have hlt := ht.slot_lt hl
      rw [List.getElem?_set_self hlt]
      rw [names, List.getElem?_map] at hname
      constructor
      · rintro ⟨⟩
        exact absurd rfl hn
      · intro he
        rw [he] at hname
        exact absurd (Option.some.inj hname) hn
    · rw [List.getElem?_set_ne hk]
  | none =>
    rw [record_new hl, getElem?_append_singleton]
    by_cases hk : slot = t.entries.length
    · rw [if_pos hk, List.getElem?_eq_none (Nat.le_of_eq hk.symm)]
      constructor
      · rintro ⟨⟩
        exact absurd rfl hn
      · intro he
        cases he
    · rw [if_neg hk]

end Indexed

/-- A table that has been brought to where it is by recording these symbols. -/
structure Lists (t : SymbolTable) (symbols : List InjectedSymbol) : Prop where
  indexed : t.Indexed
  names : t.names = (symbols.map (·.name)).eraseDups
  get? : t.get? = latest? symbols

namespace Lists

variable {symbols : List InjectedSymbol}

theorem empty : SymbolTable.empty.Lists [] :=
  ⟨indexed_empty, rfl, rfl⟩

theorem record (h : t.Lists symbols) (symbol : InjectedSymbol) :
    (t.record symbol).2.Lists (symbols ++ [symbol]) := by
  have hmem : symbol.name ∈ t.names ↔ symbol.name ∈ symbols.map (·.name) := by
    rw [h.names, List.mem_eraseDups]
  constructor
  · exact h.indexed.record symbol
  · rw [h.indexed.names_record, List.map_append, List.map_singleton, eraseDups_append_singleton,
      h.names]
    simp only [List.mem_eraseDups]
  · funext name
    rw [get?_record h.indexed, latest?_append, h.get?]

theorem entries (h : t.Lists symbols) : t.entries = roster symbols := by
  rw [h.indexed.entries_eq, h.names, h.get?]
  rfl

theorem find?_roster (h : t.Lists symbols) (name : String) :
    (roster symbols).find? (·.name = name) = t.get? name := by
  rw [← h.entries]
  exact h.indexed.find?_entries name

end Lists

/-- What is done to a table as a whole. -/
inductive Edit where
  | record (symbol : InjectedSymbol)
  | clear
  deriving DecidableEq, Repr

def edit (t : SymbolTable) : Edit → SymbolTable
  | .record symbol => (t.record symbol).2
  | .clear => .empty

def Edit.note (symbols : List InjectedSymbol) : Edit → List InjectedSymbol
  | record symbol => symbols ++ [symbol]
  | clear => []

/-- What has been recorded since the table was last cleared. -/
def recorded (edits : List Edit) : List InjectedSymbol :=
  edits.foldl Edit.note []

theorem Lists.edit {symbols : List InjectedSymbol} (h : t.Lists symbols) (edit : Edit) :
    (t.edit edit).Lists (edit.note symbols) := by
  cases edit with
  | record symbol => exact h.record symbol
  | clear => exact .empty

theorem lists_edits (edits : List Edit) : (edits.foldl edit .empty).Lists (recorded edits) := by
  have hfold : ∀ {t symbols}, t.Lists symbols →
      (edits.foldl edit t).Lists (edits.foldl Edit.note symbols) := by
    induction edits with
    | nil => exact id
    | cons e rest ih => exact fun h => ih (h.edit e)
  exact hfold .empty

end SymbolTable

/-- The symbols that have been injected into the context of an index. -/
def injectedOn (index : Nat) (turns : List Turn) : List InjectedSymbol :=
  (performedOn index turns).filterMap Operation.symbol?

/-- What a context records of the injections performed on it. -/
structure Context.Enrolls (c : Context) (past : List Operation) : Prop where
  listed : c.stage ≠ .disposed → c.symbols.Lists (past.filterMap Operation.symbol?)
  emptied : c.stage = .disposed → c.symbols = .empty

private theorem Operation.kind_ne_of_symbol? {operation : Operation}
    (hk : operation.symbol? = none) : operation.kind ≠ .injection := by
  cases operation <;> simp_all [symbol?, kind]

private theorem Task.Does.injects {c c' : Context} {t : CText} {symbol : InjectedSymbol}
    {ds : List Deed} {value : Value} (hd : (Task.inject t symbol).Does c ds (.ok value) c') :
    c' = { c with symbols := (c.symbols.record symbol).2 } := by
  cases hd with
  | injected => rfl

private theorem Context.enrolls : Account Context.Enrolls where
  fresh table handle := ⟨fun _ => .empty, fun _ => rfl⟩
  retained := by
    intro c c' past h hr
    constructor
    · intro hl
      rw [hr.symbols]
      exact h.listed (mt hr.disposed.2 hl)
    · intro hd
      rw [hr.symbols]
      exact h.emptied (hr.disposed.1 hd)
  performed := by
    intro c c' past operation ds value h hd
    cases hd with
    | @performed task _ _ _ hc hd =>
      obtain ⟨hkind, htimely⟩ := (operation.checks c).of_ok task hc
      refine ⟨fun _ => ?_, fun hs => (hd.emptied htimely hs).1⟩
      rw [List.filterMap_append]
      cases hk : operation.symbol? with
      | some symbol =>
        have hinject : ∃ t, task = .inject t symbol := by
          rcases operation.check_symbol hk c with ⟨e, he⟩ | ⟨t, _, hok⟩
          · exact nomatch he.symm.trans hc
          · exact ⟨t, Except.ok.inj (hc.symm.trans hok)⟩
        obtain ⟨t, rfl⟩ := hinject
        rw [hd.injects]
        simpa [hk] using (h.listed htimely.live).record symbol
      | none =>
        have hother : task.kind ≠ .injection := by
          rw [hkind]
          exact Operation.kind_ne_of_symbol? hk
        rcases (hd.symbols hother).2 with hsymbols | ⟨hdisposed, _⟩
        · rw [hsymbols]
          simpa [hk] using h.listed htimely.live
        · contradiction

namespace Session

/-- A live context lists each name that has been injected into it once, where it came up first and
with what was injected under it last, and finds just those names; a disposed one lists and finds
nothing. However a table is recorded into and cleared, its index leads from each recorded name to
the name's own entry and nowhere else; recording tells the address that the name had before, and
leaves the entries of all other names where they are. -/
theorem roster_of_injections (compiler : Compiler σ) (toolchain : Toolchain) (w : World σ)
    (moves : List Move) :
    let start : Session σ := ⟨toolchain, w, []⟩
    let s := (start.play compiler moves).1
    (∀ i c, s.context? i = some c →
      let injected := injectedOn i (start.turns compiler moves)
      (c.stage ≠ .disposed →
        c.symbols.entries = roster injected ∧
          ∀ name, c.symbols.get? name = (roster injected).find? (·.name = name) ∧
            (c.symbols.get? name = none ↔ ∀ symbol ∈ injected, symbol.name ≠ name)) ∧
        (c.stage = .disposed → c.symbols.entries = [] ∧ ∀ name, c.symbols.get? name = none)) ∧
      ∀ edits : List SymbolTable.Edit,
        let t := edits.foldl SymbolTable.edit .empty
        let recorded := SymbolTable.recorded edits
        t.entries = roster recorded ∧ t.names.Nodup ∧
          (∀ name slot, t.index.lookup name = some slot ↔ t.names[slot]? = some name) ∧
          (∀ name slot, t.index.lookup name = some slot → slot < t.entries.length) ∧
          (∀ name, (∃ slot, t.index.lookup name = some slot) ↔
            ∃ symbol ∈ recorded, symbol.name = name) ∧
          ∀ symbol, (t.record symbol).1 = (latest? recorded symbol.name).map (·.address) ∧
            ∀ (slot : Nat) (entry : InjectedSymbol), entry.name ≠ symbol.name →
              ((t.record symbol).2.entries[slot]? = some entry ↔
                t.entries[slot]? = some entry) := by
  intro start s
  constructor
  · intro i c hi injected
    have henrolls : c.Enrolls (performedOn i (start.turns compiler moves)) :=
      Context.enrolls.play compiler toolchain w moves hi
    constructor
    · intro hl
      have hlists : c.symbols.Lists injected := henrolls.listed hl
      refine ⟨hlists.entries, fun name => ⟨(hlists.find?_roster name).symm, ?_⟩⟩
      rw [hlists.get?, latest?_eq_none_iff]
    · intro hd
      rw [henrolls.emptied hd]
      exact ⟨rfl, fun _ => rfl⟩
  · intro edits t recorded
    have hlists : t.Lists recorded := SymbolTable.lists_edits edits
    have ht := hlists.indexed
    refine ⟨hlists.entries, ht.nodup, ht, fun name slot => ht.slot_lt, ?_, ?_⟩
    · intro name
      rw [← ht.mem_names_iff, hlists.names, List.mem_eraseDups, List.mem_map]
    · intro symbol
      rw [SymbolTable.Indexed.record_previous, hlists.get?]
      exact ⟨rfl, fun slot entry => ht.getElem?_record⟩

/-- A name that is injected twice stays where it came up first. -/
theorem reinjected_symbol_listed_once :
    let toolchain : Toolchain := ⟨⟨.wide, ⟨[]⟩⟩, ⟨⟨[]⟩⟩, {}⟩
    let moves : List Move := [.openContext true, .perform 0 (.injectData "x" (.word 1)),
      .perform 0 (.injectData "y" (.word 2)), .perform 0 (.injectRaw "x" .function (.word 3))]
    let s := (play .agreeable ⟨toolchain, ⟨(), []⟩, []⟩ moves).1
    ∃ c, s.context? 0 = some c ∧ c.stage ≠ .disposed ∧
      c.symbols.entries = [⟨"x", .function, .word 3⟩, ⟨"y", .data, .word 2⟩] := by
  intro toolchain moves s
  obtain ⟨c, hc⟩ : ∃ c, s.context? 0 = some c := ⟨_, rfl⟩
  have hl : c.stage ≠ .disposed := by
    cases hc
    decide
  obtain ⟨hlisted, _⟩ := (roster_of_injections .agreeable toolchain ⟨(), []⟩ moves).1 0 c hc
  refine ⟨c, hc, hl, ?_⟩
  rw [(hlisted hl).1]
  decide

end Session

end EmbeddedC
