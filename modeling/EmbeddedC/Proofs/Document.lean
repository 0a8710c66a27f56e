import EmbeddedC.Config.Decode
import EmbeddedC.Proofs.Encoding
import Mathlib.Data.List.Nodup
/-!
# Names in documents

No table of a document has two entries of one name, however the document was written. So the macros
that a config lists are all in its macro table, each with the value that it was listed with.
-/

namespace EmbeddedC.Toml

section Readers

variable {α β : Type}

/-- All that a reader gives has a property. -/
def Reader.Gives (P : α → Prop) (r : Reader α) : Prop :=
  ∀ s a rest, r s = some (a, rest) → P a

namespace Reader.Gives

variable {P : α → Prop} {Q : β → Prop} {r r' : Reader α}

theorem any (r : Reader α) : r.Gives fun _ => True :=
  fun _ _ _ _ => trivial

theorem refuse : (Reader.refuse : Reader α).Gives P := by
  intro s a rest h
  exact nomatch h

theorem pure {a : α} (h : P a) : (Pure.pure a : Reader α).Gives P := by
  intro s b rest hb
  cases hb
  exact h

theorem bind {f : α → Reader β} (hr : r.Gives P) (hf : ∀ a, P a → (f a).Gives Q) :
    (r >>= f).Gives Q := by
  intro s b rest h
  obtain ⟨⟨a, s'⟩, ha, hb⟩ := Option.bind_eq_some_iff.1 h
  exact hf a (hr s a s' ha) s' b rest hb

theorem map {f : α → β} (hr : r.Gives P) (hf : ∀ a, P a → Q (f a)) : (f <$> r).Gives Q :=
  hr.bind fun a ha => pure (hf a ha)

theorem orElse (hr : r.Gives P) (hr' : r'.Gives P) : (r <|> r').Gives P := by
  intro s a rest h
  have hstep : (r <|> r') s = (r s <|> r' s) := rfl
  rw [hstep] at h
  cases hs : r s with
  | none =>
    rw [hs] at h
    exact hr' s a rest h
  | some out =>
    rw [hs] at h
    exact hr s a rest (hs.trans h)

theorem maybe (hr : r.Gives P) : (Reader.maybe r).Gives fun a? => ∀ a, a? = some a → P a := by
  refine orElse (hr.map ?_) (pure ?_)
  · rintro a ha _ ⟨⟩
    exact ha
  · rintro a ⟨⟩

theorem many (hr : r.Gives P) : (Reader.many r).Gives fun as => ∀ a ∈ as, P a := by
  have hupTo : ∀ n, (manyUpTo r n).Gives fun as => ∀ a ∈ as, P a := by
    intro n
    induction n with
    | zero => exact pure (by simp)
    | succ n ih =>
      refine hr.maybe.bind ?_
      intro a? ha
      cases a? with
      | none => exact pure (by simp)
      | some a => exact ih.map fun as has => List.forall_mem_cons.2 ⟨ha a rfl, has⟩
  intro s as rest h
  exact hupTo s.length s as rest h

theorem separated1 (hr : r.Gives P) (separator : Reader Unit) :
    (Reader.separated1 r separator).Gives fun as => ∀ a ∈ as, P a := by
  have hrest := ((any separator).bind fun _ _ => hr).many
  refine hr.bind fun a ha => hrest.bind fun as has => pure ?_
  exact List.forall_mem_cons.2 ⟨ha, has⟩

end Reader.Gives

end Readers

/-- No table in it has two entries of one name. -/
inductive Node.Tidy : Node → Prop
  | scalar (value : Scalar) : Tidy (.scalar value)
  | array {items : List Node} (h : ∀ n ∈ items, n.Tidy) : Tidy (.array items)
  | table {origin : Origin} {entries : List (String × Node)} (hn : (entries.map Prod.fst).Nodup)
    (h : ∀ e ∈ entries, e.2.Tidy) : Tidy (.table origin entries)
  | tables {elements : List (List (String × Node))}
    (hn : ∀ entries ∈ elements, (entries.map Prod.fst).Nodup)
    (h : ∀ entries ∈ elements, ∀ e ∈ entries, e.2.Tidy) : Tidy (.tables elements)

namespace Entries

structure Tidy (entries : Entries) : Prop where
  names : (entries.map Prod.fst).Nodup
  nodes : ∀ e ∈ entries, e.2.Tidy

variable {entries target out : Entries} {name : String} {node : Node}

theorem tidy_nil : Tidy [] := ⟨List.nodup_nil, by simp⟩

theorem lookup_none_iff : entries.lookup name = none ↔ name ∉ entries.map Prod.fst := by
  rw [List.lookup_eq_none_iff, List.mem_map]
  constructor
  · rintro h ⟨e, he, rfl⟩
    simpa using h e he
  · intro h e he
    simpa using fun hn => h ⟨e, he, hn.symm⟩

theorem mem_of_lookup (hl : entries.lookup name = some node) : (name, node) ∈ entries := by
  obtain ⟨before, after, rfl, _⟩ := List.lookup_eq_some_iff.1 hl
  simp

/-- Setting a name that is there changes no names. -/
theorem names_set (hm : name ∈ entries.map Prod.fst) (node : Node) :
    (entries.set name node).map Prod.fst = entries.map Prod.fst := by
  induction entries with
  | nil => exact absurd hm List.not_mem_nil
  | cons e rest ih =>
    by_cases he : e.1 = name
    · simp [set, he]
    · have hrest : name ∈ rest.map Prod.fst := by
        simpa [Ne.symm he] using hm
      simp [set, he, ih hrest]

/-- Setting a name that is not there puts it last. -/
theorem set_of_lookup_none (hl : entries.lookup name = none) (node : Node) :
    entries.set name node = entries ++ [(name, node)] := by
  rw [lookup_none_iff] at hl
  induction entries with
  | nil => rfl
  | cons e rest ih =>
    simp only [List.map_cons, List.mem_cons, not_or] at hl
    simp [set, Ne.symm hl.1, ih hl.2]

theorem mem_set {e : String × Node} (he : e ∈ entries.set name node) :
    e = (name, node) ∨ e ∈ entries := by
  induction entries with
  | nil => simpa [set] using he
  | cons first rest ih =>
    rw [set] at he
    split at he
    · rcases List.mem_cons.1 he with rfl | he
      · exact .inl rfl
      · exact .inr (.tail _ he)
    · rcases List.mem_cons.1 he with rfl | he
      · exact .inr (.head _)
      · exact (ih he).imp_right (.tail _)

theorem Tidy.append (h : entries.Tidy) (hl : entries.lookup name = none) (hv : node.Tidy) :
    Tidy (entries ++ [(name, node)]) where
  names := by
    rw [lookup_none_iff] at hl
    rw [List.map_append]
    refine h.names.append (List.nodup_singleton _) ?_
    simpa using hl
  nodes := List.forall_mem_append.2 ⟨h.nodes, by simpa using hv⟩

theorem Tidy.set (h : entries.Tidy) (hv : node.Tidy) : (entries.set name node).Tidy := by
  by_cases hm : name ∈ entries.map Prod.fst
  · constructor
    · rw [names_set hm]
      exact h.names
    · intro e he
      rcases mem_set he with rfl | he
      · exact hv
      · exact h.nodes e he
  · rw [set_of_lookup_none (lookup_none_iff.2 hm)]
    exact h.append (lookup_none_iff.2 hm) hv

theorem Tidy.of_lookup (h : entries.Tidy) (hl : entries.lookup name = some node) : node.Tidy :=
  h.nodes _ (mem_of_lookup hl)

theorem Tidy.table (h : entries.Tidy) (origin : Origin) : (Node.table origin entries).Tidy :=
  .table h.names h.nodes

theorem tidy_of_table {origin : Origin} (h : (Node.table origin entries).Tidy) :
    entries.Tidy := by
  cases h with
  | table hn h => exact ⟨hn, h⟩

theorem tidy_tables {elements : List Entries} :
    (Node.tables elements).Tidy ↔ ∀ entries ∈ elements, entries.Tidy := by
  constructor
  · intro h entries he
    cases h with
    | tables hn h => exact ⟨hn entries he, h entries he⟩
  · intro h
    exact .tables (fun entries he => (h entries he).names) fun entries he => (h entries he).nodes

section Change

variable {way : Way} {change : Origin → Entries → Option Entries}

theorem Tidy.modifyAt
    (hchange : ∀ {origin target out}, change origin target = some out → Tidy target → Tidy out)
    {path : List String} {origin : Origin} (h : entries.Tidy)
    (hout : modifyAt way change path origin entries = some out) : out.Tidy := by
  induction path generalizing origin entries out with
  | nil => exact hchange hout h
  | cons name path ih =>
    rw [Entries.modifyAt] at hout
    split at hout
    · obtain ⟨inner, hinner, hset⟩ := Option.bind_eq_some_iff.1 hout
      cases hset
      exact h.set ((ih tidy_nil hinner).table _)
    · exact nomatch hout
    · exact nomatch hout
    · exact nomatch hout
    · next elements hl =>
      have helements := tidy_tables.1 (h.of_lookup hl)
      obtain ⟨last, hlast, hrest⟩ := Option.bind_eq_some_iff.1 hout
      obtain ⟨inner, hinner, hset⟩ := Option.bind_eq_some_iff.1 hrest
      cases hset
      have htidy := ih (helements last (List.mem_of_getLast? hlast)) hinner
      refine h.set (tidy_tables.2 (List.forall_mem_append.2 ⟨?_, by simpa using htidy⟩))
      exact fun es hes => helements es (List.dropLast_subset _ hes)
    · next inner hne hl =>
      split at hout
      · exact nomatch hout
      · obtain ⟨changed, hchanged, hset⟩ := Option.bind_eq_some_iff.1 hout
        cases hset
        exact h.set ((ih (tidy_of_table (h.of_lookup hl)) hchanged).table _)

theorem Tidy.insert {path : List String} (h : entries.Tidy) (hv : node.Tidy)
    (hout : entries.insert path name node = some out) : out.Tidy := by
  refine h.modifyAt ?_ hout
  intro origin target out hout htarget
  split at hout
  · exact nomatch hout
  · split at hout
    · exact nomatch hout
    · next hnone =>
      cases hout
      exact htarget.append (Option.not_isSome_iff_eq_none.1 hnone) hv

theorem Tidy.openTable {path : List String} (h : entries.Tidy)
    (hout : entries.openTable path name = some out) : out.Tidy := by
  refine h.modifyAt ?_ hout
  intro origin target out hout htarget
  split at hout
  · next hl =>
    cases hout
    exact htarget.append hl (tidy_nil.table _)
  · next inner hl =>
    cases hout
    exact htarget.set ((tidy_of_table (htarget.of_lookup hl)).table _)
  · exact nomatch hout

theorem Tidy.openElement {path : List String} (h : entries.Tidy)
    (hout : entries.openElement path name = some out) : out.Tidy := by
  refine h.modifyAt ?_ hout
  intro origin target out hout htarget
  split at hout
  · next hl =>
    cases hout
    exact htarget.append hl (tidy_tables.2 (by simpa using tidy_nil))
  · next elements hl =>
    cases hout
    have helements := tidy_tables.1 (htarget.of_lookup hl)
    refine htarget.set (tidy_tables.2 (List.forall_mem_append.2 ⟨helements, ?_⟩))
    simpa using tidy_nil
  · exact nomatch hout

theorem Tidy.insertUnder {header path : List String} (h : entries.Tidy) (hv : node.Tidy)
    (hout : entries.insertUnder header path name node = some out) : out.Tidy := by
  refine h.modifyAt ?_ hout
  intro origin target out hout htarget
  exact htarget.insert hv hout

end Change

end Entries

private theorem foldlM_keeps {α β : Type} {P : β → Prop} {f : β → α → Option β} {l : List α}
    (hf : ∀ b a b', a ∈ l → f b a = some b' → P b → P b') {b b' : β}
    (h : l.foldlM f b = some b') (hb : P b) : P b' := by
  induction l generalizing b with
  | nil =>
    cases h
    exact hb
  | cons a rest ih =>
    obtain ⟨mid, hmid, hrest⟩ := Option.bind_eq_some_iff.1 h
    exact ih (fun b a b' ha => hf b a b' (.tail _ ha)) hrest (hf b a mid (.head _) hmid hb)

section Values

open Reader

theorem gives_array {item : Reader Node} (h : item.Gives Node.Tidy) :
    (array item).Gives Node.Tidy := by
  refine (Gives.any _).bind fun _ _ => ?_
  refine (((Gives.any _).bind fun _ _ => h.bind fun n hn =>
    (Gives.any _).bind fun _ _ => Gives.pure hn).separated1 _).maybe.bind fun items hitems => ?_
  have hall : ∀ n ∈ items.getD [], n.Tidy := by
    cases items with
    | none => simp
    | some items => exact hitems items rfl
  dsimp only
  split
  · refine (Gives.any _).bind fun _ _ => (Gives.any _).bind fun _ _ => ?_
    exact (Gives.any _).bind fun _ _ => Gives.pure (.array hall)
  · exact (Gives.any _).bind fun _ _ => (Gives.any _).bind fun _ _ => Gives.pure (.array hall)

theorem gives_inlineTable {item : Reader Node} (h : item.Gives Node.Tidy) :
    (inlineTable item).Gives Node.Tidy := by
  refine (Gives.any _).bind fun _ _ => ?_
  dsimp only
  have hpair : Gives (fun p : (List String × String) × Node => p.2.Tidy) (do
      let k ← key
      char '='
      spaces
      let n ← item
      spaces
      pure (k, n)) := by
    refine (Gives.any _).bind fun k _ => (Gives.any _).bind fun _ _ => ?_
    refine (Gives.any _).bind fun _ _ => h.bind fun n hn => ?_
    exact (Gives.any _).bind fun _ _ => Gives.pure hn
  refine (hpair.separated1 _).maybe.bind fun pairs hpairs => ?_
  refine (Gives.any _).bind fun _ _ => (Gives.any _).bind fun _ _ => ?_
  split
  · next entries hentries =>
    refine Gives.pure (Entries.Tidy.table ?_ _)
    refine foldlM_keeps ?_ hentries Entries.tidy_nil
    rintro es ⟨⟨path, name⟩, n⟩ es' hp hes htidy
    refine htidy.insert ?_ hes
    cases pairs with
    | none => exact absurd hp List.not_mem_nil
    | some pairs => exact hpairs pairs rfl _ hp
  · exact Gives.refuse

theorem gives_value (depth : Nat) : (value depth).Gives Node.Tidy := by
  induction depth with
  | zero => exact (Gives.any _).map fun v _ => .scalar v
  | succ depth ih =>
    exact (gives_array ih).orElse
      ((gives_inlineTable ih).orElse ((Gives.any _).map fun v _ => .scalar v))

/-- What a line adds is tidy. -/
def Line.Tidy : Line → Prop
  | pair _ _ v => v.Tidy
  | header _ _ | element _ _ | blank => True

theorem gives_line : line.Gives Line.Tidy := by
  have hblank : blankLine.Gives Line.Tidy := (Gives.any _).bind fun _ _ => Gives.pure trivial
  have hheader : headerLine.Gives Line.Tidy := by
    refine (Gives.any _).bind fun doubled? _ => ?_
    cases doubled? with
    | none =>
      refine (Gives.any _).bind fun _ _ => (Gives.any _).bind fun k _ => ?_
      refine (Gives.any _).bind fun _ _ => (Gives.any _).bind fun _ _ => ?_
      exact Gives.pure trivial
    | some _ =>
      refine (Gives.any _).bind fun k _ => (Gives.any _).bind fun _ _ => ?_
      exact (Gives.any _).bind fun _ _ => Gives.pure trivial
  have hpair : pairLine.Gives Line.Tidy := by
    refine (Gives.any _).bind fun k _ => (Gives.any _).bind fun _ _ => ?_
    refine (Gives.any _).bind fun _ _ => (gives_value _).bind fun v hv => ?_
    exact (Gives.any _).bind fun _ _ => Gives.pure hv
  refine (hblank.orElse (hheader.orElse hpair)).bind fun l hl => ?_
  exact (Gives.any _).bind fun _ _ => Gives.pure hl

theorem addLine_tidy {state state' : Entries × List String} {l : Line} (hl : l.Tidy)
    (h : state.1.Tidy) (hout : addLine state l = some state') : state'.1.Tidy := by
  cases l with
  | header path name =>
    obtain ⟨entries, ho, hs⟩ := Option.bind_eq_some_iff.1 hout
    cases hs
    exact h.openTable ho
  | element path name =>
    obtain ⟨entries, ho, hs⟩ := Option.bind_eq_some_iff.1 hout
    cases hs
    exact h.openElement ho
  | pair path name v =>
    obtain ⟨entries, ho, hs⟩ := Option.bind_eq_some_iff.1 hout
    cases hs
    exact h.insertUnder hl ho
  | blank =>
    cases hout
    exact h

/-- No table of a document has two entries of one name. -/
theorem parse?_tidy {text : String} {entries : Entries} (h : parse? text = some entries) :
    entries.Tidy := by
  obtain ⟨read, hread, hrest⟩ := Option.bind_eq_some_iff.1 h
  obtain ⟨⟨last, path⟩, hlast, hlast'⟩ := Option.bind_eq_some_iff.1 hrest
  cases hlast'
  have hlines : lines.Gives fun ls => ∀ l ∈ ls, l.Tidy :=
    (Gives.any _).bind fun _ _ => (Gives.any _).bind fun _ _ => gives_line.many
  have hall : ∀ l ∈ read, l.Tidy := by
    unfold run? at hread
    split at hread
    · next ls hls =>
      cases hread
      exact hlines _ _ _ hls
    · exact nomatch hread
  exact foldlM_keeps (P := fun state => state.1.Tidy)
    (fun state l state' hl hstep hstate => addLine_tidy (hall l hl) hstate hstep) hlast
    Entries.tidy_nil

end Values

end EmbeddedC.Toml

namespace EmbeddedC.Config

open Toml

def Section.Tidy : Section → Prop
  | named entries => entries.Tidy
  | listed items => ∀ n ∈ items, n.Tidy

theorem Section.tidy_of_node {node : Node} {s : Section} (h : node.Tidy)
    (hs : Section.ofNode? node = some s) : s.Tidy := by
  unfold Section.ofNode? at hs
  split at hs
  · cases hs
    exact Entries.tidy_of_table h
  · cases hs
    cases h with
    | array h => exact h
  · cases hs
    have helements := Entries.tidy_tables.1 h
    exact List.forall_mem_map.2 fun es he => (helements es he).table _
  · cases hs
    exact ⟨List.nodup_singleton _, by simpa using .scalar _⟩
  · exact nomatch hs

theorem Section.field_tidy {s : Section} (h : s.Tidy) {position : Nat} {name : String}
    {node : Node} (hf : s.field? position name = some node) : node.Tidy := by
  cases s with
  | named entries => exact Entries.Tidy.of_lookup h hf
  | listed items => exact h node (List.mem_of_getElem? hf)

/-- A field has its default, or what its node decodes to. -/
theorem Section.of_decode {α : Type} {s : Section} (h : s.Tidy) {position : Nat} {name : String}
    {default a : α} {decode? : Node → Option α}
    (hd : s.decode position name default decode? = some a) :
    a = default ∨ ∃ node : Node, node.Tidy ∧ decode? node = some a := by
  unfold Section.decode at hd
  split at hd
  · exact .inl (Option.some.inj hd).symm
  · next node hf => exact .inr ⟨node, Section.field_tidy h hf, hd⟩

private theorem names_mapM {entries : Entries} {defines : List (String × String)}
    (h : entries.mapM (fun (name, node) => do pure (name, ← text? node)) = some defines) :
    defines.map Prod.fst = entries.map Prod.fst := by
  induction entries generalizing defines with
  | nil =>
    cases h
    rfl
  | cons e rest ih =>
    rw [List.mapM_cons] at h
    obtain ⟨d, hd, hrest⟩ := Option.bind_eq_some_iff.1 h
    obtain ⟨ds, hds, hcons⟩ := Option.bind_eq_some_iff.1 hrest
    obtain ⟨text, _, hpair⟩ := Option.bind_eq_some_iff.1 hd
    cases hcons
    cases hpair
    rw [List.map_cons, List.map_cons, ih hds]

private theorem encode_injective {name other : String}
    (h : Text.Utf8.encode name = Text.Utf8.encode other) : name = other := by
  have hlossy := congrArg Text.Utf8.lossy h
  rwa [Text.Utf8.lossy_encode, Text.Utf8.lossy_encode] at hlossy

namespace MacroTable

variable {entry : String × String} {entries : List (String × String)}

/-- A new name takes no other's place. -/
theorem perm_insertEntry (h : entry.1 ∉ entries.map Prod.fst) :
    (insertEntry entry entries).Perm (entry :: entries) := by
  induction entries with
  | nil => exact .refl _
  | cons first rest ih =>
    rw [List.map_cons, List.mem_cons, not_or] at h
    simp only [insertEntry]
    split
    · exact .refl _
    · next hge =>
      split
      · exact ((ih h.2).cons first).trans (.swap entry first rest)
      · next hle =>
        have hsame := encode_injective (List.le_antisymm (List.not_lt.1 hge) (List.not_lt.1 hle))
        exact absurd hsame.symm h.1

private theorem perm_foldl_insert (macros : List (String × String)) (t : MacroTable)
    (h : ((macros ++ t.entries).map Prod.fst).Nodup) :
    (macros.foldl insert t).entries.Perm (macros ++ t.entries) := by
  induction macros generalizing t with
  | nil => exact .refl _
  | cons entry rest ih =>
    rw [List.cons_append, List.map_cons, List.nodup_cons] at h
    have hfresh : entry.1 ∉ t.entries.map Prod.fst := by
      rw [List.map_append, List.mem_append, not_or] at h
      exact h.1.2
    have hinsert : (t.insert entry).entries.Perm (entry :: t.entries) := perm_insertEntry hfresh
    have hmove : (rest ++ (t.insert entry).entries).Perm (entry :: (rest ++ t.entries)) :=
      (hinsert.append_left rest).trans List.perm_middle
    refine (ih (t.insert entry) ?_).trans hmove
    rw [(hmove.map Prod.fst).nodup_iff, List.map_cons, List.nodup_cons]
    exact h

/-- Of macros with names of their own none is lost. -/
theorem perm_ofList {macros : List (String × String)} (h : (macros.map Prod.fst).Nodup) :
    (ofList macros).entries.Perm macros := by
  have hall := perm_foldl_insert macros empty (by rwa [empty, List.append_nil])
  rwa [empty, List.append_nil] at hall

end MacroTable

/-- No name is listed twice. -/
theorem nodup_of_macros? {node : Node} (h : node.Tidy) {listed : List (String × String)}
    (hm : macros? node = some listed) : (listed.map Prod.fst).Nodup := by
  unfold macros? at hm
  split at hm
  · next entries hs =>
    have htidy : entries.Tidy := Section.tidy_of_node h hs
    exact names_mapM hm ▸ htidy.names
  · exact nomatch hm

/-- The macros that a section lists, as it lists them. -/
def compileMacros? (n : Node) : Option (List (String × String)) := do
  let s ← Section.ofNode? n
  s.decode 4 "defines" [] macros?

/-- The macros that a text lists, as it lists them. -/
def textMacros? (text : String) : Option (List (String × String)) := do
  let s := Section.named (← parse? text)
  s.decode 1 "compile" [] compileMacros?

theorem nodup_of_compileMacros? {node : Node} (h : node.Tidy) {listed : List (String × String)}
    (hm : compileMacros? node = some listed) : (listed.map Prod.fst).Nodup := by
  obtain ⟨s, hs, hdecode⟩ := Option.bind_eq_some_iff.1 hm
  rcases Section.of_decode (Section.tidy_of_node h hs) hdecode with rfl | ⟨n, hn, hlisted⟩
  · exact List.nodup_nil
  · exact nodup_of_macros? hn hlisted

theorem nodup_of_textMacros? {text : String} {listed : List (String × String)}
    (hm : textMacros? text = some listed) : (listed.map Prod.fst).Nodup := by
  obtain ⟨entries, hparsed, hdecode⟩ := Option.bind_eq_some_iff.1 hm
  have htidy : Section.Tidy (.named entries) := parse?_tidy hparsed
  rcases Section.of_decode htidy hdecode with rfl | ⟨n, hn, hlisted⟩
  · exact List.nodup_nil
  · exact nodup_of_compileMacros? hn hlisted

private theorem Section.decode_map {α β : Type} {s : Section} {position : Nat} {name : String}
    {decode? : Node → Option α} (f : α → β) (default : α) :
    s.decode position name (f default) (fun n => (decode? n).map f) =
      (s.decode position name default decode?).map f := by
  unfold Section.decode
  cases s.field? position name <;> rfl

private theorem defines_of_compile? {node : Node} {compile : CompileSection}
    (hc : compile? node = some compile) :
    ∃ listed, compileMacros? node = some listed ∧ compile.defines = .ofList listed := by
  obtain ⟨s, hs, hc⟩ := Option.bind_eq_some_iff.1 hc
  obtain ⟨includePaths, _, hc⟩ := Option.bind_eq_some_iff.1 hc
  obtain ⟨sysIncludePaths, _, hc⟩ := Option.bind_eq_some_iff.1 hc
  obtain ⟨libraryPaths, _, hc⟩ := Option.bind_eq_some_iff.1 hc
  obtain ⟨options, _, hc⟩ := Option.bind_eq_some_iff.1 hc
  obtain ⟨defines, hd, hc⟩ := Option.bind_eq_some_iff.1 hc
  cases hc
  have hmap : s.decode 4 "defines" .empty defines? =
      (s.decode 4 "defines" [] macros?).map MacroTable.ofList :=
    Section.decode_map MacroTable.ofList []
  obtain ⟨listed, hlisted, rfl⟩ := Option.map_eq_some_iff.1 (hmap ▸ hd)
  exact ⟨listed, Option.bind_eq_some_iff.2 ⟨s, hs, hlisted⟩, rfl⟩

/-- The macros of a config that was read from a text are those that the text lists. -/
theorem macros_of_text {text : String} {origin : Path} {config : Config}
    (h : ofText text origin = .ok config) :
    ∃ listed, textMacros? text = some listed ∧ config.compile.defines.entries.Perm listed := by
  unfold ofText at h
  split at h
  · next c hc =>
    cases h
    obtain ⟨entries, hparsed, hnative⟩ := Option.bind_eq_some_iff.1 hc
    obtain ⟨native, _, hcompile⟩ := Option.bind_eq_some_iff.1 hnative
    obtain ⟨compile, hdecoded, hconfig⟩ := Option.bind_eq_some_iff.1 hcompile
    cases hconfig
    have hlisted : ∃ listed, Section.decode (.named entries) 1 "compile" [] compileMacros? =
        some listed ∧ compile.defines = .ofList listed := by
      unfold Section.decode at hdecoded ⊢
      split at hdecoded
      · cases hdecoded
        exact ⟨[], rfl, rfl⟩
      · exact defines_of_compile? hdecoded
    obtain ⟨listed, hlisted, hdefines⟩ := hlisted
    have htext : textMacros? text = some listed := by
      rw [textMacros?, hparsed]
      exact hlisted
    refine ⟨listed, htext, ?_⟩
    dsimp only
    rw [hdefines]
    exact MacroTable.perm_ofList (nodup_of_textMacros? htext)
  · exact nomatch h

end EmbeddedC.Config
