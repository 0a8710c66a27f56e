import EmbeddedC.Layout

/-!
# Components

What a path says, its spelling aside. Repeated slashes, a slash at the end and single dots between
slashes add nothing; a root, a dot that comes first and a pair of dots each add one step. A plain
name that is joined to a path adds one step at its end, and so lies under the path.
-/

namespace EmbeddedC

namespace Path

section Cut

variable {name : List UInt8}

theorem cut_ne_nil (bytes : List UInt8) : cut bytes ≠ [] := by
  cases bytes with
  | nil => simp [cut]
  | cons b rest =>
    unfold cut
    split
    · simp
    · split <;> simp

/-- A slash cuts for good: what stands before it and after it is cut apart. -/
theorem cut_append_slash (before after : List UInt8) :
    cut (before ++ slash :: after) = cut before ++ cut after := by
  induction before with
  | nil => simp [cut]
  | cons b before ih =>
    rw [List.cons_append, cut, cut, ih]
    by_cases hb : b = slash
    · simp [hb]
    · obtain ⟨part, parts, hcut⟩ := List.exists_cons_of_ne_nil (cut_ne_nil before)
      simp [hb, hcut]

theorem cut_of_slash_notMem (hn : slash ∉ name) : cut name = [name] := by
  induction name with
  | nil => rfl
  | cons b name ih =>
    have hb : b ≠ slash := fun h => hn (by simp [h])
    rw [cut, if_neg hb, ih fun h => hn (List.mem_cons_of_mem b h)]

private theorem head_cut {bytes first : List UInt8} {rest : List (List UInt8)}
    (hcut : cut bytes = first :: rest) (hfirst : first = []) :
    bytes = [] ∧ rest = [] ∨ bytes.head? = some slash ∧ rest ≠ [] := by
  -- The first part is empty where nothing is cut, or a slash comes first.
  cases bytes with
  | nil =>
    left
    simpa [cut, eq_comm] using (List.cons.inj hcut).2
  | cons b bytes =>
    right
    by_cases hb : b = slash
    · rw [cut, if_pos hb] at hcut
      exact ⟨by simp [hb], (List.cons.inj hcut).2 ▸ cut_ne_nil bytes⟩
    · obtain ⟨part, parts, hrest⟩ := List.exists_cons_of_ne_nil (cut_ne_nil bytes)
      rw [cut, if_neg hb, hrest] at hcut
      exact absurd (hfirst ▸ (List.cons.inj hcut).1) (List.cons_ne_nil b part)

end Cut

/-- What the first segment of a path that is not empty stands for. -/
private def lead (first : List UInt8) : List Component :=
  if first = [] then [.root]
  else if first = [dot] then [.current]
  else (Component.ofSegment? first).toList

private theorem components_eq_lead {p : Path} {first : List UInt8} {rest : List (List UInt8)}
    (hcut : p.segments = first :: rest) (hp : first = [] → rest ≠ []) :
    p.components = lead first ++ rest.filterMap Component.ofSegment? := by
  by_cases hfirst : first = []
  · simp [components, hcut, lead, hfirst, hp hfirst]
  · by_cases hdot : first = [dot]
    · simp [components, hcut, lead, hdot]
    · simp [components, hcut, lead, hfirst, hdot]

section Segment

variable {bytes name : List UInt8}

/-- What stands after a slash adds its step and changes none before it. -/
theorem components_append_segment (before : List UInt8) (hn : slash ∉ name) :
    Path.components ⟨before ++ slash :: name⟩ =
      Path.components ⟨before ++ [slash]⟩ ++ (Component.ofSegment? name).toList := by
  obtain ⟨first, rest, hbefore⟩ := List.exists_cons_of_ne_nil (cut_ne_nil before)
  have hjoin : Path.segments ⟨before ++ slash :: name⟩ = first :: (rest ++ [name]) := by
    rw [segments, cut_append_slash, hbefore, cut_of_slash_notMem hn, List.cons_append]
  have hself : Path.segments ⟨before ++ [slash]⟩ = first :: (rest ++ [[]]) := by
    rw [segments, cut_append_slash, hbefore, List.cons_append]
    rfl
  have hempty : [[]].filterMap Component.ofSegment? = [] := rfl
  have hname : [name].filterMap Component.ofSegment? = (Component.ofSegment? name).toList := by
    cases hc : Component.ofSegment? name <;> simp only [List.filterMap_cons, hc] <;> rfl
  rw [components_eq_lead hjoin fun _ => by simp, components_eq_lead hself fun _ => by simp,
    List.filterMap_append, List.filterMap_append, hempty, hname, List.append_nil,
    List.append_assoc]

/-- A slash at the end adds nothing, unless it is the whole path. -/
theorem components_append_slash (hb : bytes ≠ []) :
    Path.components ⟨bytes ++ [slash]⟩ = Path.components ⟨bytes⟩ := by
  obtain ⟨first, rest, hbytes⟩ := List.exists_cons_of_ne_nil (cut_ne_nil bytes)
  have hself : Path.segments ⟨bytes ++ [slash]⟩ = first :: (rest ++ [[]]) := by
    rw [segments, cut_append_slash, hbytes, List.cons_append]
    rfl
  have hrest (hfirst : first = []) : rest ≠ [] := by
    rcases head_cut hbytes hfirst with ⟨hnil, -⟩ | ⟨-, hrest⟩
    · exact absurd hnil hb
    · exact hrest
  rw [components_eq_lead hself fun _ => by simp, components_eq_lead hbytes hrest]
  simp [Component.ofSegment?]

/-- A path without a slash is one step. A single dot counts, for it comes first. -/
theorem components_of_slash_notMem (hn : slash ∉ name) (hne : name ≠ []) :
    Path.components ⟨name⟩ =
      if name = [dot] then [.current] else (Component.ofSegment? name).toList := by
  have hname : Path.segments ⟨name⟩ = [name] := cut_of_slash_notMem hn
  rw [components_eq_lead hname fun h => absurd h hne, lead, if_neg hne]
  exact List.append_nil _

end Segment

/-- A name that is one step down from wherever it is joined. -/
structure Plain (name : String) : Prop where
  noSlash : slash ∉ Text.Utf8.encode name
  nonempty : Text.Utf8.encode name ≠ []
  noDot : Text.Utf8.encode name ≠ [dot]
  noDots : Text.Utf8.encode name ≠ [dot, dot]

instance (name : String) : Decidable (Plain name) :=
  decidable_of_iff
    (slash ∉ Text.Utf8.encode name ∧ Text.Utf8.encode name ≠ [] ∧
      Text.Utf8.encode name ≠ [dot] ∧ Text.Utf8.encode name ≠ [dot, dot])
    ⟨fun ⟨a, b, c, d⟩ => ⟨a, b, c, d⟩, fun ⟨a, b, c, d⟩ => ⟨a, b, c, d⟩⟩

section Child

variable {name : String}

private theorem ofSegment?_plain (h : Plain name) :
    Component.ofSegment? (Text.Utf8.encode name) = some (.normal (Text.Utf8.encode name)) := by
  simp [Component.ofSegment?, h.nonempty, h.noDot, h.noDots]

private theorem child_eq (p : Path) (h : Plain name) :
    p.child name =
      if p.bytes.isEmpty || p.bytes.getLast? == some slash then ⟨p.bytes ++ Text.Utf8.encode name⟩
      else ⟨p.bytes ++ slash :: Text.Utf8.encode name⟩ := by
  have habs : (ofString name).isAbsolute = false := by
    obtain ⟨b, rest, hname⟩ := List.exists_cons_of_ne_nil h.nonempty
    have hb : b ≠ slash := fun hb => h.noSlash (by simp [hname, hb])
    simp [isAbsolute, ofString, hname, hb]
  rw [child, join, habs]
  rfl

/-- However a path ends, a plain name joined to it is one more component and changes no other. -/
theorem components_child (p : Path) (h : Plain name) :
    (p.child name).components = p.components ++ [.normal (Text.Utf8.encode name)] := by
  have hsolo : (Component.ofSegment? (Text.Utf8.encode name)).toList =
      [.normal (Text.Utf8.encode name)] := by
    rw [ofSegment?_plain h]
    rfl
  rw [child_eq p h]
  rcases p with ⟨bytes⟩
  rcases List.eq_nil_or_concat bytes with rfl | ⟨before, b, hbytes⟩
  · -- Nothing stands before the name: it is the whole path.
    have hwhole := components_of_slash_notMem h.noSlash h.nonempty
    rw [if_neg h.noDot, hsolo] at hwhole
    simpa [components, segments, cut, Component.ofSegment?] using hwhole
  · obtain rfl : bytes = before ++ [b] := hbytes.trans List.concat_eq_append
    by_cases hb : b = slash
    · -- The path brings its own slash.
      rw [if_pos (by simp [hb]), hb, List.append_assoc, List.singleton_append,
        components_append_segment before h.noSlash, hsolo]
    · rw [if_neg (by simp [hb]), components_append_segment _ h.noSlash,
        components_append_slash (by simp), hsolo]

end Child

/-- A path that goes down from another, by names alone and by at least one. -/
def Under (root p : Path) : Prop :=
  ∃ names : List (List UInt8), names ≠ [] ∧
    p.components = root.components ++ names.map .normal

theorem under_child (root : Path) {name : String} (h : Plain name) : Under root (root.child name) :=
  ⟨[Text.Utf8.encode name], by simp, by simpa using components_child root h⟩

theorem Under.child {root p : Path} (hp : Under root p) {name : String} (h : Plain name) :
    Under root (p.child name) := by
  obtain ⟨names, -, hp⟩ := hp
  refine ⟨names ++ [Text.Utf8.encode name], by simp, ?_⟩
  rw [components_child p h, hp]
  simp

section Count

/-- A root, a dot that comes first, and every segment that is neither empty nor a dot. -/
def depth (p : Path) : Nat :=
  (if p.isAbsolute then 1 else 0) + (if p.segments.head? = some [dot] then 1 else 0) +
    p.segments.countP fun segment => segment ≠ [] ∧ segment ≠ [dot]

private theorem length_ofSegment? (segment : List UInt8) :
    (Component.ofSegment? segment).toList.length =
      if segment ≠ [] ∧ segment ≠ [dot] then 1 else 0 := by
  by_cases hsegment : segment = [] ∨ segment = [dot]
  · rcases hsegment with rfl | rfl <;> simp [Component.ofSegment?]
  · obtain ⟨hnil, hdot⟩ := not_or.1 hsegment
    by_cases hdots : segment = [dot, dot] <;> simp [Component.ofSegment?, hnil, hdot, hdots]

private theorem length_filterMap_ofSegment? (parts : List (List UInt8)) :
    (parts.filterMap Component.ofSegment?).length =
      parts.countP fun segment => segment ≠ [] ∧ segment ≠ [dot] := by
  induction parts with
  | nil => rfl
  | cons part parts ih =>
    have hpart := length_ofSegment? part
    rw [List.countP_cons, ← ih]
    cases hof : Component.ofSegment? part with
    | none => simp_all
    | some component => simp_all

/-- Counting components takes no more than looking at the segments. -/
theorem length_components (p : Path) : p.components.length = p.depth := by
  obtain ⟨first, rest, hcut⟩ := List.exists_cons_of_ne_nil (cut_ne_nil p.bytes)
  have hsegments : p.segments = first :: rest := hcut
  by_cases hfirst : first = []
  · rcases head_cut hcut hfirst with ⟨hbytes, hrest⟩ | ⟨hslash, hrest⟩
    · simp [components, depth, hsegments, hfirst, hrest, isAbsolute, hbytes, Component.ofSegment?]
    · rw [components_eq_lead hsegments fun _ => hrest]
      simp [lead, depth, hsegments, hfirst, isAbsolute, hslash, length_filterMap_ofSegment?,
        Nat.add_comm]
  · have habs : p.isAbsolute = false := by
      refine Bool.eq_false_iff.2 fun habs => ?_
      have hslash : p.bytes.head? = some slash := by simpa [isAbsolute] using habs
      obtain ⟨bytes, hbytes⟩ := List.head?_eq_some_iff.1 hslash
      rw [hbytes, cut, if_pos rfl] at hcut
      exact hfirst (List.cons.inj hcut).1.symm
    rw [components_eq_lead hsegments fun h => absurd h hfirst, List.length_append,
      length_filterMap_ofSegment?, depth, hsegments, List.countP_cons, habs]
    by_cases hdot : first = [dot]
    · simp [lead, hdot]
    · simp [lead, hfirst, hdot, length_ofSegment?, Nat.add_comm]

/-- A path of more than one component names a place: it is no bare name. -/
theorem slash_mem_of_two_components {p : Path} (h : 1 < p.components.length) :
    slash ∈ p.bytes := by
  refine Decidable.byContradiction fun hslash => ?_
  have hsegments : p.segments = [p.bytes] := cut_of_slash_notMem hslash
  rw [length_components, depth, hsegments] at h
  have habs : p.isAbsolute = false := by
    refine Bool.eq_false_iff.2 fun habs => hslash ?_
    exact List.mem_of_mem_head? (by simpa [isAbsolute] using habs)
  by_cases hdot : p.bytes = [dot]
  · simp [hdot, isAbsolute, slash, dot] at h
  · by_cases hnil : p.bytes = [] <;> simp [habs, hdot, hnil] at h

end Count

end Path

namespace Layout

/-- What a layout names lies under its root, wherever the root is. -/
theorem under_root (l : Layout) :
    (∀ abi, Path.Under l.root (l.modulePath abi)) ∧ Path.Under l.root l.libDir ∧
      ∀ dir ∈ l.defaultIncludeDirs, Path.Under l.root dir := by
  have hinclude : Path.Under l.root l.includeDir := Path.under_child _ (by decide)
  refine ⟨fun abi => ?_, Path.under_child _ (by decide), fun dir hdir => ?_⟩
  · have hdir : Path.Under l.root (l.root.child abi.moduleDir) :=
      Path.under_child _ (by cases abi <;> decide)
    exact hdir.child (by decide)
  · simp only [defaultIncludeDirs, List.mem_cons, List.not_mem_nil, or_false] at hdir
    rcases hdir with rfl | rfl | rfl
    · exact hinclude
    · exact Path.under_child _ (by decide)
    · exact hinclude.child (by decide)

/-- The module's own path is never a bare name: it has the interface's directory before it. -/
theorem two_components_modulePath (l : Layout) (abi : Abi) :
    1 < (l.modulePath abi).components.length := by
  have hdir : Path.Plain abi.moduleDir := by cases abi <;> decide
  rw [modulePath, Path.components_child _ (by decide), Path.components_child _ hdir]
  simp

end Layout

end EmbeddedC
