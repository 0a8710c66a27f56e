import EmbeddedC.Path.Name
import EmbeddedC.Proofs.Component
import EmbeddedC.Proofs.Span
/-!
# File names and components

A path that is not empty and not the root ends in one last step, and slashes and single dots may
close it. The file name, which is found from the end, is the last component, which is found from the
front. So the path can be taken apart into what stands before its last step, the step and what
closes it, and putting another name in place of the step leaves the rest alone.
-/

namespace EmbeddedC.Path

section Closing

/-- Bytes that add nothing to a path's last step: slashes, and single dots that follow slashes. -/
inductive Closing : List UInt8 → Prop
  | nil : Closing []
  | empty {rest : List UInt8} (h : Closing rest) : Closing (slash :: rest)
  | single {rest : List UInt8} (h : Closing rest) : Closing (slash :: dot :: rest)

variable {before name closing bytes : List UInt8}

theorem Closing.append (h : Closing closing) {more : List UInt8} (hm : Closing more) :
    Closing (closing ++ more) := by
  induction h with
  | nil => exact hm
  | empty _ ih => exact .empty ih
  | single _ ih => exact .single ih

theorem Closing.take (h : Closing closing) (n : Nat) : Closing (closing.take n) := by
  induction h generalizing n with
  | nil => simpa using Closing.nil
  | empty _ ih =>
    cases n with
    | zero => exact .nil
    | succ n => exact .empty (ih n)
  | single _ ih =>
    match n with
    | 0 => exact .nil
    | 1 => exact .empty .nil
    | n + 2 => exact .single (ih n)

theorem Closing.head (h : Closing closing) : closing = [] ∨ closing.head? = some slash := by
  cases h with
  | nil => exact .inl rfl
  | empty | single => exact .inr rfl

@[simp] theorem trimEnd_slash (backwards : List UInt8) :
    trimEnd (slash :: backwards) = trimEnd backwards := by
  cases backwards <;> simp [trimEnd]

@[simp] theorem trimEnd_dot_slash (backwards : List UInt8) :
    trimEnd (dot :: slash :: backwards) = trimEnd backwards := by
  simp [trimEnd, dot, slash]

theorem Closing.trimEnd_append (h : Closing closing) (backwards : List UInt8) :
    trimEnd (closing.reverse ++ backwards) = trimEnd backwards := by
  induction h generalizing backwards with
  | nil => rfl
  | empty _ ih => simp [ih]
  | single _ ih => simp [ih]

theorem Closing.trimEnd_eq_nil (h : Closing closing) : trimEnd closing.reverse = [] := by
  have htrim := h.trimEnd_append []
  rwa [List.append_nil] at htrim

/-- All that is trimmed closes the path. -/
theorem exists_closing (backwards : List UInt8) :
    ∃ closing, Closing closing ∧ backwards = closing.reverse ++ trimEnd backwards := by
  induction backwards using trimEnd.induct with
  | case1 b rest ih =>
    obtain ⟨closing, hc, ih⟩ := ih
    refine ⟨closing ++ [slash], hc.append (.empty .nil), ?_⟩
    rw [trimEnd_slash]
    simpa using ih
  | case2 a b rest ha hab ih =>
    obtain ⟨closing, hc, ih⟩ := ih
    obtain ⟨rfl, rfl⟩ := hab
    refine ⟨closing ++ [slash, dot], hc.append (.single .nil), ?_⟩
    rw [trimEnd_dot_slash]
    simpa using ih
  | case3 a b rest ha hab => exact ⟨[], .nil, by simp [trimEnd, ha, hab]⟩
  | case4 => exact ⟨[slash], .empty .nil, by simp [trimEnd]⟩
  | case5 a ha => exact ⟨[], .nil, by simp [trimEnd, ha]⟩
  | case6 => exact ⟨[], .nil, rfl⟩

/-- What is left after trimming ends neither in a slash nor in a dot after one. -/
theorem trimEnd_eq_cons {backwards rest : List UInt8} {a : UInt8}
    (h : trimEnd backwards = a :: rest) : a ≠ slash ∧ (a = dot → rest.head? ≠ some slash) := by
  induction backwards using trimEnd.induct with
  | case1 b rest ih => exact ih (trimEnd_slash _ ▸ h)
  | case2 a b rest ha hab ih =>
    obtain ⟨rfl, rfl⟩ := hab
    exact ih (trimEnd_dot_slash _ ▸ h)
  | case3 a b rest ha hab =>
    simp only [trimEnd, if_neg ha, if_neg hab, List.cons.injEq] at h
    obtain ⟨rfl, rfl⟩ := h
    exact ⟨ha, fun hdot hslash => hab ⟨hdot, by simpa using hslash⟩⟩
  | case4 => simp [trimEnd] at h
  | case5 a ha =>
    simp only [trimEnd, if_neg ha, List.cons.injEq] at h
    obtain ⟨rfl, rfl⟩ := h
    exact ⟨ha, by simp⟩
  | case6 => simp [trimEnd] at h

theorem components_append_closing (hb : bytes ≠ []) (h : Closing closing) :
    components ⟨bytes ++ closing⟩ = components ⟨bytes⟩ := by
  induction h generalizing bytes with
  | nil => rw [List.append_nil]
  | @empty rest _ ih =>
    have hslash : bytes ++ slash :: rest = bytes ++ [slash] ++ rest := by simp
    rw [hslash, ih (by simp), components_append_slash hb]
  | @single rest _ ih =>
    have hdot : bytes ++ slash :: dot :: rest = bytes ++ slash :: [dot] ++ rest := by simp
    rw [hdot, ih (by simp), components_append_segment bytes (by decide),
      components_append_slash hb]
    simp [Component.ofSegment?]

/-- Nothing but what closes a path: the root, or nothing at all. -/
theorem components_of_closing (h : Closing closing) :
    components ⟨closing⟩ = if closing = [] then [] else [.root] := by
  have hroot {rest : List UInt8} (hr : Closing rest) : components ⟨slash :: rest⟩ = [.root] :=
    components_append_closing (List.cons_ne_nil slash []) hr
  cases h with
  | nil => rfl
  | empty hr => exact hroot hr
  | single hr =>
    have hdot : components ⟨[slash, dot]⟩ = [.root] := rfl
    rw [if_neg (by simp), ← hdot]
    exact components_append_closing (List.cons_ne_nil slash [dot]) hr

end Closing

section LastStep

/-- The step that a last segment stands for. A single dot is one only where it comes first. -/
def Component.ofName (name : List UInt8) : Component :=
  if name = [dot] then .current else if name = [dot, dot] then .up else .normal name

theorem Component.ofName_eq_normal_iff {last name : List UInt8} :
    ofName last = .normal name ↔ last = name ∧ name ≠ [dot] ∧ name ≠ [dot, dot] := by
  constructor
  · intro h
    unfold ofName at h
    split at h
    · cases h
    · next hdot =>
      split at h
      · cases h
      · next hdots =>
        cases h
        exact ⟨rfl, hdot, hdots⟩
  · rintro ⟨rfl, hdot, hdots⟩
    rw [ofName, if_neg hdot, if_neg hdots]

theorem Component.ofSegment?_of_ne {name : List UInt8} (hne : name ≠ []) (hdot : name ≠ [dot]) :
    ofSegment? name = some (ofName name) := by
  by_cases hdots : name = [dot, dot] <;> simp [ofSegment?, ofName, hne, hdot, hdots]

/-- A path taken apart: what stands before its last step, the step as it is spelled, and what closes
the path. -/
structure LastStep (p : Path) (before name : List UInt8) : Prop where
  opens : before = [] ∨ before.getLast? = some slash
  noSlash : slash ∉ name
  nonempty : name ≠ []
  dotFirst : name = [dot] → before = []
  closes : ∃ closing, Closing closing ∧ p.bytes = before ++ name ++ closing

variable {p : Path} {before name : List UInt8}

/-- Every path has a last step, or nothing but what closes it. -/
theorem closing_or_lastStep (p : Path) :
    Closing p.bytes ∨ ∃ before name, LastStep p before name := by
  obtain ⟨closing, hc, hbackwards⟩ := exists_closing p.bytes.reverse
  have hbytes : p.bytes = (trimEnd p.bytes.reverse).reverse ++ closing := by
    simpa using congrArg List.reverse hbackwards
  cases ht : trimEnd p.bytes.reverse with
  | nil =>
    rw [ht] at hbytes
    exact .inl (hbytes ▸ hc)
  | cons a rest =>
    obtain ⟨ha, hdot⟩ := trimEnd_eq_cons ht
    obtain ⟨name, before, rfl, hn, hopens⟩ := exists_span slash rest
    refine .inr ⟨before.reverse, (a :: name).reverse, by simpa using hopens,
      by simp [hn, Ne.symm ha], by simp, ?_, closing, hc, by simpa [ht] using hbytes⟩
    intro hsingle
    obtain ⟨rfl, rfl⟩ : a = dot ∧ name = [] := by
      have hreverse := congrArg List.reverse hsingle
      simpa using hreverse
    rw [List.reverse_eq_nil_iff]
    exact hopens.resolve_right (hdot rfl)

namespace LastStep

variable {closing : List UInt8}

private theorem span (h : LastStep p before name) :
    (before ++ name).reverse.takeWhile (· ≠ slash) = name.reverse ∧
      (before ++ name).reverse.dropWhile (· ≠ slash) = before.reverse := by
  rw [List.reverse_append]
  exact span_append (by simpa using h.noSlash) (by simpa using h.opens)

theorem trimEnd (h : LastStep p before name) :
    trimEnd p.bytes.reverse = (before ++ name).reverse := by
  obtain ⟨closing, hc, hbytes⟩ := h.closes
  rw [hbytes, List.reverse_append, hc.trimEnd_append, List.reverse_append]
  obtain ⟨a, rest, hname⟩ := List.exists_cons_of_ne_nil (mt List.reverse_eq_nil_iff.1 h.nonempty)
  have ha : a ≠ slash := fun ha => h.noSlash (by rw [← List.mem_reverse, hname]; simp [ha])
  rw [hname, List.cons_append]
  cases rest with
  | nil =>
    have hsolo : name = [a] := by simpa using congrArg List.reverse hname
    cases hbefore : before.reverse with
    | nil => simp [Path.trimEnd, ha]
    | cons b most =>
      have hdot : a ≠ dot := fun hd => by
        simp [h.dotFirst (hd ▸ hsolo)] at hbefore
      simp [Path.trimEnd, ha, hdot]
  | cons b rest =>
    have hb : b ≠ slash := fun hb => h.noSlash (by rw [← List.mem_reverse, hname]; simp [hb])
    simp [Path.trimEnd, ha, hb]

/-- The file name is the last step, unless that is made of dots. -/
theorem splitName? (h : LastStep p before name) :
    p.splitName? = if name = [dot] ∨ name = [dot, dot] then none else some (before, name) := by
  obtain ⟨hname, hbefore⟩ := h.span
  simp only [Path.splitName?, h.trimEnd, hname, hbefore, List.reverse_reverse, h.nonempty, false_or]

theorem components (h : LastStep p before name) :
    p.components = Path.components ⟨before⟩ ++ [.ofName name] := by
  obtain ⟨closing, hc, hbytes⟩ := h.closes
  obtain ⟨bytes⟩ := p
  dsimp only at hbytes
  rw [hbytes, components_append_closing (by simp [h.nonempty]) hc]
  by_cases hdot : name = [dot]
  · rw [hdot, h.dotFirst hdot]
    rfl
  · have hstep := Component.ofSegment?_of_ne h.nonempty hdot
    rcases h.opens with rfl | hslash
    · rw [List.nil_append, components_of_slash_notMem h.noSlash h.nonempty, if_neg hdot, hstep]
      rfl
    · obtain ⟨most, rfl⟩ := List.getLast?_eq_some_iff.1 hslash
      rw [List.append_assoc, List.singleton_append, components_append_segment most h.noSlash, hstep]
      rfl

/-- Another name in place of the last step. -/
theorem renamed (h : LastStep p before name) {new : List UInt8} (hn : slash ∉ new) (hne : new ≠ [])
    (hdot : new ≠ [dot]) : LastStep ⟨before ++ new⟩ before new :=
  ⟨h.opens, hn, hne, fun hnew => absurd hnew hdot, [], .nil, (List.append_nil _).symm⟩

end LastStep

theorem splitName?_of_closing (h : Closing p.bytes) : p.splitName? = none := by
  simp [splitName?, h.trimEnd_eq_nil]

/-- A name, found from the end, is the last step, and no dots. -/
theorem splitName?_eq_some_iff :
    p.splitName? = some (before, name) ↔
      LastStep p before name ∧ name ≠ [dot] ∧ name ≠ [dot, dot] := by
  constructor
  · intro h
    rcases closing_or_lastStep p with hc | ⟨before', name', hl⟩
    · rw [splitName?_of_closing hc] at h
      cases h
    · rw [hl.splitName?] at h
      split at h
      · cases h
      · next hdots =>
        cases h
        exact ⟨hl, not_or.1 hdots⟩
  · rintro ⟨hl, hdots⟩
    rw [hl.splitName?, if_neg (not_or.2 hdots)]

theorem fileName?_eq_some_iff :
    p.fileName? = some name ↔ ∃ before, LastStep p before name ∧ name ≠ [dot] ∧ name ≠ [dot, dot] := by
  simp [fileName?, splitName?_eq_some_iff]

/-- A single dot in place of the last step is no step, unless it comes first. -/
theorem components_append_dot (hb : before = [] ∨ before.getLast? = some slash) :
    components ⟨before ++ [dot]⟩ = if before = [] then [.current] else components ⟨before⟩ := by
  rcases hb with rfl | hslash
  · rfl
  · obtain ⟨most, rfl⟩ := List.getLast?_eq_some_iff.1 hslash
    rw [List.append_assoc, List.singleton_append, components_append_segment most (by decide)]
    simp [Component.ofSegment?]

/-- The file name is the last component, if that is a name. -/
theorem getLast?_components_eq_normal_iff :
    p.components.getLast? = some (.normal name) ↔ p.fileName? = some name := by
  rcases closing_or_lastStep p with hc | ⟨before, last, hl⟩
  · have hroot := components_of_closing hc
    rw [fileName?, splitName?_of_closing hc, hroot]
    split <;> simp
  · rw [fileName?, hl.splitName?, hl.components, List.getLast?_concat, Component.ofName]
    by_cases hdot : last = [dot]
    · simp [hdot]
    · by_cases hdots : last = [dot, dot] <;> simp [hdot, hdots]

/-- A path has no file name if it is empty, or ends in the root, a leading dot or a pair of dots. -/
theorem fileName?_eq_none_iff (p : Path) :
    p.fileName? = none ↔
      p.components.getLast? ∈ [none, some .root, some .current, some .up] := by
  rw [Option.eq_none_iff_forall_ne_some]
  simp only [ne_eq, ← getLast?_components_eq_normal_iff]
  rcases p.components.getLast? with _ | (_ | _ | _ | name) <;> simp

end LastStep

section Parent

/-- Bytes without what closes them, as a path. The root is all that closes it, and stays. -/
def trimmed (bytes : List UInt8) : Path :=
  let backwards := trimEnd bytes.reverse
  ⟨if backwards = [] then bytes.take 1 else backwards.reverse⟩

/-- The path without its last step. The root has none, and neither has a path of no bytes. -/
def parent? (p : Path) : Option Path :=
  let backwards := trimEnd p.bytes.reverse
  if backwards = [] then none else some (trimmed (backwards.dropWhile (· ≠ slash)).reverse)

variable {p : Path} {before name : List UInt8}

theorem components_trimmed (bytes : List UInt8) :
    (trimmed bytes).components = components ⟨bytes⟩ := by
  obtain ⟨closing, hc, hbackwards⟩ := exists_closing bytes.reverse
  have hbytes : bytes = (trimEnd bytes.reverse).reverse ++ closing := by
    simpa using congrArg List.reverse hbackwards
  by_cases ht : trimEnd bytes.reverse = []
  · obtain rfl : bytes = closing := by simpa [ht] using hbytes
    rw [trimmed, if_pos ht, components_of_closing hc, components_of_closing (hc.take 1)]
    simp
  · rw [trimmed, if_neg ht]
    have hne : (trimEnd bytes.reverse).reverse ≠ [] := mt List.reverse_eq_nil_iff.1 ht
    calc components ⟨(trimEnd bytes.reverse).reverse⟩
        = components ⟨(trimEnd bytes.reverse).reverse ++ closing⟩ :=
          (components_append_closing hne hc).symm
      _ = components ⟨bytes⟩ := by rw [← hbytes]

theorem LastStep.parent? (h : LastStep p before name) : p.parent? = some (trimmed before) := by
  obtain ⟨-, hbefore⟩ := h.span
  simp only [Path.parent?, h.trimEnd, hbefore, List.reverse_reverse]
  exact if_neg (by simp [h.nonempty])

/-- Every component but the last makes up the parent. A path of one root or of nothing has none. -/
theorem components_parent? (p : Path) :
    p.parent?.map components =
      if p.components = [] ∨ p.components = [.root] then none else some p.components.dropLast := by
  rcases closing_or_lastStep p with hc | ⟨before, name, h⟩
  · have hroot := components_of_closing hc
    have hnone : p.parent? = none := by simp [parent?, hc.trimEnd_eq_nil]
    rw [hnone, hroot]
    split <;> simp
  · have hname : Component.ofName name ≠ .root := by
      unfold Component.ofName
      split
      · simp
      · split <;> simp
    have hcomponents : ¬(p.components = [] ∨ p.components = [.root]) := by
      rw [h.components, List.append_eq_singleton_iff]
      simp [hname]
    rw [if_neg hcomponents, h.parent?, h.components, Option.map_some, components_trimmed,
      List.dropLast_concat]

end Parent

section Extension

variable {p : Path} {before name stem ext : List UInt8}

theorem splitStem_append (hs : stem ≠ []) (he : dot ∉ ext) :
    splitStem (stem ++ dot :: ext) = (stem, some ext) := by
  have hopens : dot :: stem.reverse = [] ∨ (dot :: stem.reverse).head? = some dot := .inr rfl
  obtain ⟨htake, hdrop⟩ := span_append (mt List.mem_reverse.1 he) hopens
  have hreverse : (stem ++ dot :: ext).reverse = ext.reverse ++ dot :: stem.reverse := by simp
  obtain ⟨b, rest, hstem⟩ := List.exists_cons_of_ne_nil (mt List.reverse_eq_nil_iff.1 hs)
  have hback : (b :: rest).reverse = stem := by rw [← hstem, List.reverse_reverse]
  rw [hstem] at htake hdrop hreverse
  simp only [splitStem, hreverse, htake, hdrop, hback, List.reverse_reverse]

/-- A name is its stem alone, or its stem and an extension without a dot around the last dot. -/
theorem splitStem_cases (name : List UInt8) :
    splitStem name = (name, none) ∨
      ∃ stem ext, stem ≠ [] ∧ dot ∉ ext ∧ name = stem ++ dot :: ext := by
  obtain ⟨ext, before, hname, he, hopens⟩ := exists_span dot name.reverse
  obtain ⟨htake, hdrop⟩ := span_append he hopens
  match before, hopens with
  | [], _ | [_], _ => exact .inl (by simp only [splitStem, hname, hdrop])
  | d :: b :: rest, hopens =>
    obtain rfl : d = dot := by simpa using hopens
    refine .inr ⟨(b :: rest).reverse, ext.reverse, by simp, by simpa using he, ?_⟩
    simpa using congrArg List.reverse hname

/-- The name that a stem makes, with an extension or without. -/
def nameOf (stem : List UInt8) : Option (List UInt8) → List UInt8
  | none => stem
  | some ext => stem ++ dot :: ext

theorem nameOf_splitStem (name : List UInt8) :
    nameOf (splitStem name).1 (splitStem name).2 = name := by
  rcases splitStem_cases name with hstem | ⟨stem, ext, hs, he, rfl⟩
  · rw [hstem]
    rfl
  · rw [splitStem_append hs he]
    rfl

theorem nameOf_inj {ext? other? : Option (List UInt8)} :
    nameOf stem ext? = nameOf stem other? ↔ ext? = other? := by
  cases ext? <;> cases other? <;> simp [nameOf]

/-- A name keeps its spelling just where it keeps its extension. -/
theorem nameOf_eq_iff {ext? : Option (List UInt8)} :
    nameOf (splitStem name).1 ext? = name ↔ (splitStem name).2 = ext? := by
  constructor
  · intro h
    exact nameOf_inj.1 ((nameOf_splitStem name).trans h.symm)
  · rintro rfl
    exact nameOf_splitStem name

theorem nameOf_ne_nil (hne : stem ≠ []) (ext? : Option (List UInt8)) : nameOf stem ext? ≠ [] := by
  cases ext? <;> simp [nameOf, hne]

theorem splitStem_ne_nil (hne : name ≠ []) : (splitStem name).1 ≠ [] := by
  rcases splitStem_cases name with hstem | ⟨stem, ext, hs, he, rfl⟩
  · rwa [hstem]
  · rwa [splitStem_append hs he]

/-- A name has no slash if its stem and its extension have none. -/
theorem slash_notMem_nameOf {ext? : Option (List UInt8)} :
    slash ∉ nameOf stem ext? ↔ slash ∉ stem ∧ ∀ ext ∈ ext?, slash ∉ ext := by
  cases ext? <;> simp [nameOf, slash, dot]

/-- No name is made of dots unless its stem is. -/
theorem nameOf_ne_dots (hne : stem ≠ []) (hdot : stem ≠ [dot]) (hdots : stem ≠ [dot, dot])
    (ext? : Option (List UInt8)) : nameOf stem ext? ≠ [dot] ∧ nameOf stem ext? ≠ [dot, dot] := by
  obtain ⟨b, rest, rfl⟩ := List.exists_cons_of_ne_nil hne
  cases ext? with
  | none => exact ⟨hdot, hdots⟩
  | some ext =>
    refine ⟨by simp [nameOf], ?_⟩
    intro h
    simp only [nameOf, List.cons_append, List.cons.injEq, List.append_eq_singleton_iff] at h
    obtain ⟨rfl, ⟨rfl, -⟩ | ⟨-, h⟩⟩ := h
    · exact hdot rfl
    · cases h

private theorem take_sub_extension (front ext closing : List UInt8) :
    (front ++ ext ++ closing).take ((front ++ ext ++ closing).length - ext.length) =
      front ++ ext.take closing.length ++ closing.take (closing.length - ext.length) := by
  -- Bytes dropped from the end, as many as the extension has, come off what closes the path first;
  -- only what is left to drop is taken from the extension, and the dot before it stays.
  have hlength : (front ++ ext ++ closing).length - ext.length = front.length + closing.length := by
    simp only [List.length_append]
    omega
  rw [hlength, List.append_assoc, List.take_length_add_append, List.take_append, List.append_assoc]

theorem withExtension_of_splitName? {kept : Path} (hk : kept.splitName? = some (before, name))
    (hp : p.bytes.take (p.bytes.length - (p.extension?.getD []).length) = kept.bytes)
    (hs : (splitStem name).1 = stem) (new : List UInt8) :
    p.withExtension new = ⟨before ++ nameOf stem (if new = [] then none else some new)⟩ := by
  simp only [withExtension, hp, hk, hs, List.isEmpty_iff, List.append_assoc]
  split <;> simp [nameOf]

/-- Another extension takes the place of the one that is there, and what closed the path is dropped.
A stem of one dot can be taken for a pair of dots meanwhile, and then nothing is put after it. -/
theorem withExtension_cases (h : LastStep p before name) (hdots : name ≠ [dot] ∧ name ≠ [dot, dot])
    (new : List UInt8) :
    p.withExtension new =
        ⟨before ++ nameOf (splitStem name).1 (if new = [] then none else some new)⟩ ∨
      (splitStem name).1 = [dot] ∧ p.withExtension new = ⟨before ++ [dot, dot]⟩ := by
  have hsplit := splitName?_eq_some_iff.2 ⟨h, hdots⟩
  have hext : p.extension? = (splitStem name).2 := by simp [extension?, fileName?, hsplit]
  rcases splitStem_cases name with hstem | ⟨stem, ext, hs, he, hname⟩
  · refine .inl (withExtension_of_splitName? hsplit ?_ rfl new)
    simp [hext, hstem]
  · have hstem : splitStem name = (stem, some ext) := hname ▸ splitStem_append hs he
    obtain ⟨closing, hc, hbytes⟩ := h.closes
    let cut := stem ++ dot :: ext.take closing.length
    let rest := closing.take (closing.length - ext.length)
    have hkept : p.bytes.take (p.bytes.length - (p.extension?.getD []).length) =
        before ++ cut ++ rest := by
      have hfront : p.bytes = before ++ stem ++ [dot] ++ ext ++ closing := by simp [hbytes, hname]
      rw [hext, hstem, hfront]
      simp only [Option.getD_some, take_sub_extension]
      simp [cut, rest]
    have hsolo : cut ≠ [dot] := by
      intro hcut
      rw [List.append_eq_singleton_iff] at hcut
      simp [hs] at hcut
    have hslash : slash ∉ cut := by
      have hn := hname ▸ h.noSlash
      simp only [List.mem_append, List.mem_cons, not_or] at hn
      have htake : slash ∉ ext.take closing.length := mt List.mem_of_mem_take hn.2.2
      simp [cut, hn.1, hn.2.1, htake]
    have hlast : LastStep ⟨before ++ cut ++ rest⟩ before cut :=
      ⟨h.opens, hslash, by simp [cut], fun hcut => absurd hcut hsolo, rest, hc.take _, rfl⟩
    by_cases hpair : cut = [dot, dot]
    · right
      obtain ⟨hsingle, htake⟩ : stem = [dot] ∧ ext.take closing.length = [] := by
        obtain ⟨b, more, rfl⟩ := List.exists_cons_of_ne_nil hs
        simpa [cut, List.append_eq_singleton_iff, and_assoc] using hpair
      have hopen : closing = [] := by
        rcases List.take_eq_nil_iff.1 htake with hnone | rfl
        · exact List.length_eq_zero_iff.1 hnone
        · exact absurd (by simp [hname, hsingle]) hdots.2
      have hnone := hlast.splitName?
      rw [if_pos (.inr hpair)] at hnone
      refine ⟨by rw [hstem, hsingle], ?_⟩
      simp only [withExtension, hkept, hnone]
      simp [hpair, rest, hopen]
    · left
      have hsome := splitName?_eq_some_iff.2 ⟨hlast, hsolo, hpair⟩
      have hcut : (splitStem cut).1 = (splitStem name).1 := by
        rw [splitStem_append hs (mt List.mem_of_mem_take he), hstem]
      exact withExtension_of_splitName? hsome hkept hcut new

end Extension

end EmbeddedC.Path
