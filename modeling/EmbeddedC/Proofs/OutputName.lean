import EmbeddedC.CommandLine.Command
import EmbeddedC.Proofs.FileName
/-!
# What a build writes to

A build that names no output writes next to its source: the name is the source's stem with the
extension of the kind built. Two kinds never get the same name, and a source is not overwritten
unless it already has the extension of what is built from it.
-/

namespace EmbeddedC.CommandLine

open EmbeddedC.Path

namespace Kind

/-- The extension of what is built, as names spell it. Executables have none. -/
def extension? (kind : Kind) : Option (List UInt8) :=
  if kind = exe then none else some (Text.Utf8.encode kind.extension)

theorem extension?_eq (kind : Kind) :
    (if Text.Utf8.encode kind.extension = [] then none
      else some (Text.Utf8.encode kind.extension)) = kind.extension? := by
  cases kind <;> decide

theorem extension?_inj {kind other : Kind} : kind.extension? = other.extension? ↔ kind = other := by
  cases kind <;> cases other <;> decide

theorem slash_notMem_extension? (kind : Kind) : ∀ ext ∈ kind.extension?, slash ∉ ext := by
  cases kind <;> decide

end Kind

variable {file out : Path} {kind : Kind} {before name stem : List UInt8}

theorem defaultOutput_error_iff {e : CommandError} :
    defaultOutput file kind = .error e ↔ file.fileName? = none ∧ e = .outputName file := by
  unfold defaultOutput stem?
  cases file.fileName? <;> simp [eq_comm]

theorem fileName?_of_defaultOutput (ho : defaultOutput file kind = .ok out) :
    ∃ name, file.fileName? = some name := by
  unfold defaultOutput stem? at ho
  cases hname : file.fileName? with
  | none => simp [hname] at ho
  | some name => exact ⟨name, rfl⟩

/-- The output stands where the source stands, under the source's stem. Where that is one dot it can
come to name the directory above. -/
theorem defaultOutput_cases (h : LastStep file before name)
    (hdots : name ≠ [dot] ∧ name ≠ [dot, dot]) (kind : Kind) :
    defaultOutput file kind = .ok ⟨before ++ nameOf (splitStem name).1 kind.extension?⟩ ∨
      (splitStem name).1 = [dot] ∧ defaultOutput file kind = .ok ⟨before ++ [dot, dot]⟩ := by
  have hname := fileName?_eq_some_iff.2 ⟨before, h, hdots⟩
  have hok : defaultOutput file kind =
      .ok (file.withExtension (Text.Utf8.encode kind.extension)) := by
    simp [defaultOutput, stem?, hname]
  have hcases := withExtension_cases h hdots (Text.Utf8.encode kind.extension)
  rw [kind.extension?_eq] at hcases
  rw [hok]
  exact hcases.imp (congrArg _) (And.imp_right (congrArg _))

private theorem slash_notMem_output (h : LastStep file before name) (kind : Kind) :
    slash ∉ nameOf (splitStem name).1 kind.extension? := by
  have hname := h.noSlash
  rw [← nameOf_splitStem name, slash_notMem_nameOf] at hname
  exact slash_notMem_nameOf.2 ⟨hname.1, kind.slash_notMem_extension?⟩

/-- A build is given its source's own path only where it would keep the extension. -/
theorem extension?_of_own_path (ho : defaultOutput file kind = .ok out)
    (hsame : out.components = file.components) : file.extension? = kind.extension? := by
  obtain ⟨name, hname⟩ := fileName?_of_defaultOutput ho
  obtain ⟨before, h, hdots⟩ := fileName?_eq_some_iff.1 hname
  have hext : file.extension? = (splitStem name).2 := by simp [extension?, hname]
  have hfile := h.components
  rw [Component.ofName_eq_normal_iff.2 ⟨rfl, hdots⟩] at hfile
  rcases defaultOutput_cases h hdots kind with hnew | ⟨-, hup⟩
  · cases hnew.symm.trans ho
    have hne := splitStem_ne_nil h.nonempty
    have hslash := slash_notMem_output h kind
    by_cases hdot : nameOf (splitStem name).1 kind.extension? = [dot]
    · -- the name would be gone, and the path shorter by it
      rw [hdot, components_append_dot h.opens, hfile] at hsame
      split at hsame
      · next hb =>
        subst hb
        cases hsame
      · exact absurd hsame (by simp)
    · have hout := (h.renamed hslash (nameOf_ne_nil hne _) hdot).components
      rw [hsame, hfile] at hout
      have hlast := (List.cons.inj (List.append_cancel_left hout)).1
      obtain ⟨heq, -⟩ := Component.ofName_eq_normal_iff.1 hlast.symm
      exact hext.trans (nameOf_eq_iff.1 heq)
  · cases hup.symm.trans ho
    have hslash : slash ∉ [dot, dot] := by decide
    have hpair := (h.renamed hslash (by simp) (by simp)).components
    rw [hsame, hfile] at hpair
    cases List.append_cancel_left hpair

private theorem fileName?_of_stem? (hs : file.stem? = some stem) :
    ∃ before name, LastStep file before name ∧ file.fileName? = some name ∧
      (name ≠ [dot] ∧ name ≠ [dot, dot]) ∧ (splitStem name).1 = stem ∧
        file.extension? = (splitStem name).2 := by
  obtain ⟨name, hname, hstem⟩ := Option.map_eq_some_iff.1 hs
  obtain ⟨before, h, hdots⟩ := fileName?_eq_some_iff.1 hname
  exact ⟨before, name, h, hname, hdots, hstem, by simp [extension?, hname]⟩

private theorem defaultOutput_of_stem (h : LastStep file before name)
    (hdots : name ≠ [dot] ∧ name ≠ [dot, dot]) (hs : (splitStem name).1 = stem)
    (hsingle : stem ≠ [dot]) (hpair : stem ≠ [dot, dot]) (kind : Kind) :
    let new := nameOf stem kind.extension?
    defaultOutput file kind = .ok ⟨before ++ new⟩ ∧ LastStep ⟨before ++ new⟩ before new ∧
      new ≠ [dot] ∧ new ≠ [dot, dot] := by
  subst hs
  have hne := splitStem_ne_nil h.nonempty
  have hnew := nameOf_ne_dots hne hsingle hpair kind.extension?
  exact ⟨(defaultOutput_cases h hdots kind).resolve_right fun hup => hsingle hup.1,
    h.renamed (slash_notMem_output h kind) (nameOf_ne_nil hne _) hnew.1, hnew⟩

/-- A build that names no output is the build that names this one. -/
theorem Invocation.perform_default_output {σ : Type} (compiler : Compiler σ) (around : Surroundings)
    (flags : Flags) (w : World σ) (ho : defaultOutput file kind = .ok out) :
    perform compiler around ⟨flags, .build file none kind⟩ w =
      perform compiler around ⟨flags, .build file (some out) kind⟩ w := by
  simp only [perform, ho]

/-- Where a build writes that names no output. It writes nowhere if the source has no file name. What
it is given is its source's own path only if the source has the extension of what is built. Unless
the source's stem is made of dots, the output stands beside the source, under its stem and the
extension; two kinds have different names, and a kind has the source's name if and only if the source
has its extension. -/
theorem defaultOutput_beside_source (file : Path) (kind : Kind) :
    (file.fileName? = none ↔
      file.components.getLast? ∈ [none, some .root, some .current, some .up]) ∧
    (∀ e, defaultOutput file kind = .error e ↔ file.fileName? = none ∧ e = .outputName file) ∧
    (∀ out, defaultOutput file kind = .ok out →
      (∀ {σ : Type} (compiler : Compiler σ) around flags w,
        Invocation.perform compiler around ⟨flags, .build file none kind⟩ w =
          Invocation.perform compiler around ⟨flags, .build file (some out) kind⟩ w) ∧
      (out.components = file.components → file.extension? = kind.extension?)) ∧
    ∀ stem, file.stem? = some stem → stem ≠ [dot] → stem ≠ [dot, dot] →
      ∃ out parent, defaultOutput file kind = .ok out ∧
        file.parent? = some parent ∧ out.parent? = some parent ∧
        parent.components = file.components.dropLast ∧
        out.fileName? = some (if kind = .exe then stem
          else stem ++ dot :: Text.Utf8.encode kind.extension) ∧
        (∀ other out', other ≠ kind → defaultOutput file other = .ok out' →
          out'.fileName? ≠ out.fileName?) ∧
        (out.fileName? = file.fileName? ↔ file.extension? = kind.extension?) ∧
        (out.components = file.components ↔ file.extension? = kind.extension?) := by
  refine ⟨file.fileName?_eq_none_iff, fun e => defaultOutput_error_iff, ?_, ?_⟩
  · intro out ho
    exact ⟨fun compiler around flags w =>
      Invocation.perform_default_output compiler around flags w ho, extension?_of_own_path ho⟩
  intro stem hs hsingle hpair
  obtain ⟨before, name, h, hname, hdots, hstem, hext⟩ := fileName?_of_stem? hs
  have houtput := defaultOutput_of_stem h hdots hstem hsingle hpair
  have hnamed (kind : Kind) : fileName? ⟨before ++ nameOf stem kind.extension?⟩ =
      some (nameOf stem kind.extension?) :=
    fileName?_eq_some_iff.2 ⟨before, (houtput kind).2⟩
  have hkept : nameOf stem kind.extension? = name ↔ file.extension? = kind.extension? := by
    rw [hext, ← hstem]
    exact nameOf_eq_iff
  obtain ⟨ho, hlast, hnew⟩ := houtput kind
  refine ⟨_, trimmed before, ho, h.parent?, hlast.parent?, ?_, ?_, ?_, ?_, ?_⟩
  · have hparent := components_parent? file
    rw [h.parent?, Option.map_some] at hparent
    split at hparent
    · cases hparent
    · exact Option.some.inj hparent
  · rw [hnamed, Kind.extension?]
    split <;> rfl
  · intro other out' hne ho'
    cases ho'.symm.trans (houtput other).1
    rw [hnamed, hnamed]
    exact fun hsame => hne (Kind.extension?_inj.1 (nameOf_inj.1 (Option.some.inj hsame)))
  · rw [hnamed, hname, Option.some.injEq, hkept]
  · rw [hlast.components, h.components, Component.ofName_eq_normal_iff.2 ⟨rfl, hdots⟩,
      Component.ofName_eq_normal_iff.2 ⟨rfl, hnew⟩]
    simp [hkept]

/-- An object file is what it would be built from, whatever closes the path; a library is not. -/
theorem object_from_itself :
    defaultOutput (.ofString "lib/a.o/") .obj = .ok (.ofString "lib/a.o") ∧
      (Path.ofString "lib/a.o").components = (Path.ofString "lib/a.o/").components ∧
      (Path.ofString "lib/a.o/").extension? = Kind.extension? .obj ∧
      ∀ out, defaultOutput (.ofString "lib/a.o/") .dll = .ok out →
        out.fileName? ≠ (Path.ofString "lib/a.o").fileName? := by
  have ho : defaultOutput (.ofString "lib/a.o/") .obj = .ok (.ofString "lib/a.o") := rfl
  have hsame : (Path.ofString "lib/a.o").components = (Path.ofString "lib/a.o/").components := by
    decide
  have hstem : (Path.ofString "lib/a.o/").stem? = some [97] := by decide
  obtain ⟨-, -, hgiven, hbeside⟩ := defaultOutput_beside_source (.ofString "lib/a.o/") .obj
  obtain ⟨-, hext⟩ := hgiven _ ho
  obtain ⟨out, _, hout, _, _, _, _, hothers, _⟩ := hbeside [97] hstem (by decide) (by decide)
  have hpath : out = .ofString "lib/a.o" := Except.ok.inj (hout.symm.trans ho)
  subst hpath
  exact ⟨ho, hsame, hext hsame, fun other => hothers .dll other (by decide)⟩

/-- A stem of one dot is why the stem matters. -/
example : defaultOutput (.ofString "..c") .obj = .ok (.ofString "..") := rfl

end EmbeddedC.CommandLine
