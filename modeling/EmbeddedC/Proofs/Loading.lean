import EmbeddedC.Proofs.Command
import EmbeddedC.Proofs.Component

/-!
# Loading a module

How the loading of an entry table is decided, step by step and for every loader: by the interface,
then by what the path says and whether a file is there, and only then by the module that opens. A
layout's own module path names a place, so that no library search is ever asked for it.
-/

namespace EmbeddedC

theorem Abi.isHost_iff (abi : Abi) : abi.isHost ↔ abi = .host := by
  cases abi <;> simp [isHost, host, pointerWidth, pointerBits]

namespace Entry

/-- The first one missing has only exported ones before it. -/
theorem firstMissing?_eq_some_iff {exports : List Entry} {entry : Entry} :
    firstMissing? exports = some entry ↔
      entry ∉ exports ∧
        ∃ before after, all = before ++ entry :: after ∧ ∀ e ∈ before, e ∈ exports := by
  simp [firstMissing?, List.find?_eq_some_iff_append]

end Entry

namespace EntryTable

variable (loader : Loader) (fs : FileSystem) {abi : Abi} {path : Path}

theorem loadWith_foreign (h : abi ≠ .host) :
    loadWith loader fs abi path = (.error (.abiMismatch abi pointerBits), []) := by
  have habi : abi.isHost = false := Bool.eq_false_iff.2 fun hhost => h ((Abi.isHost_iff abi).1 hhost)
  rw [loadWith, habi]
  rfl

theorem loadWith_absent (hcomponents : 1 < path.components.length) (hfile : fs.isFile path = false) :
    loadWith loader fs .host path = (.error (.moduleNotFound path), []) := by
  rw [loadWith, if_neg (by decide), if_pos (by simp [hcomponents, hfile])]

/-- Where nothing stands against it, the loader decides. -/
theorem loadWith_admitted (h : 1 < path.components.length → fs.isFile path) :
    (loadWith loader fs .host path).1 = resolveWith loader .host path := by
  have hopen : (!fs.isFile path && decide (path.components.length > 1)) = false := by
    by_cases hcomponents : 1 < path.components.length
    · simp [h hcomponents]
    · simp [hcomponents]
  rw [loadWith, if_neg (by decide), hopen, if_neg (by decide)]
  cases resolveWith loader .host path <;> rfl

theorem resolveWith_eq_of_open {exports : List Entry} (hopen : loader path = some exports) :
    (resolveWith loader abi path = .ok ⟨abi, path⟩ ∧ ∀ entry, entry ∈ exports) ∨
      ∃ before entry after, Entry.all = before ++ entry :: after ∧ (∀ e ∈ before, e ∈ exports) ∧
        entry ∉ exports ∧ resolveWith loader abi path = .error (.missingEntry entry) := by
  cases hmissing : Entry.firstMissing? exports with
  | none => exact .inl ⟨by simp only [resolveWith, hopen, hmissing],
      Entry.firstMissing?_eq_none_iff.1 hmissing⟩
  | some entry =>
    obtain ⟨habsent, before, after, hall, hbefore⟩ := Entry.firstMissing?_eq_some_iff.1 hmissing
    exact .inr ⟨before, entry, after, hall, hbefore, habsent,
      by simp only [resolveWith, hopen, hmissing]⟩

/-- A table tells where it comes from. -/
theorem eq_of_loadWith_ok {table : EntryTable}
    (h : (loadWith loader fs .host path).1 = .ok table) : table = ⟨.host, path⟩ := by
  have hopen (hcomponents : 1 < path.components.length) : fs.isFile path := by
    refine Bool.not_eq_false _ ▸ fun hfile => ?_
    rw [loadWith_absent loader fs hcomponents hfile] at h
    exact nomatch h
  rw [loadWith_admitted loader fs hopen] at h
  cases hloader : loader path with
  | none => simp [resolveWith, hloader] at h
  | some exports =>
    rcases resolveWith_eq_of_open loader hloader with ⟨hok, -⟩ | ⟨_, _, _, _, _, _, hmissing⟩
    · exact Except.ok.inj (h.symm.trans hok)
    · rw [hmissing] at h
      exact nomatch h

/-- A loader is asked for nothing but a path that the file system does not rule out. -/
theorem loadWith_congr {other : Loader} (hcomponents : 1 < path.components.length)
    (h : fs.isFile path → other path = loader path) :
    loadWith other fs .host path = loadWith loader fs .host path := by
  cases hfile : fs.isFile path with
  | false => rw [loadWith_absent other fs hcomponents hfile, loadWith_absent loader fs hcomponents hfile]
  | true => simp only [loadWith, resolveWith, h hfile]

/-- A module that no file holds is reported where the file should be, and only then. -/
theorem loadWith_notFound_iff (hcomponents : 1 < path.components.length) :
    (loadWith loader fs .host path).1 = .error (.moduleNotFound path) ↔ fs.isFile path = false := by
  constructor
  · intro h
    refine Bool.eq_false_iff.2 fun hfile => ?_
    rw [loadWith_admitted loader fs fun _ => hfile, resolveWith] at h
    cases hopen : loader path with
    | none => simp [hopen] at h
    | some exports =>
      cases hmissing : Entry.firstMissing? exports <;> simp [hopen, hmissing] at h
  · intro hfile
    rw [loadWith_absent loader fs hcomponents hfile]

end EntryTable

namespace Config

theorem modulePath_eq (programDir : Path) (config : Config) (abi : Abi) :
    config.modulePath programDir abi =
      config.native.module.getD ((config.layout programDir).modulePath abi) := by
  unfold modulePath
  cases config.native.module <;> rfl

end Config

namespace Toolchain

theorem loadWith_notFound_iff (loader : EntryTable.Loader) (files : FileSystem) (programDir : Path)
    (config : Config) (path : Path) :
    (loadWith loader files programDir config).1 = .error (.load (.moduleNotFound path)) ↔
      (EntryTable.loadWith loader files .host (config.modulePath programDir .host)).1 =
        .error (.moduleNotFound path) := by
  simp only [loadWith]
  cases (EntryTable.loadWith loader files .host (config.modulePath programDir .host)).1 with
  | error e => simp [Except.map, Except.mapError]
  | ok table => simp [Except.map, Except.mapError]

end Toolchain

namespace EntryTable

/-- Loading is decided by the interface, then by the path and the file system, then by the loader,
whatever the loader is. It calls no entry point. A toolchain whose config names no module asks the
loader for nothing but a file at the layout's own place, which no library search can supply. -/
theorem loading_decided {σ : Type} (compiler : Compiler σ) (around : Surroundings)
    (flags : CommandLine.Flags) (w : World σ) (loader : Loader) (fs : FileSystem) (path : Path) :
    (∀ abi, abi ≠ .host →
      loadWith loader fs abi path = (.error (.abiMismatch abi pointerBits), [])) ∧
    (1 < path.components.length ∧ fs.isFile path = false →
      loadWith loader fs .host path = (.error (.moduleNotFound path), [])) ∧
    (¬(1 < path.components.length ∧ fs.isFile path = false) →
      let loaded := (loadWith loader fs .host path).1
      match loader path with
      | none => loaded = .error (.loadFailed path)
      | some exports =>
        (loaded = .ok ⟨.host, path⟩ ∧ ∀ entry, entry ∈ exports) ∨
          ∃ before entry after, Entry.all = before ++ entry :: after ∧
            (∀ e ∈ before, e ∈ exports) ∧ entry ∉ exports ∧
            loaded = .error (.missingEntry entry)) ∧
    (Entry.all.length = 19 ∧ Entry.all.Nodup ∧ ∀ entry, entry ∈ Entry.all) ∧
    (∀ programDir config, config.native.module = none →
      let root := (config.layout programDir).root
      let module := (root.child Abi.host.moduleDir).child Layout.moduleFileName
      let loaded := Toolchain.loadWith loader fs programDir config
      Path.slash ∈ module.bytes ∧
      (loaded.1 = .error (.load (.moduleNotFound module)) ↔ fs.isFile module = false) ∧
      ∀ other : Loader, (fs.isFile module → other module = loader module) →
        Toolchain.loadWith other fs programDir config = loaded) ∧
    let o := CommandLine.loadToolchain compiler around flags w
    o.state = w ∧ ∀ event ∈ o.events, ∃ record, event = .logged record := by
  refine ⟨fun abi habi => loadWith_foreign loader fs habi,
    fun ⟨hcomponents, hfile⟩ => loadWith_absent loader fs hcomponents hfile, fun hopen => ?_,
    ⟨rfl, by decide, Entry.mem_all⟩, fun programDir config hmodule => ?_, ?_⟩
  · have hadmitted (hcomponents : 1 < path.components.length) : fs.isFile path := by
      simpa using fun hfile => hopen ⟨hcomponents, hfile⟩
    intro loaded
    have hloaded : loaded = resolveWith loader .host path := loadWith_admitted loader fs hadmitted
    cases hloader : loader path with
    | none => rw [hloaded, resolveWith, hloader]
    | some exports =>
      rw [hloaded]
      exact resolveWith_eq_of_open loader hloader
  · intro root module loaded
    have hcomponents : 1 < module.components.length :=
      Layout.two_components_modulePath (config.layout programDir) .host
    have hpath : config.modulePath programDir .host = module := by
      rw [Config.modulePath_eq, hmodule]
      rfl
    refine ⟨Path.slash_mem_of_two_components hcomponents, ?_, fun other hother => ?_⟩
    · rw [Toolchain.loadWith_notFound_iff, hpath, loadWith_notFound_iff loader fs hcomponents]
    · have hsame := loadWith_congr loader fs hcomponents hother
      simp only [loaded, Toolchain.loadWith, hpath, hsame]
  · obtain ⟨r, log, hload⟩ := CommandLine.loadToolchain_logs compiler around w flags
    rw [hload]
    refine ⟨rfl, fun event hevent => ?_⟩
    obtain ⟨record, -, hrecord⟩ := List.mem_map.1 hevent
    exact ⟨record, hrecord.symm⟩

/-- A loader that finds a compiler everywhere is believed about a bare name alone. -/
theorem bare_name_left_to_loader :
    let loader : Loader := fun _ => some Entry.all
    let bare := Path.ofString "libtcc.so"
    let placed := Path.ofString "x64/libtcc.so"
    loadWith loader {} .host placed = (.error (.moduleNotFound placed), []) ∧
      (loadWith loader {} .host bare).1 = .ok ⟨.host, bare⟩ ∧
      (Toolchain.loadWith loader {} (.ofString "/bin") {}).1 =
        .error (.load (.moduleNotFound (.ofString "/bin/native/x64/libtcc.so"))) := by
  intro loader bare placed
  have hdecided := loading_decided .agreeable ⟨.ofString "/bin", []⟩ {} ⟨(), []⟩ loader {}
  obtain ⟨-, habsent, -⟩ := hdecided placed
  obtain ⟨-, -, hopen, -, htoolchain, -⟩ := hdecided bare
  refine ⟨habsent (by decide), ?_, (htoolchain (.ofString "/bin") {} rfl).2.1.2 (by decide)⟩
  rcases hopen (by decide) with ⟨hok, -⟩ | ⟨_, entry, _, _, _, hmissing, _⟩
  · exact hok
  · exact absurd (Entry.mem_all entry) hmissing

end EntryTable

end EmbeddedC
