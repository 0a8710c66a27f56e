import EmbeddedC.Proofs.Loading

/-!
# One root

Where a config comes from and what the environment changes in it. One root follows from it, however
it was written, and what the layout names lies under that root: the module, unless another one is
asked for, and the directories that a context searches by default. A config file named on the command
line counts as one that the environment names.
-/

namespace EmbeddedC

namespace Surroundings

/-- A variable that is there but empty overrides nothing. -/
def override? (s : Surroundings) (name : String) : Option Path :=
  (s.value? name).filter (·.bytes ≠ [])

/-- The same surroundings but for one variable. -/
def set (s : Surroundings) (name : String) (value : Path) : Surroundings :=
  { s with environment := (name, value) :: s.environment.filter (·.1 ≠ name) }

variable (s : Surroundings) {name other : String} {value : Path}

theorem value?_set_self : (s.set name value).value? name = some value := by
  simp [value?, set]

theorem value?_set_of_ne (h : other ≠ name) : (s.set name value).value? other = s.value? other := by
  have hlookup (l : List (String × Path)) :
      (l.filter (·.1 ≠ name)).lookup other = l.lookup other := by
    induction l with
    | nil => rfl
    | cons entry l ih =>
      by_cases hentry : entry.1 = name
      · have hother : (other == entry.1) = false := by simpa [hentry] using h
        rw [List.filter_cons_of_neg (by simp [hentry]), ih, List.lookup_cons, hother]
      · rw [List.filter_cons_of_pos (by simp [hentry]), List.lookup_cons, List.lookup_cons, ih]
  have hname : (other == name) = false := by simpa using h
  simp only [value?, set, List.lookup_cons, hname]
  exact hlookup s.environment

end Surroundings

namespace Config

/-- The config as its source gives it, before the environment overrides anything. -/
inductive Given (files : FileSystem) (around : Surroundings) : Config → Prop where
  | named {path : Path} {text : String} {config : Config}
      (hpath : around.value? "TCCBIND_CONFIG" = some path)
      (hread : files.readText path = .ok text) (hparse : ofText? text = some config) :
      Given files around config
  | beside {text : String} {config : Config}
      (hpath : around.value? "TCCBIND_CONFIG" = none)
      (hfile : files.isFile (around.programDir.child "tccbind.toml"))
      (hread : files.readText (around.programDir.child "tccbind.toml") = .ok text)
      (hparse : ofText? text = some config) : Given files around config
  | defaults (hpath : around.value? "TCCBIND_CONFIG" = none)
      (hfile : files.isFile (around.programDir.child "tccbind.toml") = false) :
      Given files around {}

/-- The config with what the environment overrides, and nothing else, replaced. -/
def overridden (given : Config) (around : Surroundings) : Config :=
  { given with native := { given.native with
      root := (around.override? "TCCBIND_ROOT").or given.native.root
      module := (around.override? "TCCBIND_LIB").or given.native.module } }

variable {files : FileSystem} {around : Surroundings}

theorem overridden_of_none {given : Config} (hroot : around.override? "TCCBIND_ROOT" = none)
    (hmodule : around.override? "TCCBIND_LIB" = none) : given.overridden around = given := by
  rw [overridden, hroot, hmodule]
  rfl

private theorem ofText_eq_ok_iff {text : String} {origin : Path} {config : Config} :
    ofText text origin = .ok config ↔ ofText? text = some config := by
  -- Not by the equation of `ofText`, which takes the reader of the whole document apart.
  delta ofText
  cases ofText? text <;> simp

private theorem ofFileIn_ok {path : Path} {config : Config} {log : List LogRecord}
    (h : ofFileIn files around path = (.ok config, log)) :
    ∃ text given, files.readText path = .ok text ∧ ofText? text = some given ∧
      config = given.overridden around := by
  unfold ofFileIn ofFile at h
  cases hread : files.readText path with
  | error cause => simp [hread, Except.map] at h
  | ok text =>
    cases hparse : ofText text path with
    | error e => simp [hread, hparse, Except.map] at h
    | ok given =>
      have hconfig : applyEnvironment around given = config := by
        simpa [hread, hparse, Except.map] using congrArg Prod.fst h
      exact ⟨text, given, rfl, ofText_eq_ok_iff.1 hparse, hconfig.symm⟩

/-- A config that is found is what one of the sources gives, with the overrides put in. -/
theorem discover_ok {config : Config} {log : List LogRecord}
    (h : discover files around = (.ok config, log)) :
    ∃ given, Given files around given ∧ config = given.overridden around := by
  unfold discover at h
  cases hpath : around.configFile? with
  | some path =>
    simp only [hpath] at h
    obtain ⟨text, given, hread, hparse, hconfig⟩ := ofFileIn_ok h
    exact ⟨given, .named hpath hread hparse, hconfig⟩
  | none =>
    simp only [hpath] at h
    cases hfile : files.isFile (besideProgram around) with
    | true =>
      rw [hfile, if_pos rfl] at h
      obtain ⟨text, given, hread, hparse, hconfig⟩ := ofFileIn_ok h
      exact ⟨given, .beside hpath hfile hread hparse, hconfig⟩
    | false =>
      rw [hfile, if_neg (by decide)] at h
      cases h
      exact ⟨{}, .defaults hpath hfile, rfl⟩

/-- The root that a config means: `native` where it names none, from the program's directory
unless it is absolute. -/
def effectiveRoot (programDir : Path) (config : Config) : Path :=
  let root := config.native.root.getD (.ofString "native")
  if root.isAbsolute then root else programDir.join root

theorem layout_eq (programDir : Path) (config : Config) :
    config.layout programDir = ⟨config.effectiveRoot programDir⟩ := by
  have hjoin (root : Path) :
      programDir.join root = if root.isAbsolute then root else programDir.join root := by
    by_cases habs : root.isAbsolute
    · rw [if_pos habs, Path.join, if_pos habs]
    · rw [if_neg habs]
  unfold layout effectiveRoot
  cases config.native.root with
  | some root => exact congrArg Layout.mk (hjoin root)
  | none => exact congrArg Layout.mk (hjoin (.ofString "native"))

end Config

namespace Toolchain

/-- The same toolchain, but for the directories that its contexts search by default. -/
def withoutDefaultPaths (t : Toolchain) : Toolchain :=
  { t with config := { t.config with native := { t.config.native with defaultPaths := false } } }

/-- The settings that make a context search the layout's own directories. -/
def defaultSearches (t : Toolchain) : List Operation :=
  t.layout.defaultIncludeDirs.map .addIncludePath ++ [.addLibraryPath t.layout.libDir]

/-- The default paths add their settings in one place, and touch none of the others. -/
theorem plan_defaultPaths (t : Toolchain) :
    ∃ before after,
      t.plan = before ++ (if t.config.native.defaultPaths then t.defaultSearches else []) ++ after ∧
        t.withoutDefaultPaths.plan = before ++ after := by
  refine ⟨t.config.native.libPath.toList.map .setLibPath,
    t.config.compile.includePaths.map .addIncludePath ++
      t.config.compile.sysIncludePaths.map .addSysIncludePath ++
      t.config.compile.libraryPaths.map .addLibraryPath ++
      t.config.compile.defines.map (fun define => .defineSymbol define.1 (some define.2)) ++
      t.config.compile.options.toList.map .setOptions, ?_, ?_⟩
  · simp only [plan, defaultSearches, List.append_assoc]
  · simp [plan, withoutDefaultPaths]

theorem defaultSearches_under (t : Toolchain) :
    ∀ operation ∈ t.defaultSearches, ∃ dir, Path.Under t.layout.root dir ∧
      (operation = .addIncludePath dir ∨ operation = .addLibraryPath dir) := by
  obtain ⟨-, hlib, hinclude⟩ := t.layout.under_root
  intro operation hoperation
  rcases List.mem_append.1 hoperation with hoperation | hoperation
  · obtain ⟨dir, hdir, hsearch⟩ := List.mem_map.1 hoperation
    exact ⟨dir, hinclude dir hdir, .inl hsearch.symm⟩
  · exact ⟨_, hlib, .inr (List.mem_singleton.1 hoperation)⟩

variable (loader : EntryTable.Loader) {files : FileSystem} {around : Surroundings}
  {config : Config} {log : List LogRecord}

theorem discoverWith_eq (h : Config.discover files around = (.ok config, log)) :
    (discoverWith loader files around).1 =
      ((EntryTable.loadWith loader files .host (config.modulePath around.programDir .host)).1.map
        fun table => ⟨table, config.layout around.programDir, config⟩).mapError .load := by
  simp only [discoverWith, loadFoundWith, h]
  rfl

/-- Of a toolchain that was loaded: the module, the layout and the config are the ones found. -/
theorem discoverWith_ok {t : Toolchain} (h : Config.discover files around = (.ok config, log))
    (ht : (discoverWith loader files around).1 = .ok t) :
    t = ⟨⟨.host, config.modulePath around.programDir .host⟩, config.layout around.programDir,
      config⟩ := by
  rw [discoverWith_eq loader h] at ht
  cases hload :
    (EntryTable.loadWith loader files .host (config.modulePath around.programDir .host)).1 with
  | error e => simp [hload, Except.map, Except.mapError] at ht
  | ok table =>
    obtain rfl := EntryTable.eq_of_loadWith_ok loader files hload
    simpa [hload, Except.map, Except.mapError, eq_comm] using ht

end Toolchain

namespace CommandLine

variable {σ : Type} (compiler : Compiler σ)

/-- A config file named on the command line is read as one that the environment names. -/
theorem findConfig_named (files : FileSystem) (around : Surroundings) (path : Path) (f : Flags) :
    findConfig files around { f with config? := some path } =
      Config.discover files (around.set "TCCBIND_CONFIG" path) := by
  have hpath : (around.set "TCCBIND_CONFIG" path).configFile? = some path :=
    around.value?_set_self
  have hroot : (around.set "TCCBIND_CONFIG" path).root? = around.root? :=
    around.value?_set_of_ne (by decide)
  have hmodule : (around.set "TCCBIND_CONFIG" path).module? = around.module? :=
    around.value?_set_of_ne (by decide)
  have happly : Config.applyEnvironment (around.set "TCCBIND_CONFIG" path) =
      Config.applyEnvironment around := by
    funext config
    rw [Config.applyEnvironment, hroot, hmodule, Config.applyEnvironment]
  simp only [findConfig, Config.discover, hpath, Config.ofFileIn, happly]

theorem loadToolchainWith_named (loader : EntryTable.Loader) (around : Surroundings) (path : Path)
    (f : Flags) (w : World σ) :
    loadToolchainWith compiler loader around { f with config? := some path } w =
      loadToolchainWith compiler loader (around.set "TCCBIND_CONFIG" path)
        { f with config? := none } w := by
  have hfound := findConfig_named (w.files compiler) around path f
  simp only [loadToolchainWith, hfound]
  rfl

end CommandLine

namespace Config

/-- A config that is found is what its source gives, but for the overrides that are set and not
empty. One root follows from it. The module, unless another one is asked for, and the directories
that a context searches by default lie under that root. What the command line names is found as if
the environment named it. All of this holds whatever the loader opens. -/
theorem discovery_settles_root {σ : Type} (compiler : Compiler σ) (loader : EntryTable.Loader)
    (files : FileSystem) (around : Surroundings) :
    (∀ config log, discover files around = (.ok config, log) →
      ∃ given, Given files around given ∧ config = given.overridden around ∧
        (around.override? "TCCBIND_ROOT" = none → around.override? "TCCBIND_LIB" = none →
          config = given) ∧
        let named := ((around.override? "TCCBIND_ROOT").or given.native.root).getD
          (.ofString "native")
        let root := if named.isAbsolute then named else around.programDir.join named
        let explicit? := (around.override? "TCCBIND_LIB").or given.native.module
        let module := explicit?.getD ((root.child Abi.host.moduleDir).child "libtcc.so")
        let loaded := (Toolchain.discoverWith loader files around).1
        loaded = ((EntryTable.loadWith loader files .host module).1.map
          (⟨·, ⟨root⟩, config⟩)).mapError .load ∧
          (explicit? = none → Path.Under root module) ∧
          ∀ t, loaded = .ok t →
            t.table.origin = module ∧ t.layout.root = root ∧ t.config = config ∧
              ∃ before added after,
                t.plan = before ++ added ++ after ∧
                t.withoutDefaultPaths.plan = before ++ after ∧
                added.length = (if config.native.defaultPaths then 4 else 0) ∧
                ∀ operation ∈ added, ∃ dir, Path.Under root dir ∧
                  (operation = .addIncludePath dir ∨ operation = .addLibraryPath dir)) ∧
    ∀ path (flags : CommandLine.Flags) (w : World σ),
      CommandLine.findConfig files around { flags with config? := some path } =
        discover files (around.set "TCCBIND_CONFIG" path) ∧
      CommandLine.loadToolchainWith compiler loader around { flags with config? := some path } w =
        CommandLine.loadToolchainWith compiler loader (around.set "TCCBIND_CONFIG" path)
          { flags with config? := none } w := by
  refine ⟨fun config log h => ?_, fun path flags w =>
    ⟨CommandLine.findConfig_named files around path flags,
      CommandLine.loadToolchainWith_named compiler loader around path flags w⟩⟩
  obtain ⟨given, hgiven, hconfig⟩ := discover_ok h
  refine ⟨given, hgiven, hconfig,
    fun hroot hmodule => hconfig.trans (overridden_of_none hroot hmodule), ?_⟩
  intro named root explicit? module loaded
  have hlayout : config.layout around.programDir = ⟨root⟩ := by
    rw [layout_eq, hconfig]
    rfl
  have hmodule : config.modulePath around.programDir .host = module := by
    have hexplicit : config.native.module = explicit? := by rw [hconfig, overridden]
    rw [modulePath_eq, hlayout, hexplicit]
    rfl
  refine ⟨?_, ?_, fun t ht => ?_⟩
  · have hloaded := Toolchain.discoverWith_eq loader h
    rw [hlayout, hmodule] at hloaded
    exact hloaded
  · intro hexplicit
    have hlaid : module = (Layout.mk root).modulePath .host := by
      simp only [module, hexplicit]
      rfl
    exact hlaid ▸ (Layout.mk root).under_root.1 .host
  · have ht := Toolchain.discoverWith_ok loader h ht
    rw [hlayout, hmodule] at ht
    subst ht
    obtain ⟨before, after, hplan, hwithout⟩ :=
      Toolchain.plan_defaultPaths ⟨⟨.host, module⟩, ⟨root⟩, config⟩
    refine ⟨rfl, rfl, rfl, before, _, after, hplan, hwithout, ?_, fun operation hoperation => ?_⟩
    · by_cases hpaths : config.native.defaultPaths <;> simp [hpaths, Toolchain.defaultSearches,
        Layout.defaultIncludeDirs]
    · by_cases hpaths : config.native.defaultPaths
      · rw [if_pos hpaths] at hoperation
        exact Toolchain.defaultSearches_under _ operation hoperation
      · rw [if_neg hpaths] at hoperation
        exact absurd hoperation List.not_mem_nil

/-- A relative root from the environment moves the module and the default directories alike; an
empty module override moves nothing. -/
theorem root_moved_by_override :
    let around : Surroundings :=
      ⟨.ofString "/opt", [("TCCBIND_ROOT", .ofString "tcc"), ("TCCBIND_LIB", ⟨[]⟩)]⟩
    let files := FileSystem.plant {} (["opt", "tcc", "x64", "libtcc.so"].map Text.Utf8.encode)
      (.file (.library Entry.all))
    ∃ t, (Toolchain.discover files around).1 = .ok t ∧
      t.table.origin = .ofString "/opt/tcc/x64/libtcc.so" ∧ t.layout.root = .ofString "/opt/tcc" ∧
      t.plan.length = 4 := by
  intro around files
  let config : Config := { native := { root := some (.ofString "tcc") } }
  have hfound : discover files around = (.ok config, []) := by decide +kernel
  let t : Toolchain := ⟨⟨.host, .ofString "/opt/tcc/x64/libtcc.so"⟩, ⟨.ofString "/opt/tcc"⟩, config⟩
  have hloaded : (Toolchain.discover files around).1 = .ok t := by decide +kernel
  obtain ⟨hsettled, -⟩ :=
    discovery_settles_root .agreeable (EntryTable.openModule? files) files around
  obtain ⟨given, hgiven, -, -, -, -, ht⟩ := hsettled config [] hfound
  cases hgiven with
  | named hpath => exact nomatch hpath
  | beside _ hfile => exact absurd hfile (by decide)
  | defaults =>
    obtain ⟨horigin, hroot, -, -⟩ := ht t hloaded
    exact ⟨t, hloaded, horigin.trans (by decide), hroot.trans (by decide), rfl⟩

end Config

end EmbeddedC
