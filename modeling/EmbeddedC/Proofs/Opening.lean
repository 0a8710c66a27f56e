import EmbeddedC.Proofs.TaskErrands
import EmbeddedC.Proofs.Document
/-!
# Opening a context

A new context is given the settings of its toolchain's config, each once and in a fixed order.
Either all of them are made, or the first that fails is reported and the state that was created is
deleted.
-/

namespace EmbeddedC

section Boundary

variable {value : String} {path : Path}

theorem boundaryText_of_no_nul (what : String) (h : (0 : UInt8) ∉ Text.Utf8.encode value) :
    ∃ t, boundaryText what value = .ok t := by
  rw [← CText.ofBytes?_eq_none_iff] at h
  obtain ⟨t, ht⟩ := Option.ne_none_iff_exists'.1 h
  exact ⟨t, by rw [boundaryText, CText.ofString?, ht]⟩

theorem boundaryPath_of_no_nul (h : (0 : UInt8) ∉ path.bytes) :
    ∃ t, boundaryPath path = .ok t := by
  rw [← CText.ofBytes?_eq_none_iff] at h
  obtain ⟨t, ht⟩ := Option.ne_none_iff_exists'.1 h
  exact ⟨t, by rw [boundaryPath, ht]⟩

end Boundary

/-- What is read off each entry of a list is read off the list. -/
theorem map_map_some {α β γ : Type} {read : β → Option γ} (l : List α) (f : α → β) (g : α → γ)
    (h : ∀ a, read (f a) = some (g a)) :
    (l.map f).map read = (l.map g).map some := by
  rw [List.map_map, List.map_map]
  exact List.map_congr_left fun a _ => h a

namespace Toolchain

/-- A macro with its value, as a setting. -/
def macroSetting (name value : String) : Except BindError Setting := do
  let name ← boundaryText "macro name" name
  let value ← boundaryText "macro value" value
  pure (.define name (some value))

/-- The settings that a config makes: where the library is, the layout's own directories, those that
are listed, macros with their values, and options. -/
def settings (t : Toolchain) : List (Except BindError Setting) :=
  let root := t.layout.root
  let native := t.config.native
  let compile := t.config.compile
  native.libPath.toList.map (fun path => .libPath <$> boundaryPath path) ++
    (if native.defaultPaths then
      [.includePath <$> boundaryPath (root.child "include"),
        .includePath <$> boundaryPath (root.child "libtcc"),
        .includePath <$> boundaryPath ((root.child "include").child "winapi"),
        .libraryPath <$> boundaryPath (root.child "lib")]
    else []) ++
    compile.includePaths.map (fun path => .includePath <$> boundaryPath path) ++
    compile.sysIncludePaths.map (fun path => .sysIncludePath <$> boundaryPath path) ++
    compile.libraryPaths.map (fun path => .libraryPath <$> boundaryPath path) ++
    compile.defines.map (fun (name, value) => macroSetting name value) ++
    compile.options.toList.map fun options =>
      .options <$> boundaryText "compiler options" options

/-- All that a config has to say, in bytes. -/
def strings (t : Toolchain) : List (List UInt8) :=
  let root := t.layout.root
  let native := t.config.native
  let compile := t.config.compile
  native.libPath.toList.map Path.bytes ++
    (if native.defaultPaths then
      [root.child "include", root.child "libtcc", (root.child "include").child "winapi",
        root.child "lib"].map Path.bytes
    else []) ++
    (compile.includePaths ++ compile.sysIncludePaths ++ compile.libraryPaths).map Path.bytes ++
    compile.defines.entries.flatMap (fun (name, value) =>
      [Text.Utf8.encode name, Text.Utf8.encode value]) ++
    compile.options.toList.map Text.Utf8.encode

def errands (t : Toolchain) : List (Errand BindError) :=
  t.settings.map fun setting => .ofExcept (setting.map .configure)

variable {t : Toolchain}

/-- The operations that a new context starts with make these settings. -/
theorem plan_settings (t : Toolchain) : t.plan.map Operation.setting? = t.settings.map some := by
  have hdefine : ∀ d : String × String, (Operation.defineSymbol d.1 (some d.2)).setting? =
      some (macroSetting d.1 d.2) := by
    rintro ⟨name, value⟩
    simp only [Operation.setting?, macroSetting, Option.mapM_some]
    cases boundaryText "macro name" name with
    | error e => rfl
    | ok name => cases boundaryText "macro value" value <;> rfl
  have hdirs : (if t.config.native.defaultPaths then
      t.layout.defaultIncludeDirs.map .addIncludePath ++ [.addLibraryPath t.layout.libDir]
      else []).map Operation.setting? =
        (if t.config.native.defaultPaths then
          [.includePath <$> boundaryPath (t.layout.root.child "include"),
            .includePath <$> boundaryPath (t.layout.root.child "libtcc"),
            .includePath <$> boundaryPath ((t.layout.root.child "include").child "winapi"),
            .libraryPath <$> boundaryPath (t.layout.root.child "lib")]
        else []).map some := by
    cases t.config.native.defaultPaths <;> rfl
  simp only [plan, settings, Config.MacroTable.map, List.map_append]
  have hmap {α : Type} := @map_map_some α Operation (Except BindError Setting) Operation.setting?
  rw [hmap _ .setLibPath _ fun _ => rfl, hdirs, hmap _ .addIncludePath _ fun _ => rfl,
    hmap _ .addSysIncludePath _ fun _ => rfl, hmap _ .addLibraryPath _ fun _ => rfl,
    hmap _ _ _ hdefine, hmap _ .setOptions _ fun _ => rfl]

theorem plan_eq_nil_iff (t : Toolchain) : t.plan = [] ↔ t.errands = [] := by
  have hlength := congrArg List.length t.plan_settings
  simp only [List.length_map] at hlength
  rw [errands, List.map_eq_nil_iff, ← List.length_eq_zero_iff, hlength, List.length_eq_zero_iff]

/-- Where no string has a NUL, every setting can be made. -/
theorem settings_of_no_nul (h : ∀ bytes ∈ t.strings, (0 : UInt8) ∉ bytes) :
    ∀ setting ∈ t.settings, ∃ s, setting = .ok s := by
  have hpath : ∀ (g : CText → Setting) {path : Path}, (0 : UInt8) ∉ path.bytes →
      ∃ s, g <$> boundaryPath path = .ok s := by
    intro g path hn
    obtain ⟨text, ht⟩ := boundaryPath_of_no_nul hn
    exact ⟨g text, by rw [ht]; rfl⟩
  simp only [strings, List.forall_mem_append, List.forall_mem_map, List.mem_flatMap] at h
  obtain ⟨⟨⟨⟨hlib, hdirs⟩, ⟨hinclude, hsys⟩, hlibrary⟩, hdefines⟩, hoptions⟩ := h
  simp only [settings, Config.MacroTable.map, List.forall_mem_append, List.forall_mem_map]
  refine ⟨⟨⟨⟨⟨⟨?_, ?_⟩, ?_⟩, ?_⟩, ?_⟩, ?_⟩, ?_⟩
  · exact fun path hp => hpath _ (hlib path hp)
  · cases hd : t.config.native.defaultPaths with
    | false => simp
    | true =>
      simp only [hd, if_true, List.map_cons, List.map_nil, List.forall_mem_cons] at hdirs ⊢
      obtain ⟨h1, h2, h3, h4, _⟩ := hdirs
      exact ⟨hpath _ h1, hpath _ h2, hpath _ h3, hpath _ h4, by simp⟩
  · exact fun path hp => hpath _ (hinclude path hp)
  · exact fun path hp => hpath _ (hsys path hp)
  · exact fun path hp => hpath _ (hlibrary path hp)
  · rintro ⟨name, value⟩ hd
    obtain ⟨n, hn⟩ := boundaryText_of_no_nul "macro name"
      (hdefines _ ⟨_, hd, .head _⟩)
    obtain ⟨v, hv⟩ := boundaryText_of_no_nul "macro value"
      (hdefines _ ⟨_, hd, .tail _ (.head _)⟩)
    exact ⟨.define n (some v), by rw [macroSetting, hn, hv]; rfl⟩
  · intro options ho
    obtain ⟨text, ht⟩ := boundaryText_of_no_nul "compiler options" (hoptions options ho)
    exact ⟨.options text, by rw [ht]; rfl⟩

/-- A setting that cannot be made has a NUL in its way. -/
theorem setting_error {e : BindError} (h : .error e ∈ t.settings) :
    ∃ what, e = .invalidArgument what Reason.interiorNul := by
  have htext : ∀ {what value : String} {e}, boundaryText what value = .error e →
      ∃ what, e = .invalidArgument what Reason.interiorNul := by
    intro what value e he
    unfold boundaryText at he
    split at he
    · cases he
    · cases he
      exact ⟨_, rfl⟩
  have hpath : ∀ {path : Path} (g : CText → Setting) {e}, g <$> boundaryPath path = .error e →
      ∃ what, e = .invalidArgument what Reason.interiorNul := by
    intro path g e he
    unfold boundaryPath at he
    split at he
    · cases he
    · cases he
      exact ⟨_, rfl⟩
  simp only [settings, Config.MacroTable.map, List.mem_append, List.mem_map] at h
  rcases h with (((((⟨path, _, hp⟩ | hd) | ⟨path, _, hp⟩) | ⟨path, _, hp⟩) | ⟨path, _, hp⟩) |
    ⟨⟨name, value⟩, _, hm⟩) | ⟨options, _, ho⟩
  · exact hpath _ hp
  · split at hd
    · simp only [List.mem_cons, List.not_mem_nil, or_false] at hd
      rcases hd with hd | hd | hd | hd <;> exact hpath _ hd.symm
    · exact absurd hd List.not_mem_nil
  · exact hpath _ hp
  · exact hpath _ hp
  · exact hpath _ hp
  · cases hn : boundaryText "macro name" name with
    | error e' =>
      rw [macroSetting, hn] at hm
      cases hm
      exact htext hn
    | ok n =>
      cases hv : boundaryText "macro value" value with
      | error e' =>
        rw [macroSetting, hn, hv] at hm
        cases hm
        exact htext hv
      | ok v =>
        rw [macroSetting, hn, hv] at hm
        cases hm
  · cases ht : boundaryText "compiler options" options with
    | error e' =>
      rw [ht] at ho
      cases ho
      exact htext ht
    | ok text =>
      rw [ht] at ho
      cases ho

end Toolchain

section Opening

variable {σ : Type} (compiler : Compiler σ)

/-- The ways of opening a context in a world: with a table for another host; with no memory left;
with all settings made; or given up at the first that fails, and deleted. -/
inductive Opening (t : Toolchain) (w : World σ) :
    Outcome Event (World σ) BindError Context → Prop
  | mismatch (hh : t.table.abi.isHost = false) :
    Opening t w ⟨.error (.load (.abiMismatch t.table.abi pointerBits)), w, []⟩
  | exhausted {outside : σ} (hh : t.table.abi.isHost)
    (hc : compiler.create w.outside = (false, outside)) :
    Opening t w ⟨.error .createFailed, { w with outside }, [.created none]⟩
  | opened {w' : World σ} {events : List Event} {ds : List Deed} (answer : Answer)
    (hh : t.table.abi.isHost) (hc : (compiler.create w.outside).1)
    (hk : ∀ e ∈ events, e.Keeps w.channels.length)
    (hd : deeds w.channels.length events = .called .setErrorFunc answer :: ds)
    (hs : Carries compiler id t.errands ds (.ok ())) :
    Opening t w ⟨.ok { Context.fresh t.table w.channels.length with
        stage := if t.errands = [] then .created else .configured },
      w', .created (some w.channels.length) :: events⟩
  | abandoned {e : BindError} {w' : World σ} {events : List Event} {ds : List Deed}
    (answer deleted : Answer) (hh : t.table.abi.isHost) (hc : (compiler.create w.outside).1)
    (hk : ∀ e ∈ events, e.Keeps w.channels.length)
    (hd : deeds w.channels.length events =
      .called .setErrorFunc answer :: (ds ++ [.called .delete deleted]))
    (hs : Carries compiler id t.errands ds (.error e)) :
    Opening t w ⟨.error e, w', .created (some w.channels.length) :: events⟩

/-- A state that is held is deleted when it is released. -/
theorem ContextAction.deeds_release {c : Context} {handle : Handle} (hc : c.handle? = some handle)
    (w : World σ) :
    (∃ answer, deeds handle (release compiler ⟨c, w⟩).events = [.called .delete answer]) ∧
      ∀ e ∈ (release compiler ⟨c, w⟩).events, e.Keeps handle := by
  have hr : Yields handle (release compiler) c
      fun ds _ _ => ∃ answer, ds = [.called .delete answer] :=
    Yields.release hc fun answer => ⟨answer, rfl⟩
  exact ⟨(hr w).post, (hr w).keeps⟩

theorem Toolchain.opening (t : Toolchain) (w : World σ) :
    Opening compiler t w (t.openContext compiler w) := by
  cases hh : t.table.abi.isHost with
  | false =>
    have ho := Context.create_mismatch compiler hh w
    simp only [openContext, Bind.bind, Action.bind, ho]
    exact .mismatch hh
  | true =>
    rcases hc : compiler.create w.outside with ⟨_ | _, outside⟩
    · have ho := Context.create_exhausted compiler hh hc
      simp only [openContext, Bind.bind, Action.bind, ho]
      exact .exhausted hh hc
    · obtain ⟨answer, w', events, ho, hquiet, _⟩ := Context.create_fresh compiler hh hc
      obtain ⟨hcarried, hpost, hholds, hkeeps⟩ := Operation.follows_settings compiler
        t.plan t.plan_settings (c := .fresh t.table w.channels.length) rfl rfl rfl w'
      have hcreated : (compiler.create w.outside).1 := by rw [hc]
      have hfirst : ∀ e ∈ Event.called (some w.channels.length) .setErrorFunc answer :: events,
          e.Keeps w.channels.length :=
        List.forall_mem_cons.2 ⟨rfl, fun e he => Event.keeps_of_isQuiet (hquiet e he) _⟩
      have hdeeds := deeds_of_quiet hquiet w.channels.length
      simp only [openContext, Bind.bind, Action.bind, ho, Context.prepare]
      rcases hx : Operation.performAll compiler t.plan ⟨.fresh t.table w.channels.length, w'⟩ with
        ⟨r, s, more⟩
      rw [hx] at hcarried hpost hholds hkeeps
      have hall :
          ∀ e ∈ Event.called (some w.channels.length) .setErrorFunc answer :: events ++ more,
            e.Keeps w.channels.length := List.forall_mem_append.2 ⟨hfirst, hkeeps⟩
      cases r with
      | ok value =>
        have hcontext : s.context = { Context.fresh t.table w.channels.length with
            stage := if t.errands = [] then .created else .configured } := by
          rw [hpost value rfl]
          by_cases hn : t.errands = []
          · rw [if_pos (t.plan_eq_nil_iff.2 hn), if_pos hn]
            rfl
          · rw [if_neg (mt t.plan_eq_nil_iff.1 hn), if_neg hn]
            rfl
        dsimp only
        rw [hcontext]
        refine .opened answer hh hcreated hall ?_ hcarried
        simp [deeds_cons, Event.deed?, hdeeds]
      | error e =>
        obtain ⟨⟨deleted, hdeleted⟩, hreleased⟩ :=
          ContextAction.deeds_release compiler hholds s.world
        have hkept := List.forall_mem_append.2 ⟨hall, hreleased⟩
        rw [List.append_assoc] at hkept
        refine .abandoned answer deleted hh hcreated hkept ?_ hcarried
        simp [deeds_cons, Event.deed?, hdeeds, hdeleted]

private theorem errand_request {t : Toolchain}
    (h : ∀ setting ∈ t.settings, ∃ s, setting = .ok s) :
    ∀ errand ∈ t.errands, ∃ request, errand = .ask request := by
  intro errand he
  obtain ⟨setting, hs, rfl⟩ := List.mem_map.1 he
  obtain ⟨s, rfl⟩ := h setting hs
  exact ⟨.configure s, rfl⟩

private theorem errand_error {t : Toolchain} {errand : Errand BindError} (he : errand ∈ t.errands)
    {ds : List Deed} {e : BindError} (h : errand.Ends compiler id ds (.error e)) :
    (∃ what, e = .invalidArgument what Reason.interiorNul) ∨
      ∃ entry argument status, e = .rejected entry argument status ∧ status < 0 := by
  obtain ⟨setting, hs, rfl⟩ := List.mem_map.1 he
  cases setting with
  | error e' =>
    cases h with
    | stopped => exact .inl (Toolchain.setting_error hs)
  | ok s =>
    cases h with
    | @refused _ answer e hf ha =>
      right
      simp only [Request.failure?] at hf
      split at hf
      · cases hf
        exact ⟨_, _, _, rfl, ha⟩
      · cases hf

/-- A toolchain opens a context with the settings of its config, in order and each once, up to the
first that fails. None fails where there is no NUL and no negative status. The macros come in
ascending order, and those of a config that was read from a text are the ones that the text lists. -/
theorem Toolchain.openContext_makes_settings (t : Toolchain) (w : World σ) :
    Opening compiler t w (t.openContext compiler w) ∧
      (∀ ds r, Carries compiler id t.errands ds r →
        ds.filterMap Deed.request? <+: t.errands.filterMap Errand.request? ∧
          (∀ e, r = .error e → (∃ what, e = .invalidArgument what Reason.interiorNul) ∨
            ∃ entry argument status, e = .rejected entry argument status ∧ status < 0) ∧
          ((∀ bytes ∈ t.strings, (0 : UInt8) ∉ bytes) →
            (∀ request answer, .called request answer ∈ ds →
              (request.failure? answer.status).isSome → 0 ≤ answer.status) →
            r = .ok () ∧
              ds.filterMap Deed.request? = t.errands.filterMap Errand.request?)) ∧
      Config.Ascending t.config.compile.defines.entries ∧
      ∀ text origin, Config.ofText text origin = .ok t.config →
        ∃ listed, Config.textMacros? text = some listed ∧
          t.config.compile.defines.entries.Perm listed := by
  refine ⟨t.opening compiler w, ?_, t.config.compile.defines.ascending,
    fun _ _ => Config.macros_of_text⟩
  intro ds r hs
  refine ⟨hs.requests_prefix, ?_, ?_⟩
  · rintro e rfl
    obtain ⟨errand, he, ds', hends⟩ := hs.exists_of_error
    exact errand_error compiler he hends
  · intro hnul hgrant
    exact hs.of_granted (errand_request (settings_of_no_nul hnul)) hgrant

end Opening

end EmbeddedC
