import EmbeddedC.Proofs.ScriptErrands
/-!
# Commands from start to end

Once a toolchain is loaded, a command opens a context with the settings of its config, follows its
script up to the first errand that fails, and deletes the state that it had created.
-/

namespace EmbeddedC.CommandLine

open EmbeddedC.Action

variable {σ α : Type} (compiler : Compiler σ)

/-- The ways a session of the command line goes in a world. No state is created; or the settings of
the toolchain and the script are carried out on a new one, as far as they go, and it is deleted. -/
inductive Conducted (t : Toolchain) (w : World σ) (script : List (Errand CommandError))
    (post : List Deed → α → Prop) : Outcome Event (World σ) CommandError α → Prop
  | mismatch (hh : t.table.abi.isHost = false) :
    Conducted t w script post ⟨.error (.bind (.load (.abiMismatch t.table.abi pointerBits))), w, []⟩
  | exhausted {outside : σ} (hh : t.table.abi.isHost)
    (hc : compiler.create w.outside = (false, outside)) :
    Conducted t w script post ⟨.error (.bind .createFailed), { w with outside }, [.created none]⟩
  | carried {r : Except CommandError α} {w' : World σ} {events : List Event} {ds : List Deed}
    (answer deleted : Answer) (hh : t.table.abi.isHost) (hc : (compiler.create w.outside).1)
    (hk : ∀ e ∈ events, e.Keeps w.channels.length)
    (hd : deeds w.channels.length events =
      .called .setErrorFunc answer :: (ds ++ [.called .delete deleted]))
    (hs : Carries compiler CommandError.bind (reported t.errands ++ script) ds (r.map fun _ => ()))
    (hp : ∀ a, r = .ok a → post ds a) :
    Conducted t w script post ⟨r, w', .created (some w.channels.length) :: events⟩

section Sessions

variable {compiler} {t : Toolchain} {w : World σ} {script : List (Errand CommandError)}
  {post : List Deed → α → Prop}

/-- What follows the script on any context that the toolchain opens is conducted. -/
theorem withContext_conducted {x : CommandAction σ α}
    (hx : ∀ past c, c = .fresh t.table w.channels.length ∨
        c = .primed t.table w.channels.length .memory false →
      Follows compiler CommandError.bind w.channels.length x c script
        fun ds a _ => post (past ++ ds) a) :
    Conducted compiler t w script post (withContext compiler t x w) := by
  have ho := t.opening compiler w
  unfold withContext
  simp only [Bind.bind, Action.bind, Action.mapError]
  generalize t.openContext compiler w = o at ho
  cases ho with
  | mismatch hh => exact .mismatch hh
  | exhausted hh hc => exact .exhausted hh hc
  | abandoned answer deleted hh hc hk hd hs =>
    have hplan := (hs.map CommandError.bind).append_of_error script
    exact .carried answer deleted hh hc hk hd hplan (by simp)
  | @opened w' events ds answer hh hc hk hd hs =>
    have hplan := hs.map CommandError.bind
    generalize hopened : ({ Context.fresh t.table w.channels.length with
      stage := if t.errands = [] then .created else .configured } : Context) = c
    have hcases : c = .fresh t.table w.channels.length ∨
        c = .primed t.table w.channels.length .memory false :=
      hopened ▸ Context.fresh_or_primed t.table w.channels.length (t.errands = [])
    obtain ⟨hcarried, hpost, hholds, hkeeps⟩ := hx ds c hcases w'
    let o := x ⟨c, w'⟩
    let released := ContextAction.release compiler o.state
    obtain ⟨⟨deleted, hdeleted⟩, hreleased⟩ :
        (∃ deleted, deeds w.channels.length released.events = [.called .delete deleted]) ∧
          ∀ e ∈ released.events, e.Keeps w.channels.length :=
      ContextAction.deeds_release compiler hholds o.state.world
    have hkept : ∀ e ∈ events ++ (o.events ++ released.events), e.Keeps w.channels.length :=
      List.forall_mem_append.2 ⟨hk, List.forall_mem_append.2 ⟨hkeeps, hreleased⟩⟩
    have hdeeds : deeds w.channels.length (events ++ (o.events ++ released.events)) =
        Deed.called .setErrorFunc answer ::
          ((ds ++ deeds w.channels.length o.events) ++ [Deed.called .delete deleted]) := by
      simp only [deeds_append, hd, hdeleted, List.cons_append, List.append_assoc]
    exact .carried answer deleted hh hc hkept hdeeds (hplan.append hcarried) hpost

/-- What a session returns is dropped. -/
theorem Conducted.drop {x : Action Event (World σ) CommandError α} {status : Int32}
    {post : List Deed → Int32 → Prop} (h : Conducted compiler t w script (fun _ _ => True) (x w))
    (hp : ∀ ds, post ds status) :
    Conducted compiler t w script post ((x >>= fun _ => Pure.pure status) w) := by
  simp only [Bind.bind, Action.bind, Pure.pure, Action.pure, List.append_nil]
  generalize x w = o at h
  cases h with
  | mismatch hh => exact .mismatch hh
  | exhausted hh hc => exact .exhausted hh hc
  | @carried r w' events ds answer deleted hh hc hk hd hs _ =>
    cases r with
    | error e => exact .carried answer deleted hh hc hk hd hs (by simp)
    | ok a =>
      refine .carried answer deleted hh hc hk hd hs fun b hb => ?_
      cases hb
      exact hp ds

variable {o : Outcome Event (World σ) CommandError α}

/-- Where the script is plain nothing is refused but a source that is missing. -/
theorem Conducted.refusal (h : Conducted compiler t w script post o)
    (hplain : ∀ errand ∈ script, Plain errand) {e : BindError} (ho : o.result = .error (.bind e))
    (he : e.isRefusal) : ∃ path, e = .io path .noSource := by
  cases h with
  | mismatch | exhausted =>
    cases ho
    cases he
  | carried answer deleted hh hc hk hd hs hp =>
    dsimp only at ho
    subst ho
    obtain ⟨errand, hmem, ds, hends⟩ := hs.exists_of_error
    have hall := List.forall_mem_append.2 ⟨plain_plan t, hplain⟩
    exact (hall errand hmem).refusal hends he

private theorem deeds_session {handle : Handle} {events : List Event} {ds : List Deed}
    {answer deleted : Answer}
    (hd : deeds handle events =
      Deed.called .setErrorFunc answer :: (ds ++ [Deed.called .delete deleted])) :
    deeds handle (.created (some handle) :: events) =
      [Deed.created, Deed.called .setErrorFunc answer] ++ ds ++ [Deed.called .delete deleted] := by
  simp [deeds_cons, Event.deed?, hd]

/-- Where the script is plain the requests on a state that is created are those of the plan and of
the script, as far as they go, and the state is deleted after them and not before. -/
theorem Conducted.requests (h : Conducted compiler t w script post o)
    (hplain : ∀ errand ∈ script, Plain errand)
    (ho : .created ∈ deeds w.channels.length o.events) :
    ∃ made, (deeds w.channels.length o.events).filterMap Deed.request? =
        Request.setErrorFunc :: (made ++ [Request.delete]) ∧
      made <+: (reported t.errands ++ script).filterMap Errand.request? ∧ Request.delete ∉ made ∧
      ∀ a, o.result = .ok a → made = (reported t.errands ++ script).filterMap Errand.request? := by
  cases h with
  | mismatch => exact absurd ho List.not_mem_nil
  | exhausted => simp [deeds_cons, Event.deed?] at ho
  | @carried r w' events ds answer deleted hh hc hk hd hs hp =>
    have hall := List.forall_mem_append.2 ⟨plain_plan t, hplain⟩
    have hmade := hs.requests_prefix
    refine ⟨ds.filterMap Deed.request?, ?_, hmade, ?_, ?_⟩
    · rw [deeds_session hd, List.filterMap_append, List.filterMap_append]
      rfl
    · intro hmem
      obtain ⟨errand, herrand, hrequest⟩ := List.mem_filterMap.1 (List.IsPrefix.subset hmade hmem)
      exact (hall errand herrand).request?_ne hrequest
    · intro a ha
      subst ha
      exact hs.requests_of_ok

/-- What a session enters is what its script enters. -/
theorem Conducted.entries (h : Conducted compiler t w script post o) :
    (deeds w.channels.length o.events).countP Deed.isEntry ≤
        (script.filter Errand.enters).length ∧
      ∀ address arguments, .entered address arguments ∈ deeds w.channels.length o.events →
        ∃ name e, .enter name arguments e ∈ script.filter Errand.enters := by
  cases h with
  | mismatch => exact ⟨Nat.zero_le _, fun _ _ hd => absurd hd List.not_mem_nil⟩
  | exhausted => simp [deeds_cons, Event.deed?]
  | @carried r w' events ds answer deleted hh hc hk hd hs hp =>
    have hscript : (reported t.errands ++ script).filter Errand.enters =
        script.filter Errand.enters := by
      rw [List.filter_append, filter_plan, List.nil_append]
    rw [deeds_session hd]
    refine ⟨?_, fun address arguments hmem => ?_⟩
    · simpa [Deed.isEntry, hscript] using hs.entries_le
    · have hentered : .entered address arguments ∈ ds := by simpa using hmem
      rw [← hscript]
      exact hs.entry_mem hentered

end Sessions

/-- What a command exits with if nothing goes wrong: its program's status, or zero without one. -/
def Command.Returns : Command → List Deed → Int32 → Prop
  | .run file arguments, ds, status =>
    Returned compiler (file.display :: arguments) ds (.status status)
  | .build _ _ _, _, status | .demo, _, status => status = 0

/-- Loading a toolchain logs, and does nothing else. -/
theorem loadToolchain_logs (around : Surroundings) (w : World σ) (f : Flags) :
    ∃ r, ∃ log : List LogRecord, loadToolchain compiler around f w = ⟨r, w, log.map .logged⟩ := by
  unfold loadToolchain loadToolchainWith
  dsimp only
  rcases Toolchain.loadFoundWith (EntryTable.openModule? (w.files compiler)) (w.files compiler)
    around (findConfig (w.files compiler) around f) with ⟨e | t, log⟩
  · exact ⟨_, log, rfl⟩
  · exact ⟨_, log ++ [.usingToolchain t.outline.line], by rw [List.map_append]; rfl⟩

namespace Invocation

variable (around : Surroundings) (i : Invocation) (w : World σ)

private theorem kind_isFile (kind : Kind) : kind.outputType.isFile := by
  cases kind <;> rfl

private theorem perform_loaded {t : Toolchain} {log : List Event}
    {script : List (Errand CommandError)}
    (hload : loadToolchain compiler around i.flags w = ⟨.ok t, w, log⟩)
    (hs : i.script = .ok script) :
    ∃ o, Conducted compiler t w script (i.command.Returns compiler) o ∧
      i.perform compiler around w = { o with events := log ++ o.events } := by
  unfold perform
  simp only [Bind.bind, Action.bind, hload]
  refine ⟨_, ?_, rfl⟩
  obtain ⟨file, arguments, hc, rfl⟩ | ⟨file, output?, kind, output, hc, ho, rfl⟩ | ⟨hc, rfl⟩ :=
    script_cases hs
  · rw [hc]
    apply withContext_conducted
    intro past c hopened
    apply (CommandAction.follows_run compiler t.table w.channels.length i.flags file arguments
      hopened).mono
    intro ds status _ hreturned
    obtain ⟨argv, main, outside, hargv, hentered, hstatus⟩ := hreturned
    exact ⟨argv, main, outside, hargv, List.mem_append_right past hentered, hstatus⟩
  · have hbuild : Conducted compiler t w
        (buildScript i.flags file output kind.outputType) (i.command.Returns compiler)
        ((withContext compiler t
            (CommandAction.build compiler i.flags file output kind.outputType) >>=
          fun _ => Pure.pure 0) w) := by
      rw [hc]
      refine Conducted.drop (withContext_conducted fun past c hopened => ?_) fun _ => rfl
      exact CommandAction.follows_build compiler t.table w.channels.length kind.outputType i.flags
        file output (kind_isFile kind) hopened
    rw [hc] at hbuild ⊢
    cases output? with
    | some path =>
      cases ho
      exact hbuild
    | none =>
      rw [Option.elim_none] at ho
      simp only [ho]
      exact hbuild
  · rw [hc]
    refine Conducted.drop (withContext_conducted fun past c hopened => ?_) fun _ => rfl
    exact CommandAction.follows_demo compiler t.table w.channels.length i.flags hopened

private theorem perform_unloaded {log : List Event} {e : CommandError}
    (hload : loadToolchain compiler around i.flags w = ⟨.error e, w, log⟩) :
    i.perform compiler around w = ⟨.error e, w, log⟩ := by
  unfold perform
  simp only [Bind.bind, Action.bind, hload]

private theorem defaultOutput_error {file : Path} {kind : Kind} {e : CommandError}
    (h : defaultOutput file kind = .error e) : e = .outputName file := by
  unfold defaultOutput at h
  split at h
  · cases h
    rfl
  · cases h

private theorem script_error {e : CommandError} (hs : i.script = .error e) :
    ∃ file kind, i.command = .build file none kind ∧ defaultOutput file kind = .error e := by
  cases hc : i.command with
  | run | demo =>
    simp only [Invocation.script, hc] at hs
    cases hs
  | build file output? kind =>
    simp only [Invocation.script, hc] at hs
    cases output? with
    | some output => cases hs
    | none =>
      cases ho : defaultOutput file kind with
      | ok output =>
        rw [Option.elim_none, ho] at hs
        cases hs
      | error e' =>
        rw [Option.elim_none, ho] at hs
        cases hs
        exact ⟨file, kind, rfl, ho⟩

private theorem perform_unnamed {t : Toolchain} {log : List Event} {e : CommandError}
    (hload : loadToolchain compiler around i.flags w = ⟨.ok t, w, log⟩)
    (hs : i.script = .error e) :
    i.perform compiler around w = ⟨.error e, w, log⟩ := by
  -- Where what a command writes has no name, nothing comes after the toolchain.
  obtain ⟨file, kind, hc, ho⟩ := script_error i hs
  unfold perform
  simp only [Bind.bind, Action.bind, hload, hc, Action.ofExcept, ho, List.append_nil]

/-- What a command does once a toolchain is loaded. Nothing is done where that fails, or where what
the command writes has no name. Otherwise the settings of the toolchain and the script of the
command are carried out on a state of its own, up to the first that fails, and the state is deleted.
Nothing is refused on the way but a source file that is missing, and one piece of code is entered at
most: a program, with its file's name as displayed before its own arguments. -/
theorem perform_conducts_script :
    let loaded := loadToolchain compiler around i.flags w
    let o := i.perform compiler around w
    let ds := deeds w.channels.length o.events
    (∀ e, loaded.result = .error e → o = ⟨.error e, w, loaded.events⟩) ∧
    ∀ t, loaded.result = .ok t →
      (∀ e, o.result = .error (.bind e) → e.isRefusal → ∃ file, e = .io file .noSource) ∧
      (∀ e, i.script = .error e → o = ⟨.error e, w, loaded.events⟩) ∧
      ∀ script, i.script = .ok script →
        (∃ o', Conducted compiler t w script (i.command.Returns compiler) o' ∧
          o = { o' with events := loaded.events ++ o'.events }) ∧
        (Deed.created ∈ ds → ∃ made,
          ds.filterMap Deed.request? = Request.setErrorFunc :: (made ++ [Request.delete]) ∧
          made <+: (reported t.errands ++ script).filterMap Errand.request? ∧
          Request.delete ∉ made ∧
          ∀ status, o.result = .ok status →
            made = (reported t.errands ++ script).filterMap Errand.request?) ∧
        ds.countP Deed.isEntry ≤ 1 ∧
        ∀ file arguments, i.command = .run file arguments →
          ∀ address a, Deed.entered address a ∈ ds →
            ∃ argv, a = .program argv ∧ argv.map CText.text = file.display :: arguments := by
  obtain ⟨r, log, hload⟩ := loadToolchain_logs compiler around w i.flags
  have hquiet : ∀ e ∈ log.map Event.logged, e.isQuiet := List.forall_mem_map.2 fun _ _ => rfl
  have hlogged := deeds_of_quiet hquiet w.channels.length
  dsimp only
  rw [hload]
  constructor
  · intro e he
    subst he
    exact perform_unloaded compiler around i w hload
  intro t ht
  subst ht
  cases hs : i.script with
  | error e =>
    have hperform := perform_unnamed compiler around i w hload hs
    refine ⟨?_, ?_, by simp⟩
    · intro e' he' _
      rw [hperform] at he'
      cases he'
      obtain ⟨file, kind, _, hunnamed⟩ := script_error i hs
      cases defaultOutput_error hunnamed
    · intro e' he'
      cases he'
      exact hperform
  | ok script =>
    obtain ⟨o, hconducted, hperform⟩ := perform_loaded compiler around i w hload hs
    have hplain := plain_script hs
    have hdeeds : deeds w.channels.length (i.perform compiler around w).events =
        deeds w.channels.length o.events := by
      rw [hperform, deeds_append, hlogged, List.nil_append]
    have hresult : (i.perform compiler around w).result = o.result := by rw [hperform]
    obtain ⟨hentries, hentered⟩ := hconducted.entries
    rw [filter_script hs] at hentries hentered
    rw [hdeeds, hresult]
    refine ⟨fun e he hrefusal => hconducted.refusal hplain he hrefusal, by simp, ?_⟩
    intro script' hscript
    cases hscript
    refine ⟨⟨o, hconducted, hperform⟩, hconducted.requests hplain, ?_, ?_⟩
    · exact Nat.le_trans hentries i.command.entry_length_le
    · intro file arguments hcommand address a ha
      obtain ⟨name, e, hmem⟩ := hentered address a ha
      rw [hcommand] at hmem
      exact Command.arguments_of_entry hmem

/-- A library is named under the type that is built, and before the source. -/
theorem library_named_before_source :
    let compiler : Compiler Unit := { Compiler.agreeable with files := fun _ =>
      { nodes := [([[116]], .file (.library Entry.all)), ([[115]], .file (.bytes []))] } }
    let around : Surroundings := ⟨⟨[47]⟩, [("TCCBIND_LIB", ⟨[47, 116]⟩)]⟩
    let i : Invocation := ⟨{ libraries := ["m"] }, .build ⟨[47, 115]⟩ (some ⟨[47, 111]⟩) .obj⟩
    let o := i.perform compiler around ⟨(), []⟩
    ∃ t, (loadToolchain compiler around i.flags ⟨(), []⟩).result = .ok t ∧
      (deeds 0 o.events).filterMap Deed.request? =
        Request.setErrorFunc :: (t.errands.filterMap Errand.request? ++
          [Request.setOutputType 4, Request.addLibrary (.upToNul [109]),
            Request.compile (.file (.upToNul [47, 115])),
            Request.outputFile (.upToNul [47, 111])] ++ [Request.delete]) := by
  intro compiler around i o
  let t := Toolchain.ofTable ⟨[47]⟩ ⟨.wide, ⟨[47, 116]⟩⟩
    { native := { module := some ⟨[47, 116]⟩ } }
  have hload : (loadToolchain compiler around i.flags ⟨(), []⟩).result = .ok t := rfl
  refine ⟨t, hload, ?_⟩
  obtain ⟨_, hloaded⟩ := perform_conducts_script compiler around i ⟨(), []⟩
  obtain ⟨_, _, hscript⟩ := hloaded t hload
  obtain ⟨_, hrequests, _⟩ := hscript _ rfl
  obtain ⟨made, hmade, _, _, hall⟩ := hrequests (by decide)
  have hok : o.result = .ok 0 := by decide
  calc (deeds 0 o.events).filterMap Deed.request?
      = Request.setErrorFunc :: (made ++ [Request.delete]) := hmade
    _ = _ := by
        rw [hall 0 hok, List.filterMap_append]
        rfl

end Invocation

end EmbeddedC.CommandLine
