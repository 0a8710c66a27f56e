import EmbeddedC.Proofs.ScriptErrands
import EmbeddedC.Proofs.Span
/-!
# Macros on the command line

An argument is read as a macro just where it is the macro as written. A session defines the macros
of its arguments one after the other, and ends at the first argument that is none.
-/

namespace EmbeddedC.CommandLine

open EmbeddedC.Action

namespace Define

/-- A name that a macro can have. -/
structure IsName (name : String) : Prop where
  nonempty : name ≠ ""
  noEquals : '=' ∉ name.toList
  noBlank : ∀ c ∈ name.toList, Text.isBlank c = false

/-- A macro as it is written: its name, and a value after an equals sign. -/
def written (d : Define) : String :=
  match d.value? with
  | none => d.name
  | some value => d.name ++ "=" ++ value

variable {raw : String} {d : Define}

theorem toList_written (d : Define) :
    d.written.toList = d.name.toList ++ d.value?.elim [] fun value => '=' :: value.toList := by
  unfold written
  cases d.value? <;> simp

private theorem cut_of_span {front rest : List Char} (hraw : raw.toList = front ++ rest)
    (hf : '=' ∉ front) (hr : rest = [] ∨ rest.head? = some '=') :
    cut raw = match rest with
      | [] => ⟨raw, none⟩
      | _ :: value => ⟨String.ofList front, some (String.ofList value)⟩ := by
  obtain ⟨htake, hdrop⟩ := span_append hf hr
  simp only [cut, hraw, htake, hdrop]
  cases rest <;> rfl

/-- The name ends at the first equals sign, and at no other. -/
theorem cut_eq_iff : cut raw = d ↔ raw = d.written ∧ '=' ∉ d.name.toList := by
  constructor
  · rintro rfl
    obtain ⟨front, rest, hraw, hf, hr⟩ := exists_span '=' raw.toList
    rw [cut_of_span hraw hf hr]
    cases rest with
    | nil =>
      rw [List.append_nil] at hraw
      exact ⟨rfl, hraw ▸ hf⟩
    | cons c value =>
      obtain rfl : c = '=' := by simpa using hr
      refine ⟨String.toList_injective ?_, by simpa using hf⟩
      simp [toList_written, hraw]
  · rintro ⟨rfl, hname⟩
    obtain ⟨name, _ | value⟩ := d
    · exact cut_of_span (List.append_nil _).symm hname (.inl rfl)
    · have hvalue := cut_of_span (toList_written ⟨name, some value⟩) hname (.inr rfl)
      simpa using hvalue

/-- An argument is read as a macro just where it is that macro as written. -/
theorem parse_eq_ok_iff : parse raw = .ok d ↔ raw = d.written ∧ IsName d.name := by
  have hname : ((cut raw).name.isEmpty || (cut raw).name.toList.any Text.isBlank) = false ↔
      (cut raw).name ≠ "" ∧ ∀ c ∈ (cut raw).name.toList, Text.isBlank c = false := by
    simp
  obtain ⟨hwritten, hequals⟩ := cut_eq_iff.1 (rfl : cut raw = cut raw)
  simp only [parse]
  constructor
  · intro h
    split at h
    · cases h
    · next hn =>
      cases h
      obtain ⟨hne, hblank⟩ := hname.1 (Bool.eq_false_iff.2 hn)
      exact ⟨hwritten, hne, hequals, hblank⟩
  · rintro ⟨hraw, hne, hequals, hblank⟩
    obtain rfl := cut_eq_iff.2 ⟨hraw, hequals⟩
    rw [hname.2 ⟨hne, hblank⟩]
    rfl

/-- Whether an argument is a macro. -/
def accepts (raw : String) : Bool :=
  (parse raw).isOk

theorem accepts_iff : accepts raw = true ↔ ∃ d, parse raw = .ok d := by
  unfold accepts
  cases parse raw <;> simp [Except.isOk, Except.toBool]

/-- What is no macro is refused in its own words. -/
theorem parse_of_not_accepts (h : accepts raw = false) : parse raw = .error (.badDefine raw) := by
  cases hp : parse raw with
  | ok d => exact absurd (accepts_iff.2 ⟨d, hp⟩) (by simp [h])
  | error e => rw [error_of_parse hp]

theorem parse_eq_error_iff : parse raw = .error (.badDefine raw) ↔
    ∀ d : Define, raw = d.written → ¬IsName d.name := by
  constructor
  · intro h d hraw hname
    rw [parse_eq_ok_iff.2 ⟨hraw, hname⟩] at h
    cases h
  · intro h
    refine parse_of_not_accepts (Bool.eq_false_iff.2 fun ha => ?_)
    obtain ⟨d, hd⟩ := accepts_iff.1 ha
    obtain ⟨hraw, hname⟩ := parse_eq_ok_iff.1 hd
    exact h d hraw hname

end Define

/-- The deed that makes an argument's macro: its name is handed over, and its value if it has one,
byte for byte. -/
def Defines (raw : String) (deed : Deed) : Prop :=
  ∃ d name value? answer, Define.parse raw = .ok d ∧
    deed = .called (.configure (.define name value?)) answer ∧
    name.bytes = Text.Utf8.encode d.name ∧
    value?.map CText.bytes = d.value?.map Text.Utf8.encode

section Errands

variable {σ : Type} {compiler : Compiler σ} {raw : String} {d : Define}

private theorem boundaryText_exact (what : String) {value : String} (hn : '\x00' ∉ value.toList) :
    ∃ t, boundaryText what value = .ok t ∧ t.bytes = Text.Utf8.encode value := by
  obtain ⟨t, ht⟩ := CText.exists_of_no_nul hn
  exact ⟨t, by rw [boundaryText, ht], (CText.ofString?_eq_some_iff.1 ht).symm⟩

/-- A macro without a NUL can be put into words. -/
theorem defining_of_parse (h : Define.parse raw = .ok d) (hn : '\x00' ∉ raw.toList) :
    ∃ name value?, defining raw = .ask (.configure (.define name value?)) ∧
      name.bytes = Text.Utf8.encode d.name ∧
      value?.map CText.bytes = d.value?.map Text.Utf8.encode := by
  obtain ⟨hraw, -⟩ := Define.parse_eq_ok_iff.1 h
  rw [hraw, Define.toList_written, List.mem_append, not_or] at hn
  obtain ⟨name, hname, hbytes⟩ := boundaryText_exact "macro name" hn.1
  unfold defining
  simp only [h, hname]
  cases hv : d.value? with
  | none => exact ⟨name, none, rfl, hbytes, rfl⟩
  | some value =>
    have hvalue : '\x00' ∉ value.toList := by
      simp only [hv, Option.elim_some, List.mem_cons, not_or] at hn
      exact hn.2.2
    obtain ⟨t, ht, hexact⟩ := boundaryText_exact "macro value" hvalue
    refine ⟨name, some t, ?_, hbytes, congrArg some hexact⟩
    rw [Option.mapM_some, ht]
    rfl

theorem defining_of_not_accepts (h : Define.accepts raw = false) :
    defining raw = .stop (.badDefine raw) := by
  rw [defining, Define.parse_of_not_accepts h]

private theorem defines_of_ends {ds : List Deed} {r : Except CommandError Unit}
    (ha : Define.accepts raw = true) (hn : '\x00' ∉ raw.toList)
    (h : (defining raw).Ends compiler CommandError.bind ds r) :
    r = .ok () ∧ ∃ deed, ds = [deed] ∧ Defines raw deed := by
  -- A macro is always defined, whatever is answered.
  obtain ⟨d, hd⟩ := Define.accepts_iff.1 ha
  obtain ⟨name, value?, hdefining, hname, hvalue⟩ := defining_of_parse hd hn
  rw [hdefining] at h
  cases h with
  | granted answer => exact ⟨rfl, _, rfl, d, name, value?, answer, hd, rfl, hname, hvalue⟩
  | refused answer hf => cases hf

/-- Macros are defined in order, up to the first argument that is none. -/
theorem defines_of_carries {raws : List String} {ds : List Deed} {r : Except CommandError Unit}
    (h : Carries compiler CommandError.bind (raws.map defining) ds r)
    (hn : ∀ raw ∈ raws, '\x00' ∉ raw.toList) :
    List.Forall₂ Defines (raws.takeWhile Define.accepts) ds ∧
      r = match raws.find? fun raw => !Define.accepts raw with
        | some raw => .error (.badDefine raw)
        | none => .ok () := by
  induction raws generalizing ds with
  | nil =>
    cases h
    exact ⟨.nil, rfl⟩
  | cons raw rest ih =>
    obtain ⟨hraw, hrest⟩ := List.forall_mem_cons.1 hn
    cases ha : Define.accepts raw with
    | false =>
      rw [List.map_cons, defining_of_not_accepts ha] at h
      simp only [List.takeWhile_cons, List.find?_cons, ha]
      cases h with
      | cut hs =>
        cases hs
        exact ⟨.nil, rfl⟩
      | next hs => cases hs
    | true =>
      simp only [List.takeWhile_cons, List.find?_cons, ha]
      cases h with
      | cut hs => cases (defines_of_ends ha hraw hs).1
      | next hs hr =>
        obtain ⟨-, deed, rfl, hdeed⟩ := defines_of_ends ha hraw hs
        obtain ⟨hdefined, hresult⟩ := ih hr hrest
        exact ⟨.cons hdeed hdefined, hresult⟩

end Errands

section Sessions

/-- The flags that name directories, alone. -/
def Flags.directories (f : Flags) : Flags :=
  { includeDirs := f.includeDirs, libraryDirs := f.libraryDirs }

/-- The operations that define the macros. -/
def Flags.definitions (f : Flags) : List (Except CommandError Operation) :=
  f.defines.map fun raw => (Define.parse raw).map fun d => .defineSymbol d.name d.value?

/-- The operations that come after the macros. -/
def Flags.optional (f : Flags) : List (Except CommandError Operation) :=
  f.options?.toList.map fun options => .ok (.setOptions options)

variable {σ α β : Type} (compiler : Compiler σ)

theorem Flags.operations_eq (f : Flags) :
    f.operations = f.directories.operations ++ (f.definitions ++ f.optional) := by
  simp [Flags.operations, Flags.directories, Flags.definitions, Flags.optional]

/-- The operations that define the macros run the errands that do. -/
theorem Flags.definitions_defining (f : Flags) :
    f.definitions.map asked? = (f.defines.map defining).map some := by
  have h := Flags.operations_settings { defines := f.defines }
  simpa [Flags.operations, Flags.settings, Flags.definitions] using h

namespace CommandAction

/-- An action on a context that is released at its end. -/
def releasing (x : CommandAction σ α) (s : Live σ) : Outcome Event (World σ) CommandError α :=
  let o := x s
  let released := ContextAction.release compiler o.state
  ⟨o.result, released.state.world, o.events ++ released.events⟩

private theorem bind_assoc {γ : Type} (x : CommandAction σ α) (f : α → CommandAction σ β)
    (g : β → CommandAction σ γ) : x >>= f >>= g = x >>= fun a => f a >>= g := by
  funext s
  simp only [Bind.bind, Action.bind]
  rcases x s with ⟨_ | a, s', events⟩
  · rfl
  · dsimp only
    rcases f a s' with ⟨_ | _, s'', more⟩ <;> simp

theorem operations_append (os more : List (Except CommandError Operation)) :
    operations compiler (os ++ more) =
      operations compiler os >>= fun _ => operations compiler more := by
  induction os with
  | nil =>
    funext s
    simp [operations, Bind.bind, Action.bind, Pure.pure, Action.pure]
  | cons o rest ih => simp only [List.cons_append, operations, ih, bind_assoc]

variable {compiler}

theorem releasing_of_ok {x : CommandAction σ α} {f : α → CommandAction σ β} {s s' : Live σ} {a : α}
    {events : List Event} (h : x s = ⟨.ok a, s', events⟩) :
    releasing compiler (x >>= f) s =
      let o := releasing compiler (f a) s'
      ⟨o.result, o.state, events ++ o.events⟩ := by
  simp only [releasing, Bind.bind, Action.bind, h, List.append_assoc]

theorem releasing_of_error {x : CommandAction σ α} {f : α → CommandAction σ β} {s s' : Live σ}
    {e : CommandError} {events : List Event} (h : x s = ⟨.error e, s', events⟩) :
    releasing compiler (x >>= f) s =
      let released := ContextAction.release compiler s'
      ⟨.error e, released.state.world, events ++ released.events⟩ := by
  simp only [releasing, Bind.bind, Action.bind, h]

end CommandAction

variable {compiler}

theorem withContext_of_opened {t : Toolchain} {w w' : World σ} {c : Context} {events : List Event}
    (h : t.openContext compiler w = ⟨.ok c, w', events⟩) (x : CommandAction σ α) :
    withContext compiler t x w =
      let o := x.releasing compiler ⟨c, w'⟩
      ⟨o.result, o.state, events ++ o.events⟩ := by
  simp only [withContext, Bind.bind, Action.bind, Action.mapError, h, Action.mapError_ok]
  rfl

/-- The flags are applied part by part. -/
theorem CommandAction.applyFlags_eq (f : Flags) :
    applyFlags compiler f = applyFlags compiler f.directories >>= fun _ =>
      operations compiler f.definitions >>= fun _ => operations compiler f.optional := by
  rw [applyFlags, f.operations_eq, ← List.cons_append, operations_append, operations_append]
  rfl

/-- A context is opened as it was created, or with settings of its config. -/
theorem fresh_or_primed_of_opened {t : Toolchain} {w w' : World σ} {c : Context}
    {events : List Event} (h : t.openContext compiler w = ⟨.ok c, w', events⟩) :
    c = .fresh t.table w.channels.length ∨ c = .primed t.table w.channels.length .memory false := by
  have ho := t.opening compiler w
  rw [h] at ho
  cases ho with
  | opened => exact Context.fresh_or_primed t.table w.channels.length (t.errands = [])

variable (compiler) in
/-- On a configured context the macros are defined in order, up to the first argument that is none.
The context stays as it is. -/
theorem Flags.definitions_made (f : Flags) (hn : ∀ raw ∈ f.defines, '\x00' ∉ raw.toList)
    {s : Live σ} {handle : Handle} (hc : s.context.handle? = some handle)
    (hh : s.context.hook? = none) (hs : s.context.stage = .configured) :
    ∃ r s' events, CommandAction.operations compiler f.definitions s = ⟨r, s', events⟩ ∧
      (∀ e ∈ events, e.Keeps handle) ∧
      List.Forall₂ Defines (f.defines.takeWhile Define.accepts) (deeds handle events) ∧
      (r = match f.defines.find? fun raw => !Define.accepts raw with
        | some raw => .error (.badDefine raw)
        | none => .ok ()) ∧
      s'.context.handle? = some handle ∧ (r = .ok () → s'.context = s.context) := by
  obtain ⟨hcarried, hpost, hholds, hkeeps⟩ :=
    CommandAction.follows_settings compiler f.definitions_defining hc hh hs s.world
  obtain ⟨hdefined, hresult⟩ := defines_of_carries hcarried hn
  refine ⟨_, _, _, rfl, hkeeps, hdefined, ?_, hholds, hpost ()⟩
  rw [← hresult]
  cases (CommandAction.operations compiler f.definitions s).result <;> rfl

variable (compiler) in
/-- An argument is read as a macro just where it is a name, or a name and any value around an equals
sign, and otherwise it is refused in its own words. Once the settings of the config and of the
directories are made, a session defines the macros of arguments without NUL one after the other.
It ends at the first argument that is none, and goes on with the rest of its work if there is no
such argument. -/
theorem Flags.macros_read_and_defined (t : Toolchain) (f : Flags) (w : World σ)
    (x : CommandAction σ α) :
    (∀ raw name, Define.parse raw = .ok ⟨name, none⟩ ↔ raw = name ∧ Define.IsName name) ∧
      (∀ raw name value, Define.parse raw = .ok ⟨name, some value⟩ ↔
        raw = name ++ "=" ++ value ∧ Define.IsName name) ∧
      (∀ raw, Define.parse raw = .error (.badDefine raw) ↔
        ∀ d : Define, raw = d.written → ¬Define.IsName d.name) ∧
      ((∀ raw ∈ f.defines, '\x00' ∉ raw.toList) →
        ∀ c w' opened, t.openContext compiler w = ⟨.ok c, w', opened⟩ →
        ∀ s searched,
          CommandAction.applyFlags compiler f.directories ⟨c, w'⟩ = ⟨.ok (), s, searched⟩ →
        let o := withContext compiler t (CommandAction.applyFlags compiler f >>= fun _ => x) w
        ∃ handle defined rest, c.handle? = some handle ∧
          o.events = opened ++ searched ++ defined ++ rest ∧ (∀ e ∈ defined, e.Keeps handle) ∧
          List.Forall₂ Defines (f.defines.takeWhile Define.accepts) (deeds handle defined) ∧
          match f.defines.find? fun raw => !Define.accepts raw with
          | some raw => o.result = .error (.badDefine raw) ∧ (∀ e ∈ rest, e.Keeps handle) ∧
              ∃ answer, deeds handle rest = [.called .delete answer]
          | none => ∃ s', s'.context = s.context ∧
              let o' := CommandAction.releasing compiler
                (CommandAction.operations compiler f.optional >>= fun _ => x) s'
              o.result = o'.result ∧ o.state = o'.state ∧ rest = o'.events) := by
  refine ⟨fun raw name => Define.parse_eq_ok_iff, fun raw name value => Define.parse_eq_ok_iff,
    fun raw => Define.parse_eq_error_iff, ?_⟩
  intro hn c w' opened hopened s searched hsearched
  have hc := fresh_or_primed_of_opened hopened
  have hheld : c.handle? = some w.channels.length := by
    rcases hc with rfl | rfl <;> rfl
  -- the sink alone configures a context that the config left as it was created
  have hprimed : s.context = .primed t.table w.channels.length .memory false := by
    have hfollows := CommandAction.follows_applyFlags compiler t.table w.channels.length
      f.directories hc w'
    rw [hsearched] at hfollows
    exact hfollows.post () rfl
  have hfirst : s.context.handle? = some w.channels.length := by rw [hprimed]; rfl
  have hunhooked : s.context.hook? = none := by rw [hprimed]; rfl
  have hconfigured : s.context.stage = .configured := by rw [hprimed]; rfl
  obtain ⟨r, s', defined, hmade, hkeeps, hdefined, hresult, hholds, hpost⟩ :=
    f.definitions_made compiler hn hfirst hunhooked hconfigured
  rw [withContext_of_opened hopened, CommandAction.applyFlags_eq, CommandAction.bind_assoc,
    CommandAction.releasing_of_ok hsearched, CommandAction.bind_assoc]
  cases hf : f.defines.find? fun raw => !Define.accepts raw with
  | some raw =>
    rw [hf] at hresult
    subst hresult
    obtain ⟨hdeleted, hreleased⟩ := ContextAction.deeds_release compiler hholds s'.world
    rw [CommandAction.releasing_of_error hmade]
    refine ⟨w.channels.length, defined, _, hheld, ?_, hkeeps, hdefined, rfl, hreleased, hdeleted⟩
    simp only [List.append_assoc]
  | none =>
    rw [hf] at hresult
    subst hresult
    rw [CommandAction.releasing_of_ok hmade]
    refine ⟨w.channels.length, defined, _, hheld, ?_, hkeeps, hdefined, s', hpost rfl, rfl, rfl,
      rfl⟩
    simp only [List.append_assoc]

/-- The third of four macros has no name: the two before it are defined, and no other. -/
theorem defined_up_to_nameless :
    let t := Toolchain.ofTable ⟨[47]⟩ ⟨.wide, ⟨[47, 116]⟩⟩ { native := { defaultPaths := false } }
    let f : Flags := { includeDirs := [⟨[47, 105]⟩], defines := ["A=1=2", "B", "=3", "C"] }
    let o := withContext .agreeable t
      (CommandAction.applyFlags .agreeable f >>= fun _ => CommandAction.link .agreeable f) ⟨(), []⟩
    o.result = .error (.badDefine "=3") ∧ ∃ before defined after,
      o.events = before ++ defined ++ after ∧
        List.Forall₂ Defines ["A=1=2", "B"] (deeds 0 defined) ∧
        ∃ answer, deeds 0 after = [.called .delete answer] := by
  intro t f o
  obtain ⟨-, -, -, hmade⟩ := Flags.macros_read_and_defined .agreeable t f ⟨(), []⟩
    (CommandAction.link .agreeable f)
  obtain ⟨handle, defined, rest, hheld, hevents, _, hdefined, hresult, _, hdeleted⟩ :=
    hmade (by decide) (.fresh t.table 0) _ _ rfl _ _ rfl
  cases hheld
  exact ⟨hresult, _, defined, rest, hevents, hdefined, hdeleted⟩

end Sessions

end EmbeddedC.CommandLine
