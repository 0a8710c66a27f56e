import EmbeddedC.Proofs.CanonicalCalls

/-!
# Texts at the boundary

What an operation is given and what its call carries. A text or path with a NUL in it is refused
before anything is called; all others cross byte for byte, and one that is not given is not made up.
A program finds its arguments in order, with their count, before a null pointer.
-/

namespace EmbeddedC

/-- Texts as bytes, in the order in which a call takes them. One that is not given is none. -/
abbrev Texts := List (Option (List UInt8))

def Texts.HasNul (texts : Texts) : Prop :=
  ∃ text, some text ∈ texts ∧ (0 : UInt8) ∈ text

section HasNul

variable {texts more : Texts} {text : List UInt8}

theorem Texts.not_hasNul_nil : ¬Texts.HasNul [] := by
  simp [HasNul]

theorem Texts.hasNul_singleton : Texts.HasNul [some text] ↔ (0 : UInt8) ∈ text := by
  simp [HasNul]

theorem Texts.hasNul_append :
    Texts.HasNul (texts ++ more) ↔ texts.HasNul ∨ more.HasNul := by
  simp only [HasNul, List.mem_append]
  constructor
  · rintro ⟨text, htext | htext, hnul⟩
    · exact .inl ⟨text, htext, hnul⟩
    · exact .inr ⟨text, htext, hnul⟩
  · rintro (⟨text, htext, hnul⟩ | ⟨text, htext, hnul⟩)
    · exact ⟨text, .inl htext, hnul⟩
    · exact ⟨text, .inr htext, hnul⟩

end HasNul

/-- The texts of a setting. A macro has a value only where one is given. -/
def Setting.texts : Setting → Texts
  | define name value? => [some name.bytes, value?.map CText.bytes]
  | setting => [some setting.argument.bytes]

def SourceUnit.bytes : SourceUnit → List UInt8
  | text source => source.bytes
  | file path => path.bytes

/-- The texts that a request carries. -/
def Request.texts : Request → Texts
  | setErrorFunc | delete | setOutputType _ | relocate _ => []
  | configure setting => setting.texts
  | compile unit => [some unit.bytes]
  | addLibrary name | addSymbol name _ | getSymbol name => [some name.bytes]
  | run arguments => arguments.map fun argument => some argument.bytes
  | outputFile path => [some path.bytes]

/-- The request that a task is about. An output type to be told goes before it. -/
def Task.request? : Task → Option Request
  | installSink _ | installHook _ | chooseType _ | keepType => none
  | configure setting => some (.configure setting)
  | addLibrary name => some (.addLibrary name)
  | compile unit => some (.compile unit)
  | inject name symbol => some (.addSymbol name symbol.address)
  | relocate target => some (.relocate target)
  | lookUp name => some (.getSymbol name)
  | run _ => some (.getSymbol ContextAction.mainName)
  | outputFile path => some (.outputFile path)
  | dispose => some .delete

namespace Operation

/-- The entry point that an operation is there to call. -/
def entry? : Operation → Option Entry
  | setErrorSink _ | clearErrorSink | setBeforeCompile _ | setOutputType _ => none
  | setLibPath _ => some .setLibPath
  | setOptions _ => some .setOptions
  | addIncludePath _ => some .addIncludePath
  | addSysIncludePath _ => some .addSysIncludePath
  | addLibraryPath _ => some .addLibraryPath
  | addLibrary _ => some .addLibrary
  | defineSymbol _ _ => some .defineSymbol
  | undefineSymbol _ => some .undefineSymbol
  | compileString _ => some .compileString
  | addFile _ => some .addFile
  | injectFunction _ _ _ | injectData _ _ | injectRaw _ _ _ => some .addSymbol
  | relocate | relocationSize | relocateInto _ => some .relocate
  | getSymbol _ | resolveFunction _ _ _ | run _ => some .getSymbol
  | outputFile _ => some .outputFile
  | dispose => some .delete

/-- The strings and paths given to an operation: texts in UTF-8, paths as they are. -/
def texts : Operation → Texts
  | setErrorSink _ | clearErrorSink | setBeforeCompile _ | setOutputType _ | relocate
  | relocationSize | relocateInto _ | dispose => []
  | setLibPath path | addIncludePath path | addSysIncludePath path | addLibraryPath path
  | addFile path | outputFile path => [some path.bytes]
  | setOptions text | addLibrary text | undefineSymbol text | compileString text
  | injectFunction text _ _ | injectData text _ | injectRaw text _ _ | getSymbol text
  | resolveFunction _ _ text => [some (Text.Utf8.encode text)]
  | defineSymbol name value? => [some (Text.Utf8.encode name), value?.map Text.Utf8.encode]
  | run arguments => arguments.map fun argument => some (Text.Utf8.encode argument)

/-- The texts that the call of an operation's entry point is to carry. A program's arguments go to
the program; what is looked up for it is its entry point. -/
def carried : Operation → Texts
  | run _ => [some (Text.Utf8.encode "main")]
  | operation => operation.texts

/-- How an operation reports a NUL in what it was given. -/
def RefusesNul : Operation → BindError → Prop
  | injectFunction name _ _ | injectData name _ | injectRaw name _ _ =>
    fun e => e = .injection (.invalidName name)
  | _ => fun e => ∃ what reason, e = .invalidArgument what reason

end Operation

/-- Something that brings texts across the boundary. It fails in one way only; what it gives has the
texts in it, and there was no NUL in them. -/
structure Crosses {α : Type} (texts : Texts) (refuses : BindError → Prop) (x : Except BindError α)
    (carries : α → Prop) : Prop where
  of_error : ∀ e, x = .error e → refuses e
  of_ok : ∀ a, x = .ok a → ¬texts.HasNul ∧ carries a

namespace Crosses

variable {α β : Type} {texts more : Texts} {refuses : BindError → Prop} {x : Except BindError α}
  {P : α → Prop} {Q : β → Prop}

theorem pure {a : α} (h : P a) : Crosses [] refuses (.ok a) P := by
  refine ⟨nofun, ?_⟩
  rintro b ⟨⟩
  exact ⟨Texts.not_hasNul_nil, h⟩

theorem guarded {timely : Prop} {g : Except BindError Unit} (hg : Guards true g timely)
    (ht : timely) (hx : Crosses texts refuses x P) :
    Crosses texts refuses (g >>= fun _ => x) P := by
  rw [hg.1 ht]
  exact hx

theorem bind {f : α → Except BindError β} (hx : Crosses texts refuses x P)
    (hf : ∀ a, P a → Crosses more refuses (f a) Q) :
    Crosses (texts ++ more) refuses (x >>= f) Q := by
  cases x with
  | error e =>
    refine ⟨?_, nofun⟩
    rintro e' ⟨⟩
    exact hx.of_error e rfl
  | ok a =>
    obtain ⟨hfree, ha⟩ := hx.of_ok a rfl
    refine ⟨(hf a ha).of_error, fun b hb => ?_⟩
    obtain ⟨hmore, hQ⟩ := (hf a ha).of_ok b hb
    exact ⟨fun h => (Texts.hasNul_append.1 h).elim hfree hmore, hQ⟩

theorem map {f : α → β} (hx : Crosses texts refuses x P) (hf : ∀ a, P a → Q (f a)) :
    Crosses texts refuses (x >>= fun a => Pure.pure (f a)) Q := by
  have h := hx.bind fun a ha => pure (hf a ha)
  rwa [List.append_nil] at h

theorem fmap {f : α → β} (hx : Crosses texts refuses x P) (hf : ∀ a, P a → Q (f a)) :
    Crosses texts refuses (f <$> x) Q := by
  have h := hx.map hf
  cases x <;> exact h

theorem ofBytes (bytes : List UInt8) {e : BindError} (he : refuses e) :
    Crosses [some bytes] refuses
      (match CText.ofBytes? bytes with
        | some t => .ok t
        | none => .error e) fun t => t.bytes = bytes := by
  cases hbytes : CText.ofBytes? bytes with
  | none =>
    refine ⟨?_, nofun⟩
    rintro e' ⟨⟩
    exact he
  | some t =>
    refine ⟨nofun, ?_⟩
    rintro t' ⟨⟩
    have heq := CText.ofBytes?_eq_some_iff.1 hbytes
    exact ⟨fun h => t.no_nul (heq ▸ Texts.hasNul_singleton.1 h), heq.symm⟩

end Crosses

/-- The failure of all that is given as an argument. -/
def BindError.IsArgument (e : BindError) : Prop :=
  ∃ what reason, e = .invalidArgument what reason

theorem crosses_boundaryText (what value : String) :
    Crosses [some (Text.Utf8.encode value)] BindError.IsArgument (boundaryText what value)
      fun t => t.bytes = Text.Utf8.encode value :=
  .ofBytes _ ⟨_, _, rfl⟩

theorem crosses_boundaryPath (path : Path) :
    Crosses [some path.bytes] BindError.IsArgument (boundaryPath path)
      fun t => t.bytes = path.bytes :=
  .ofBytes _ ⟨_, _, rfl⟩

/-- A value that is not given crosses as none. -/
theorem crosses_value? (what : String) (value? : Option String) :
    Crosses [value?.map Text.Utf8.encode] BindError.IsArgument
      (value?.mapM (boundaryText what)) fun t? => t?.map CText.bytes = value?.map Text.Utf8.encode := by
  cases value? with
  | none =>
    refine ⟨nofun, ?_⟩
    rintro t? ⟨⟩
    exact ⟨by simp [Texts.HasNul], rfl⟩
  | some value => exact (crosses_boundaryText what value).fmap fun t ht => congrArg some ht

section Arguments

theorem crosses_boundaryArgumentsFrom (i : Nat) (arguments : List String) :
    Crosses (arguments.map fun a => some (Text.Utf8.encode a)) BindError.IsArgument
      (boundaryArgumentsFrom i arguments)
      fun ts => ts.map CText.bytes = arguments.map Text.Utf8.encode := by
  induction arguments generalizing i with
  | nil => exact .pure rfl
  | cons a arguments ih =>
    refine (crosses_boundaryText _ a).bind fun t ht => (ih (i + 1)).map fun ts hts => ?_
    simp [ht, hts]

/-- The first argument with a NUL is the one that is named. -/
theorem boundaryArgumentsFrom_nul {before : List String} {a : String} (i : Nat) (after : List String)
    (hbefore : ∀ b ∈ before, (0 : UInt8) ∉ Text.Utf8.encode b)
    (ha : (0 : UInt8) ∈ Text.Utf8.encode a) :
    boundaryArgumentsFrom i (before ++ a :: after) =
      .error (.invalidArgument ("argument " ++ toString (i + before.length)) Reason.interiorNul) := by
  induction before generalizing i with
  | nil =>
    have hnone : CText.ofString? a = none := CText.ofBytes?_eq_none_iff.2 ha
    rw [List.nil_append, boundaryArgumentsFrom, boundaryText, hnone]
    rfl
  | cons b before ih =>
    obtain ⟨t, ht⟩ := boundaryText_of_no_nul ("argument " ++ toString i)
      (hbefore b List.mem_cons_self)
    have hcount : i + (b :: before).length = i + 1 + before.length := by
      rw [List.length_cons]
      omega
    have hrest := ih (i + 1) fun b hb => hbefore b (List.mem_cons_of_mem _ hb)
    rw [List.cons_append, boundaryArgumentsFrom, ht, hcount]
    simp only [Bind.bind, Except.bind, hrest]

theorem crosses_boundaryArguments (arguments : List String) :
    Crosses (arguments.map fun a => some (Text.Utf8.encode a)) BindError.IsArgument
      (boundaryArguments arguments) fun ts => ts.map CText.bytes = arguments.map Text.Utf8.encode := by
  rw [← List.append_nil (arguments.map fun a => some (Text.Utf8.encode a))]
  refine (crosses_boundaryArgumentsFrom 0 arguments).bind fun ts hts => ?_
  split
  · refine ⟨?_, nofun⟩
    rintro e ⟨⟩
    exact ⟨_, _, rfl⟩
  · exact .pure hts

theorem boundaryArguments_of_no_nul {arguments : List String}
    (hcount : arguments.length ≤ maxArguments)
    (hfree : ∀ a ∈ arguments, (0 : UInt8) ∉ Text.Utf8.encode a) :
    ∃ ts, boundaryArguments arguments = .ok ts := by
  have hfrom : ∀ i, ∃ ts, boundaryArgumentsFrom i arguments = .ok ts := by
    clear hcount
    induction arguments with
    | nil => exact fun i => ⟨[], rfl⟩
    | cons a arguments ih =>
      intro i
      obtain ⟨t, ht⟩ := boundaryText_of_no_nul ("argument " ++ toString i)
        (hfree a List.mem_cons_self)
      obtain ⟨ts, hts⟩ := ih (fun a ha => hfree a (List.mem_cons_of_mem _ ha)) (i + 1)
      exact ⟨t :: ts, by rw [boundaryArgumentsFrom, ht]; simp only [Bind.bind, Except.bind, hts]; rfl⟩
  obtain ⟨ts, hts⟩ := hfrom 0
  have hbytes := ((crosses_boundaryArgumentsFrom 0 arguments).of_ok ts hts).2
  have hlength : ts.length = arguments.length := by simpa using congrArg List.length hbytes
  refine ⟨ts, ?_⟩
  rw [boundaryArguments, hts]
  exact if_neg (by omega)

end Arguments

namespace Operation

variable {c : Context}

/-- A task passes an operation's texts on if its request is to the operation's entry point and has
them. -/
def Passes (operation : Operation) (task : Task) : Prop :=
  task.request?.map (fun r => (r.entry, r.texts)) = operation.entry?.map (·, operation.carried)

private theorem passes_of_request {operation : Operation} {task : Task} (request : Request)
    (htask : task.request? = some request) (hentry : operation.entry? = some request.entry)
    (htexts : request.texts = operation.carried) : operation.Passes task := by
  simp [Passes, htask, hentry, htexts]

private theorem Passes.entry {operation : Operation} {task : Task} {request : Request}
    (h : operation.Passes task) (hrequest : task.request? = some request) :
    operation.entry? = some request.entry ∧ request.texts = operation.carried := by
  rw [Passes, hrequest, Option.map_some, eq_comm, Option.map_eq_some_iff] at h
  obtain ⟨entry, hentry, hpair⟩ := h
  obtain ⟨rfl, htexts⟩ := Prod.mk.inj hpair
  exact ⟨hentry, htexts.symm⟩

private theorem Passes.request {operation : Operation} {task : Task} {entry : Entry}
    (h : operation.Passes task) (hentry : operation.entry? = some entry) :
    ∃ request, task.request? = some request ∧ request.entry = entry ∧
      request.texts = operation.carried := by
  rw [Passes, hentry, Option.map_some, Option.map_eq_some_iff] at h
  obtain ⟨request, hrequest, hpair⟩ := h
  exact ⟨request, hrequest, Prod.mk.inj hpair⟩

private theorem sole {bytes bytes' : List UInt8} (h : bytes = bytes') :
    ([some bytes] : Texts) = [some bytes'] := by
  rw [h]

private theorem crosses_setting {operation : Operation} {name : String}
    {setting : Except BindError Setting} (ho : c.stage.isOpen)
    (hcarried : operation.carried = operation.texts)
    (hs : Crosses operation.texts BindError.IsArgument setting fun s =>
      operation.entry? = some s.entry ∧ s.texts = operation.texts) :
    Crosses operation.texts BindError.IsArgument (c.checkSetting name setting)
      operation.Passes := by
  refine .guarded Context.guards_ensureOpen ho (hs.map fun s h => ?_)
  exact passes_of_request (.configure s) rfl h.1 (h.2.trans hcarried.symm)

private theorem crosses_injection {operation : Operation} (symbol : InjectedSymbol)
    {x : Except BindError Task} (ho : c.stage.isOpen) (hx : x = injection symbol)
    (hentry : operation.entry? = some .addSymbol)
    (hcarried : operation.carried = [some (Text.Utf8.encode symbol.name)]) :
    Crosses [some (Text.Utf8.encode symbol.name)] (· = .injection (.invalidName symbol.name))
      (c.ensureInjectable symbol.name >>= fun _ => x) operation.Passes := by
  -- The name of an injected symbol is looked at before it crosses, so a NUL in it makes it an
  -- invalid name.
  have hlive : c.ensureLive "inject" = .ok () :=
    (Context.guards_ensureLive (b := true)).1 (Stage.live_of_isOpen ho)
  have hsealed : c.stage.isSealed = false := Stage.isSealed_eq_false_iff.2 (.inl ho)
  have hcheck : c.ensureInjectable symbol.name =
      if isSymbolName symbol.name then .ok ()
      else .error (.injection (.invalidName symbol.name)) := by
    rw [Context.ensureInjectable, hlive, hsealed]
    cases isSymbolName symbol.name <;> rfl
  rw [hcheck, hx]
  cases hname : isSymbolName symbol.name with
  | false =>
    refine ⟨?_, nofun⟩
    rintro e ⟨⟩
    rfl
  | true =>
    have hfree : (0 : UInt8) ∉ Text.Utf8.encode symbol.name := by
      rw [Text.Utf8.zero_mem_encode]
      simp only [isSymbolName, Bool.and_eq_true] at hname
      simpa using hname.2
    obtain ⟨t, ht⟩ := boundaryText_of_no_nul "symbol name" hfree
    have hbytes := CText.ofBytes?_eq_some_iff.1 (ofString?_of_boundaryText ht)
    have htask : injection symbol = .ok (.inject t symbol) := by rw [injection, ht]; rfl
    rw [if_pos rfl, htask]
    refine ⟨nofun, ?_⟩
    rintro task ⟨⟩
    refine ⟨fun h => hfree (Texts.hasNul_singleton.1 h), ?_⟩
    exact passes_of_request (.addSymbol t symbol.address) rfl hentry
      (hcarried ▸ sole hbytes.symm)

private theorem crosses_lookUp {operation : Operation} {name : String} (hr : c.stage.isRelocated)
    (hentry : operation.entry? = some .getSymbol)
    (hcarried : operation.carried = [some (Text.Utf8.encode name)]) :
    Crosses [some (Text.Utf8.encode name)] BindError.IsArgument (c.checkLookUp name)
      operation.Passes := by
  refine .guarded Context.guards_ensureLive (Stage.live_of_isRelocated hr) ?_
  refine .guarded Context.guards_ensure hr ((crosses_boundaryText _ name).map ?_)
  exact fun t ht => passes_of_request (.getSymbol t) rfl hentry (hcarried ▸ sole ht)

/-- An operation that comes in time fails its check for its arguments alone, and in one way. If it
passes, nothing it was given has a NUL, and its request has all that it was given. -/
theorem crosses {operation : Operation} (ht : operation.Timely c) :
    Crosses operation.texts operation.RefusesNul (operation.check c) operation.Passes := by
  cases operation with
  | setErrorSink | clearErrorSink | setBeforeCompile | dispose =>
    exact .guarded Context.guards_live ht (.pure rfl)
  | setLibPath path | addIncludePath path | addSysIncludePath path | addLibraryPath path =>
    exact crosses_setting ht rfl ((crosses_boundaryPath path).fmap fun t h => ⟨rfl, sole h⟩)
  | setOptions text | undefineSymbol text =>
    exact crosses_setting ht rfl ((crosses_boundaryText _ text).fmap fun t h => ⟨rfl, sole h⟩)
  | defineSymbol name value? =>
    refine crosses_setting ht rfl ((crosses_boundaryText _ name).bind fun t h => ?_)
    refine (crosses_value? _ value?).map fun t? h? => ⟨rfl, ?_⟩
    exact congrArg₂ (fun bytes bytes? => [some bytes, bytes?]) h h?
  | addLibrary text | compileString text =>
    refine .guarded Context.guards_ensureOpen ht ((crosses_boundaryText _ text).map ?_)
    exact fun t h => passes_of_request _ rfl rfl (sole h)
  | addFile path =>
    refine .guarded Context.guards_ensureOpen ht ((crosses_boundaryPath path).map ?_)
    exact fun t h => passes_of_request _ rfl rfl (sole h)
  | setOutputType type =>
    refine .guarded Context.guards_ensureOpen ht.1 ?_
    by_cases hfixed : c.typeFixed
    · rw [if_pos hfixed]
      exact .guarded Context.guards_ensure (decide_eq_true (ht.2 hfixed)) (.pure rfl)
    · rw [if_neg hfixed]
      exact .pure rfl
  | injectFunction name convention address =>
    have hcallable : c.ensureCallable name convention = .ok () := by
      simp [Context.ensureCallable, Convention.interchangeable, Convention.agreeOnHost]
    refine crosses_injection ⟨name, .function, address⟩ ht ?_ rfl rfl
    rw [hcallable]
    rfl
  | injectData name address =>
    exact crosses_injection ⟨name, .data, address⟩ ht rfl rfl rfl
  | injectRaw name kind address =>
    exact crosses_injection ⟨name, kind, address⟩ ht rfl rfl rfl
  | relocate | relocationSize | relocateInto =>
    exact .guarded Context.guards_ensureRelocatable ht (.pure rfl)
  | getSymbol name => exact crosses_lookUp ht rfl rfl
  | resolveFunction typeName size name =>
    by_cases hsize : size = pointerBits / 8
    · have hcheck : (resolveFunction typeName size name).check c = c.checkLookUp name := if_pos hsize
      rw [hcheck]
      exact crosses_lookUp (ht hsize) rfl rfl
    · have hcheck : (resolveFunction typeName size name).check c =
          .error (.invalidArgument ("type " ++ typeName) Reason.notPointerSized) := if_neg hsize
      rw [hcheck]
      refine ⟨?_, nofun⟩
      rintro e ⟨⟩
      exact ⟨_, _, rfl⟩
  | run arguments =>
    refine .guarded Context.guards_ensureLive (Stage.live_of_isRelocated ht.2) ?_
    refine .guarded Context.guards_ensure (decide_eq_true ht.1) ?_
    refine .guarded Context.guards_ensure ht.2 ?_
    have hmain : ContextAction.mainName.bytes = Text.Utf8.encode "main" := by decide
    refine (crosses_boundaryArguments arguments).map fun ts _ => ?_
    exact passes_of_request (.getSymbol ContextAction.mainName) rfl rfl (sole hmain)
  | outputFile path =>
    have hlive : c.stage ≠ .disposed := fun hd => by
      have hs := ht.2.2
      rw [hd] at hs
      exact hs.elim nofun nofun
    refine .guarded Context.guards_ensureLive hlive ?_
    refine .guarded Context.guards_ensure (by simpa using ht.1) ?_
    refine .guarded Context.guards_ensure ht.2.1 ?_
    refine .guarded Context.guards_ensure (decide_eq_true ht.2.2) ?_
    exact (crosses_boundaryPath path).map fun t h => passes_of_request _ rfl rfl (sole h)

end Operation

section Deeds

variable {c c' : Context} {ds : List Deed} {r : Except BindError Value} {request : Request}
  {answer : Answer}

private theorem Context.FixesType.called (hf : c.FixesType ds c')
    (h : .called request answer ∈ ds) : request = .setOutputType c.outputType.code := by
  cases hf with
  | known => exact absurd h List.not_mem_nil
  | sent =>
    cases List.mem_singleton.1 h
    rfl

private theorem called_not_hook (h : .called request answer ∈ c.hookDeeds) : False := by
  simp [Context.hookDeeds] at h

namespace Task

variable {task : Task}

/-- A task makes its own request, after the output type has been told if it must be, and no other. -/
theorem Does.called (hd : task.Does c ds r c') (h : .called request answer ∈ ds) :
    request = .setOutputType c.outputType.code ∨ task.request? = some request := by
  cases hd with
  | sinkInstalled | hookInstalled | typeChosen | typeKept => exact absurd h List.not_mem_nil
  | typeRefused =>
    cases List.mem_singleton.1 h
    exact .inl rfl
  | libraryAdded hf | libraryRefused hf =>
    rcases List.mem_append.1 h with h | h
    · exact .inl (hf.called h)
    · cases List.mem_singleton.1 h
      exact .inr rfl
  | compiled hf | compileFailed hf =>
    rcases List.mem_append.1 h with h | h
    · exact .inl (hf.called h)
    · rcases List.mem_append.1 h with h | h
      · exact (called_not_hook h).elim
      · cases List.mem_singleton.1 h
        exact .inr rfl
  | ran =>
    rcases List.mem_pair.1 h with h | h
    · cases h
      exact .inr rfl
    · exact nomatch h
  | _ =>
    cases List.mem_singleton.1 h
    exact .inr rfl

/-- A task that succeeds has made its request. -/
theorem Does.requested {value : Value} (hd : task.Does c ds (.ok value) c')
    (h : task.request? = some request) : ∃ answer, .called request answer ∈ ds := by
  cases hd with
  | sinkInstalled | hookInstalled | typeChosen | typeKept => exact nomatch h
  | configured answer | libraryAdded _ answer | compiled _ answer | injected answer | sized answer
  | relocated _ answer | lookedUp answer | ran answer | emitted answer | disposed answer =>
    cases h
    exact ⟨answer, by simp⟩

/-- A program is looked up first, and entered if there is one. -/
theorem Does.looksUp {arguments : List CText} (hd : (run arguments).Does c ds r c') :
    ∃ answer, .called (.getSymbol ContextAction.mainName) answer ∈ ds ∧
      ∀ main, answer.address.nonNull? = some main →
        .entered main (.program arguments) ∈ ds := by
  cases hd with
  | typeRefused _ ht => exact Bool.noConfusion ht
  | ran answer hm =>
    refine ⟨answer, by simp, fun main hmain => ?_⟩
    cases hm.symm.trans hmain
    simp
  | noMain answer hm =>
    exact ⟨answer, by simp, fun main hmain => nomatch hm.symm.trans hmain⟩

end Task

end Deeds

/-- A vector from which a program reads arguments as they were given: as many as are counted, byte
for byte, and after the last a null pointer. -/
structure ArgumentVector.Holds (v : ArgumentVector) (arguments : List String) : Prop where
  count : v.count.toInt = (arguments.length : Int)
  pointers : v.pointers.map (·.map CText.bytes) =
    arguments.map (fun a => some (Text.Utf8.encode a)) ++ [none]

/-- The count does not overflow where the arguments may cross at all. -/
theorem ArgumentVector.holds_ofTexts {texts : List CText} {arguments : List String}
    (h : texts.map CText.bytes = arguments.map Text.Utf8.encode)
    (hcount : arguments.length ≤ maxArguments) : (ofTexts texts).Holds arguments := by
  have hlength : texts.length = arguments.length := by simpa using congrArg List.length h
  constructor
  · have hpointers : (ofTexts texts).pointers.length - 1 = arguments.length := by
      simp [ofTexts, hlength]
    rw [count, hpointers, Int32.toInt_ofNat_of_lt (by unfold maxArguments at hcount; omega)]
  · have hsome := congrArg (List.map some) h
    simp only [List.map_map] at hsome
    simp only [ofTexts, List.map_append, List.map_map]
    exact congrArg (· ++ [none]) hsome

variable {σ : Type} (compiler : Compiler σ)

namespace Operation

variable {c : Context} {operation : Operation}

/-- A NUL keeps an operation from reaching anything. -/
theorem perform_nul (ht : operation.Timely c) (hnul : operation.texts.HasNul) (w : World σ) :
    ∃ e, operation.perform compiler ⟨c, w⟩ = ⟨.error e, ⟨c, w⟩, []⟩ ∧ operation.RefusesNul e := by
  have hcrosses := operation.crosses ht
  cases hcheck : operation.check c with
  | error e =>
    exact ⟨e, operation.perform_of_check_error compiler (s := ⟨c, w⟩) hcheck,
      hcrosses.of_error e hcheck⟩
  | ok task => exact absurd hnul (hcrosses.of_ok task hcheck).1

private theorem meets_task (hc : c.Coherent) {task : Task} (hcheck : operation.check c = .ok task)
    (w : World σ) : (operation.perform compiler ⟨c, w⟩).Meets c.number w (task.Does c) := by
  have hl := ((operation.checks c).of_ok task hcheck).2.live
  rw [operation.perform_of_check compiler (s := ⟨c, w⟩) hcheck]
  exact task.yields_perform compiler (hc.handle_of_live hl) w

/-- What an operation calls it calls on its own state: its entry point with what it was given, or the
one that is told the output type. -/
theorem perform_called (hc : c.Coherent) (ht : operation.Timely c) (w : World σ)
    {state? : Option Handle} {request : Request} {answer : Answer}
    (h : .called state? request answer ∈ (operation.perform compiler ⟨c, w⟩).events) :
    state? = some c.number ∧
      (request = .setOutputType c.outputType.code ∨
        operation.entry? = some request.entry ∧ request.texts = operation.carried) := by
  cases hcheck : operation.check c with
  | error e =>
    rw [operation.perform_of_check_error compiler (s := ⟨c, w⟩) hcheck] at h
    exact absurd h List.not_mem_nil
  | ok task =>
    have ho := meets_task compiler hc hcheck w
    have hstate : state? = some c.number := ho.keeps _ h
    have hpasses := ((operation.crosses ht).of_ok task hcheck).2
    exact ⟨hstate, (ho.post.called (called_mem_deeds.2 (hstate ▸ h))).imp_right hpasses.entry⟩

/-- An operation that succeeds has called its entry point, with what it was given. -/
theorem perform_calls (hc : c.Coherent) (ht : operation.Timely c) (w : World σ) {value : Value}
    (hv : (operation.perform compiler ⟨c, w⟩).result = .ok value) {entry : Entry}
    (hentry : operation.entry? = some entry) :
    ∃ request answer,
      .called (some c.number) request answer ∈ (operation.perform compiler ⟨c, w⟩).events ∧
        request.entry = entry ∧ request.texts = operation.carried := by
  cases hcheck : operation.check c with
  | error e =>
    rw [operation.perform_of_check_error compiler (s := ⟨c, w⟩) hcheck] at hv
    exact nomatch hv
  | ok task =>
    have ho := meets_task compiler hc hcheck w
    have hpasses := ((operation.crosses ht).of_ok task hcheck).2
    obtain ⟨request, hrequest, hcarried⟩ := hpasses.request hentry
    have hd := ho.post
    rw [hv] at hd
    obtain ⟨answer, hcalled⟩ := hd.requested hrequest
    exact ⟨request, answer, called_mem_deeds.1 hcalled, hcarried⟩

private theorem check_run {arguments : List String} (ht : (run arguments).Timely c) :
    (run arguments).check c = boundaryArguments arguments >>= fun ts => pure (.run ts) := by
  have hlive : c.ensureLive "run" = .ok () :=
    (Context.guards_ensureLive (b := true)).1 (Stage.live_of_isRelocated ht.2)
  have hmemory : decide (c.outputType = .memory) = true := decide_eq_true ht.1
  have hstage : c.stage.isRelocated = true := ht.2
  rw [check, hlive, hmemory, hstage]
  rfl

/-- The first argument with a NUL is the one that a run reports, before it looks anything up. -/
theorem perform_run_nul {before after : List String} {a : String}
    (ht : (run (before ++ a :: after)).Timely c)
    (hbefore : ∀ b ∈ before, (0 : UInt8) ∉ Text.Utf8.encode b)
    (ha : (0 : UInt8) ∈ Text.Utf8.encode a) (w : World σ) :
    (run (before ++ a :: after)).perform compiler ⟨c, w⟩ =
      ⟨.error (.invalidArgument ("argument " ++ toString before.length) Reason.interiorNul),
        ⟨c, w⟩, []⟩ := by
  apply perform_of_check_error compiler (s := ⟨c, w⟩)
  have hfrom := boundaryArgumentsFrom_nul 0 after hbefore ha
  rw [Nat.zero_add] at hfrom
  rw [check_run ht, boundaryArguments, hfrom]
  rfl

/-- A program that is found gets all of its arguments. -/
theorem perform_run_vector (hc : c.Coherent) {arguments : List String}
    (ht : (run arguments).Timely c) (hcount : arguments.length ≤ maxArguments)
    (hfree : ∀ a ∈ arguments, (0 : UInt8) ∉ Text.Utf8.encode a) (w : World σ) :
    let o := (run arguments).perform compiler ⟨c, w⟩
    ∃ answer, .called (some c.number) (.getSymbol ContextAction.mainName) answer ∈ o.events ∧
      ∀ main, answer.address.nonNull? = some main →
        ∃ entered v, .entered (some c.number) main entered ∈ o.events ∧
          entered.vector? = some v ∧ v.Holds arguments := by
  intro o
  obtain ⟨ts, hts⟩ := boundaryArguments_of_no_nul hcount hfree
  have hbytes := ((crosses_boundaryArguments arguments).of_ok ts hts).2
  have hcheck : (run arguments).check c = .ok (.run ts) := by rw [check_run ht, hts]; rfl
  obtain ⟨answer, hcalled, hentered⟩ := (meets_task compiler hc hcheck w).post.looksUp
  refine ⟨answer, called_mem_deeds.1 hcalled, fun main hmain => ?_⟩
  exact ⟨.program ts, .ofTexts ts, entered_mem_deeds.1 (hentered main hmain), rfl,
    ArgumentVector.holds_ofTexts hbytes hcount⟩

end Operation

namespace Session

/-- No text is cut short or altered on its way across. An operation that comes in time and was given
a NUL fails and reaches nothing. Any other calls its entry point with the bytes it was given, on its
own state, and nothing beside but to tell the output type. A run reports the first argument with a
NUL before it looks anything up; else a program that is found gets its arguments in order, their
number, and a null pointer after them. -/
theorem texts_cross_unaltered (toolchain : Toolchain) (w : World σ) (moves : List Move) (i : Nat)
    (c : Context) (operation : Operation) :
    let s := (play compiler ⟨toolchain, w, []⟩ moves).1
    s.context? i = some c → operation.Timely c →
      let o := operation.perform compiler ⟨c, s.world⟩
      (operation.texts.HasNul →
        ∃ e, o = ⟨.error e, ⟨c, s.world⟩, []⟩ ∧ operation.RefusesNul e) ∧
      (∀ state? request answer, .called state? request answer ∈ o.events →
        state? = some c.number ∧
          (request = .setOutputType c.outputType.code ∨
            operation.entry? = some request.entry ∧ request.texts = operation.carried)) ∧
      (∀ value entry, o.result = .ok value → operation.entry? = some entry →
        ∃ request answer, .called (some c.number) request answer ∈ o.events ∧
          request.entry = entry ∧ request.texts = operation.carried) ∧
      ∀ arguments, operation = .run arguments → arguments.length ≤ maxArguments →
        (∀ before a after, arguments = before ++ a :: after →
          (∀ b ∈ before, (0 : UInt8) ∉ Text.Utf8.encode b) → (0 : UInt8) ∈ Text.Utf8.encode a →
          o = ⟨.error (.invalidArgument ("argument " ++ toString before.length)
            Reason.interiorNul), ⟨c, s.world⟩, []⟩) ∧
        ((∀ a ∈ arguments, (0 : UInt8) ∉ Text.Utf8.encode a) →
          ∃ answer, .called (some c.number) (.getSymbol ContextAction.mainName) answer ∈ o.events ∧
            ∀ main, answer.address.nonNull? = some main →
              ∃ entered v, .entered (some c.number) main entered ∈ o.events ∧
                entered.vector? = some v ∧ v.Holds arguments) := by
  intro s hi ht o
  have hc : c.Coherent := (law_tracks.play compiler toolchain w moves).coherent i c hi
  refine ⟨fun hnul => operation.perform_nul compiler ht hnul s.world,
    fun state? request answer h => operation.perform_called compiler hc ht s.world h,
    fun value entry hv hentry => operation.perform_calls compiler hc ht s.world hv hentry, ?_⟩
  rintro arguments rfl hcount
  refine ⟨?_, fun hfree => Operation.perform_run_vector compiler hc ht hcount hfree s.world⟩
  rintro before a after rfl hbefore ha
  exact Operation.perform_run_nul compiler ht hbefore ha s.world

/-- An empty argument is an argument; one with a NUL in it is named by its place. -/
theorem arguments_reach_program :
    let compiler : Compiler Unit :=
      { Compiler.agreeable with call := fun _ _ _ => ({ address := .word 1 }, [], ()) }
    let toolchain : Toolchain := ⟨⟨.wide, ⟨[]⟩⟩, ⟨⟨[]⟩⟩, {}⟩
    let s := (play compiler ⟨toolchain, ⟨(), []⟩, []⟩
      [.openContext true, .perform 0 (.compileString "int x;"), .perform 0 .relocate]).1
    let c : Context := { Context.fresh toolchain.table 0 with
      stage := .relocated
      typeFixed := true
      relocateAttempted := true }
    let run (arguments : List String) := (Operation.run arguments).perform compiler ⟨c, s.world⟩
    s.context? 0 = some c ∧
      (∃ entered v, .entered (some 0) (.word 1) entered ∈ (run ["a", ""]).events ∧
        entered.vector? = some v ∧ v.Holds ["a", ""]) ∧
      (run ["a", "b\x00c", "\x00"]).result =
        .error (.invalidArgument "argument 1" Reason.interiorNul) := by
  intro compiler toolchain s c run
  have hc : s.context? 0 = some c := by decide +kernel
  have hcross (arguments : List String) := texts_cross_unaltered compiler toolchain ⟨(), []⟩
    [.openContext true, .perform 0 (.compileString "int x;"), .perform 0 .relocate] 0 c
    (.run arguments) hc ⟨rfl, rfl⟩
  refine ⟨hc, ?_, ?_⟩
  · obtain ⟨-, -, -, hrun⟩ := hcross ["a", ""]
    obtain ⟨answer, hcalled, hentered⟩ := (hrun ["a", ""] rfl (by decide)).2 (by decide)
    have hdeeds : deeds 0 (run ["a", ""]).events =
        [.called (.getSymbol ContextAction.mainName) { address := .word 1 },
          .entered (.word 1) (.program (["a", ""].filterMap CText.ofString?))] := by
      decide +kernel
    have hcall : Deed.called (.getSymbol ContextAction.mainName) answer ∈
        deeds 0 (run ["a", ""]).events := called_mem_deeds.2 hcalled
    obtain rfl : answer = { address := .word 1 } := by simpa [hdeeds] using hcall
    exact hentered (.word 1) rfl
  · obtain ⟨-, -, -, hrun⟩ := hcross ["a", "b\x00c", "\x00"]
    have hnul := (hrun _ rfl (by decide)).1 ["a"] "b\x00c" ["\x00"] rfl (by decide) (by decide)
    exact congrArg Outcome.result hnul

end Session

end EmbeddedC
