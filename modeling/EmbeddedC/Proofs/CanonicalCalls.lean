import EmbeddedC.Proofs.OperationSequence
import EmbeddedC.Proofs.TypeAgreement
/-!
# The canonical sequence of a job

Each job has one sequence of calls in mind. Whatever context it starts from, it makes the calls of
that sequence one after the other, up to the first that is not granted or cannot be made at all; how
far it has got decides its result and the stage it leaves behind.
-/

namespace EmbeddedC

/-- Whether an answer grants what a job asks for: a symbol is found, any other status is not
negative. -/
def Request.grantedBy (answer : Answer) : Request → Bool
  | getSymbol _ => answer.address.nonNull?.isSome
  | _ => 0 ≤ answer.status

def Deed.entry? : Deed → Option (Address × Arguments)
  | entered address arguments => some (address, arguments)
  | _ => none

/-- A stretch of the sequence, with what was done on the way and how it ended. What cannot be asked
for, since its text does not cross the boundary, stands as `none`. -/
structure Leg (requests : List (Option Request)) (ds : List Deed) (r : Except BindError Value) :
    Prop where
  asked : (ds.filterMap Deed.request?).map some <+: requests
  ok_iff : r.isOk ↔ (ds.filterMap Deed.request?).map some = requests ∧
    ∀ request answer, .called request answer ∈ ds → request.grantedBy answer

namespace Leg

variable {requests more : List (Option Request)} {ds ds' : List Deed} {e : BindError}
  {value : Value} {r : Except BindError Value}

/-- What asks for nothing is part of any way that succeeds. -/
theorem idle (hds : ∀ d ∈ ds, d.isCall = false) (value : Value) : Leg [] ds (.ok value) := by
  have hnone : ds.filterMap Deed.request? = [] := by
    rw [List.filterMap_eq_nil_iff]
    intro d hd
    have := hds d hd
    cases d <;> first | rfl | exact Bool.noConfusion this
  constructor
  · simp [hnone]
  · simp only [hnone, List.map_nil, true_and]
    refine iff_of_true rfl fun request answer hd => ?_
    exact Bool.noConfusion (hds _ hd)

theorem stop (hr : requests ≠ []) (e : BindError) : Leg requests [] (.error e) := by
  constructor
  · simp
  · refine iff_of_false Bool.noConfusion ?_
    rintro ⟨hnil, _⟩
    exact hr hnil.symm

theorem one {request : Request} {answer : Answer} (hr : r.isOk = request.grantedBy answer) :
    Leg [some request] [.called request answer] r := by
  constructor
  · simp [Deed.request?]
  · simp [Deed.request?, hr]

theorem append (h : Leg requests ds (.ok value)) (h' : Leg more ds' r) :
    Leg (requests ++ more) (ds ++ ds') r := by
  obtain ⟨hall, hgranted⟩ := h.ok_iff.1 rfl
  constructor
  · rw [List.filterMap_append, List.map_append, hall]
    exact List.prefix_append_right_inj _ |>.2 h'.asked
  · rw [h'.ok_iff, List.filterMap_append, List.map_append, hall, List.append_cancel_left_eq]
    simp only [List.mem_append, or_imp, forall_and]
    exact ⟨fun ⟨hrest, hg⟩ => ⟨hrest, hgranted, hg⟩, fun ⟨hrest, _, hg⟩ => ⟨hrest, hg⟩⟩

/-- Nothing more is asked for once something was not granted. -/
theorem append_error (h : Leg requests ds (.error e)) (more : List (Option Request)) :
    Leg (requests ++ more) ds (.error e) := by
  constructor
  · exact h.asked.trans (List.prefix_append _ _)
  · refine iff_of_false Bool.noConfusion ?_
    rintro ⟨hall, hgranted⟩
    have hnil : requests ++ more <+: requests := hall ▸ h.asked
    have hmore : more = [] := by
      have hlength := hnil.length_le
      rw [List.length_append] at hlength
      exact List.length_eq_zero_iff.1 (by omega)
    rw [hmore, List.append_nil] at hall
    exact Bool.noConfusion (h.ok_iff.2 ⟨hall, hgranted⟩)

end Leg

namespace Job

/-- The calls that a job has in mind, for a compiler that has been told the output type or not. -/
def canonical (told : Bool) (job : Job) : List (Option Request) :=
  (if told then [] else [some (.setOutputType job.outputType.code)]) ++
    match job with
    | compileSourceTo source _ destination =>
      [(CText.ofString? source).map fun t => .compile (.text t),
        (CText.ofBytes? destination.bytes).map .outputFile]
    | compileFileTo path _ destination =>
      [(CText.ofBytes? path.bytes).map fun t => .compile (.file t),
        (CText.ofBytes? destination.bytes).map .outputFile]
    | runFile path _ =>
      [(CText.ofBytes? path.bytes).map fun t => .compile (.file t), some (.relocate .auto),
        some (.getSymbol ContextAction.mainName)]

/-- The stage that a job ends in if all goes well. -/
def finish : Job → Stage
  | compileSourceTo _ _ _ | compileFileTo _ _ _ => .finalized .emitted
  | runFile _ _ => .finalized .ran

/-- What a row of operations that would end in a certain stage has made of the stage before. -/
structure Leaves (finish before : Stage) (ds : List Deed) (r : Except BindError Value)
    (after : Stage) : Prop where
  finished : r.isOk → after = finish
  placed : r.isOk = false → ds.any Deed.relocates → after = .relocated
  compiled : r.isOk = false → ds.any Deed.relocates = false → ds.any Deed.compiles →
    after = .compiled
  kept : r.isOk = false → ds.any Deed.relocates = false → ds.any Deed.compiles = false →
    after = before ∨ before = .created ∧ after = .configured

/-- What running a program has entered: the program, with its arguments and at the address that was
found for it, or nothing if that did not succeed. -/
def EntersProgram (arguments : List String) (ds : List Deed) (r : Except BindError Value) : Prop :=
  if r.isOk then ∃ answer main argv,
    ds.filterMap Deed.entry? = [(main, .program argv)] ∧
      argv.map CText.bytes = arguments.map Text.Utf8.encode ∧
      .called (.getSymbol ContextAction.mainName) answer ∈ ds ∧
      answer.address.nonNull? = some main
  else ds.filterMap Deed.entry? = []

/-- What a job has entered. -/
def Enters (ds : List Deed) (r : Except BindError Value) : Job → Prop
  | compileSourceTo _ _ _ | compileFileTo _ _ _ => ds.filterMap Deed.entry? = []
  | runFile _ arguments => EntersProgram arguments ds r

end Job

section Boundary

theorem ofString?_of_boundaryText {what value : String} {t : CText}
    (h : boundaryText what value = .ok t) : CText.ofString? value = some t := by
  unfold boundaryText at h
  split at h
  · next t' ht =>
    cases h
    exact ht
  · exact nomatch h

theorem ofBytes?_of_boundaryPath {path : Path} {t : CText} (h : boundaryPath path = .ok t) :
    CText.ofBytes? path.bytes = some t := by
  unfold boundaryPath at h
  split at h
  · next t' ht =>
    cases h
    exact ht
  · exact nomatch h

/-- Arguments cross the boundary byte for byte. -/
theorem bytes_of_boundaryArguments {arguments : List String} {argv : List CText}
    (h : boundaryArguments arguments = .ok argv) :
    argv.map CText.bytes = arguments.map Text.Utf8.encode := by
  have hfrom : ∀ (as : List String) i ts, boundaryArgumentsFrom i as = .ok ts →
      ts.map CText.bytes = as.map Text.Utf8.encode := by
    intro as
    induction as with
    | nil =>
      rintro i ts ⟨⟩
      rfl
    | cons a as ih =>
      intro i ts hts
      rw [boundaryArgumentsFrom] at hts
      cases ha : boundaryText ("argument " ++ toString i) a with
      | error e =>
        rw [ha] at hts
        exact nomatch hts
      | ok t =>
        rw [ha] at hts
        cases has : boundaryArgumentsFrom (i + 1) as with
        | error e =>
          simp [has, Bind.bind, Except.bind] at hts
        | ok rest =>
          simp [has, Bind.bind, Except.bind, Pure.pure, Except.pure] at hts
          subst hts
          have hbytes := CText.ofBytes?_eq_some_iff.1 (ofString?_of_boundaryText ha)
          rw [List.map_cons, List.map_cons, ih _ _ has, hbytes]
  unfold boundaryArguments at h
  cases hb : boundaryArgumentsFrom 0 arguments with
  | error e =>
    rw [hb] at h
    exact nomatch h
  | ok ts =>
    rw [hb] at h
    simp only [Bind.bind, Except.bind] at h
    split at h
    · exact nomatch h
    · cases h
      exact hfrom _ _ _ hb

end Boundary

section Steps

variable {c c' : Context} {operation : Operation} {ds : List Deed} {r : Except BindError Value}

/-- What a context has yet to tell the compiler of its type. -/
def Context.telling (c : Context) : List (Option Request) :=
  if c.typeFixed then [] else [some (.setOutputType c.outputType.code)]

theorem Context.FixesType.leg (hf : c.FixesType ds c') (value : Value) :
    Leg c.telling ds (.ok value) := by
  cases hf with
  | known hc =>
    rw [telling, if_pos hc]
    exact .idle (by simp) value
  | sent answer hc ha =>
    rw [telling, hc]
    exact .one (decide_eq_true ha).symm

attribute [local simp] Deed.relocates Deed.compiles Deed.entry?

/-- On the way to the compiler, under the hook, only the type is asked for. -/
theorem Context.FixesType.prelude (hf : c.FixesType ds c') (value : Value) :
    let ps := ds ++ c'.hookDeeds
    Leg c.telling ps (.ok value) ∧ ps.filterMap Deed.entry? = [] ∧
      ps.any Deed.relocates = false ∧ ps.any Deed.compiles = false := by
  intro ps
  have hhook : Leg [] c'.hookDeeds (.ok value) := by
    apply Leg.idle
    unfold hookDeeds
    cases c'.hook? <;> simp [Deed.isCall]
  refine ⟨List.append_nil c.telling ▸ (hf.leg value).append hhook, ?_⟩
  simp only [ps, hookDeeds]
  cases hf <;> cases c.hook? <;> simp

/-- What one operation of a job makes of a context: its stretch of the sequence, whether code has
been placed and a unit compiled by it, and the stage that it leaves if it succeeds. -/
structure Stride (c : Context) (requests : List (Option Request)) (ds : List Deed)
    (r : Except BindError Value) (c' : Context) (places compiles : Bool) (next : Stage) :
    Prop where
  leg : Leg requests ds r
  placed : ds.any Deed.relocates = places
  compiled : ds.any Deed.compiles = compiles
  stage : c'.stage = if r.isOk then next else c.stage

theorem Stride.refused {requests : List (Option Request)} (hr : requests ≠ []) (c : Context)
    (e : BindError) (next : Stage) : Stride c requests [] (.error e) c false false next :=
  ⟨.stop hr e, rfl, rfl, rfl⟩

namespace Operation.Does

/-- Choosing a type asks for nothing. -/
theorem chooses {type : OutputType} (hd : (setOutputType type).Does c ds r c') :
    ds = [] ∧ c'.typeFixed = c.typeFixed ∧
      (c'.stage = c.stage ∨ c.stage = .created ∧ c'.stage = .configured) ∧
      (r.isOk → c'.outputType = type) := by
  cases hd with
  | refused => exact ⟨rfl, rfl, .inl rfl, fun h => Bool.noConfusion h⟩
  | performed hc hd =>
    obtain ⟨_, rfl | ⟨rfl, htype⟩⟩ := check_setOutputType hc
    · cases hd with
      | typeChosen =>
        exact ⟨rfl, by simp, Context.configured_stage { c with outputType := type }, by simp⟩
      | typeRefused _ ht => exact Bool.noConfusion ht
    · cases hd with
      | typeKept => exact ⟨rfl, rfl, .inl rfl, fun _ => htype⟩
      | typeRefused _ ht => exact Bool.noConfusion ht

/-- Compiling a unit asks for the type to be told first. -/
theorem compiles {unit? : Option SourceUnit}
    (hunit : ∀ task, operation.check c = .ok task →
      ∃ unit, unit? = some unit ∧ task = .compile unit)
    (hd : operation.Does c ds r c') :
    Stride c (c.telling ++ [unit?.map .compile]) ds r c' false r.isOk .compiled ∧
      ds.filterMap Deed.entry? = [] := by
  cases hd with
  | refused => exact ⟨.refused (by simp) c _ _, rfl⟩
  | performed hc hd =>
    obtain ⟨unit, rfl, rfl⟩ := hunit _ hc
    cases hd with
    | typeRefused answer _ ht ha =>
      have hleg : Leg c.telling [.called (.setOutputType c.outputType.code) answer]
          (.error (.rejected Entry.setOutputType.name c.outputType.text answer.status)) := by
        rw [Context.telling, ht]
        exact .one (decide_eq_false (Int32.not_le.2 ha)).symm
      exact ⟨⟨hleg.append_error _, rfl, rfl, rfl⟩, rfl⟩
    | @compiled _ ds c' hf answer ha =>
      have hcall : Leg [some (.compile unit)] [.called (.compile unit) answer] (.ok .none) :=
        .one (decide_eq_true ha).symm
      obtain ⟨hleg, hentry, hplaced, hcompiled⟩ := hf.prelude .none
      rw [← List.append_assoc]
      refine ⟨⟨hleg.append hcall, ?_, ?_, rfl⟩, ?_⟩
      · rw [List.any_append, hplaced]
        rfl
      · rw [List.any_append, hcompiled]
        simp [ha, Except.isOk, Except.toBool]
      · rw [List.filterMap_append, hentry]
        rfl
    | @compileFailed _ ds c' hf answer ha =>
      have hcall : Leg [some (.compile unit)] [.called (.compile unit) answer]
          (.error (.compile unit.name answer.status)) :=
        .one (decide_eq_false (Int32.not_le.2 ha)).symm
      obtain ⟨hleg, hentry, hplaced, hcompiled⟩ := hf.prelude .none
      rw [← List.append_assoc]
      refine ⟨⟨hleg.append hcall, ?_, ?_, ?_⟩, ?_⟩
      · rw [List.any_append, hplaced]
        rfl
      · rw [List.any_append, hcompiled]
        simp [Int32.not_le.2 ha, Except.isOk, Except.toBool]
      · cases hf <;> rfl
      · rw [List.filterMap_append, hentry]
        rfl

theorem writes {destination : Path} (hd : (outputFile destination).Does c ds r c') :
    Stride c [(CText.ofBytes? destination.bytes).map .outputFile] ds r c' false false
        (.finalized .emitted) ∧
      ds.filterMap Deed.entry? = [] := by
  cases hd with
  | refused => exact ⟨.refused (by simp) c _ _, rfl⟩
  | performed hc hd =>
    obtain ⟨t, ht, rfl⟩ := bind_pure_eq_ok
      (eq_ok_of_bind (eq_ok_of_bind (eq_ok_of_bind (eq_ok_of_bind hc))))
    rw [ofBytes?_of_boundaryPath ht]
    cases hd with
    | emitted answer ha => exact ⟨⟨.one (decide_eq_true ha).symm, rfl, rfl, rfl⟩, rfl⟩
    | emissionFailed answer ha =>
      exact ⟨⟨.one (decide_eq_false (Int32.not_le.2 ha)).symm, rfl, rfl, rfl⟩, rfl⟩
    | typeRefused _ hn => exact Bool.noConfusion hn

theorem places (hd : relocate.Does c ds r c') :
    Stride c [some (.relocate .auto)] ds r c' r.isOk false .relocated ∧
      ds.filterMap Deed.entry? = [] := by
  cases hd with
  | refused => exact ⟨.refused (by simp) c _ _, rfl⟩
  | performed hc hd =>
    cases eq_ok_of_bind hc
    cases hd with
    | relocated ht answer ha =>
      refine ⟨⟨.one (decide_eq_true ha).symm, ?_, rfl, rfl⟩, rfl⟩
      simp [ha, Except.isOk, Except.toBool]
    | relocationFailed answer ha =>
      refine ⟨⟨.one (decide_eq_false (Int32.not_le.2 ha)).symm, ?_, rfl, rfl⟩, rfl⟩
      simp [Int32.not_le.2 ha, Except.isOk, Except.toBool]
    | typeRefused _ hn => exact Bool.noConfusion hn

theorem enters {arguments : List String} (hd : (run arguments).Does c ds r c') :
    Stride c [some (.getSymbol ContextAction.mainName)] ds r c' false false (.finalized .ran) ∧
      Job.EntersProgram arguments ds r := by
  cases hd with
  | refused => exact ⟨.refused (by simp) c _ _, rfl⟩
  | performed hc hd =>
    obtain ⟨argv, hargv, rfl⟩ := bind_pure_eq_ok (eq_ok_of_bind (eq_ok_of_bind (eq_ok_of_bind hc)))
    cases hd with
    | @ran _ answer main hm status =>
      have hleg : Leg [some (.getSymbol ContextAction.mainName)]
          [.called (.getSymbol ContextAction.mainName) answer] (.ok (.status status)) :=
        .one (by rw [Request.grantedBy, hm]; rfl)
      have hentered : Leg [] [.entered main (.program argv)] (.ok (.status status)) :=
        .idle (by simp [Deed.isCall]) _
      refine ⟨⟨hleg.append hentered, rfl, rfl, rfl⟩, ?_⟩
      exact ⟨answer, main, argv, rfl, bytes_of_boundaryArguments hargv, by simp, hm⟩
    | noMain answer hm =>
      exact ⟨⟨.one (by rw [Request.grantedBy, hm]; rfl), rfl, rfl, rfl⟩, rfl⟩
    | typeRefused _ hn => exact Bool.noConfusion hn

end Operation.Does

end Steps

namespace Job

section Rows

variable {c c' : Context} {operation : Operation} {unit? : Option SourceUnit} {ds : List Deed}
  {r : Except BindError Value}

private theorem leaves_of_failed {finish : Stage} {e : BindError}
    (hplaced : ds.any Deed.relocates = false) (hcompiled : ds.any Deed.compiles = false) :
    Leaves finish c.stage ds (.error e) c.stage where
  finished := fun h => Bool.noConfusion h
  placed := by simp [hplaced]
  compiled := by simp [hcompiled]
  kept := fun _ _ _ => .inl rfl

private theorem Leaves.of_configured {finish between before after : Stage}
    (h : Leaves finish between ds r after)
    (hb : between = before ∨ before = .created ∧ between = .configured) :
    Leaves finish before ds r after := by
  refine { h with kept := fun hr hplaced hcompiled => ?_ }
  rcases hb with rfl | ⟨rfl, rfl⟩
  · exact h.kept hr hplaced hcompiled
  · rcases h.kept hr hplaced hcompiled with rfl | ⟨hcreated, _⟩
    · exact .inr ⟨rfl, rfl⟩
    · exact nomatch hcreated

private theorem row_toFile
    (hunit : ∀ {c task}, operation.check c = .ok task →
      ∃ unit, unit? = some unit ∧ task = .compile unit)
    {destination : Path} (hd : Operation.DoAll c [operation, .outputFile destination] ds r c') :
    Leg (c.telling ++ [unit?.map .compile, (CText.ofBytes? destination.bytes).map .outputFile])
        ds r ∧
      ds.filterMap Deed.entry? = [] ∧ Leaves (.finalized .emitted) c.stage ds r c'.stage := by
  rw [← List.singleton_append, ← List.append_assoc]
  cases hd with
  | stop hd =>
    obtain ⟨⟨hleg, hplaced, hcompiled, hstage⟩, hentry⟩ := hd.compiles fun _ => hunit
    refine ⟨hleg.append_error _, hentry, ?_⟩
    rw [hstage]
    exact leaves_of_failed hplaced hcompiled
  | step hd hr =>
    obtain ⟨⟨hleg, hplaced, hcompiled, hstage⟩, hentry⟩ := hd.compiles fun _ => hunit
    cases hr with
    | last hd' =>
      obtain ⟨⟨hleg', hplaced', hcompiled', hstage'⟩, hentry'⟩ := hd'.writes
      refine ⟨hleg.append hleg', by simp [hentry, hentry'], ?_⟩
      rw [hstage', hstage]
      constructor
      · exact fun h => if_pos h
      · simp [hplaced, hplaced']
      · intro hr _ _
        rw [hr]
        rfl
      · simp [hcompiled, Except.isOk, Except.toBool]

private theorem EntersProgram.append {arguments : List String} {ds' : List Deed}
    (hentry : ds.filterMap Deed.entry? = []) (h : EntersProgram arguments ds' r) :
    EntersProgram arguments (ds ++ ds') r := by
  unfold EntersProgram at h ⊢
  rw [List.filterMap_append, hentry, List.nil_append]
  split
  · next hr =>
    rw [if_pos hr] at h
    obtain ⟨answer, main, argv, hentered, hargv, hanswer, hmain⟩ := h
    exact ⟨answer, main, argv, hentered, hargv, List.mem_append_right _ hanswer, hmain⟩
  · next hr =>
    rwa [if_neg hr] at h

private theorem row_toProgram
    (hunit : ∀ {c task}, operation.check c = .ok task →
      ∃ unit, unit? = some unit ∧ task = .compile unit)
    {arguments : List String}
    (hd : Operation.DoAll c [operation, .relocate, .run arguments] ds r c') :
    Leg (c.telling ++ [unit?.map .compile, some (.relocate .auto),
        some (.getSymbol ContextAction.mainName)]) ds r ∧
      EntersProgram arguments ds r ∧ Leaves (.finalized .ran) c.stage ds r c'.stage := by
  rw [← List.singleton_append, ← List.append_assoc]
  cases hd with
  | stop hd =>
    obtain ⟨⟨hleg, hplaced, hcompiled, hstage⟩, hentry⟩ := hd.compiles fun _ => hunit
    refine ⟨hleg.append_error _, hentry, ?_⟩
    rw [hstage]
    exact leaves_of_failed hplaced hcompiled
  | step hd hr =>
    obtain ⟨⟨hleg, hplaced, hcompiled, hstage⟩, hentry⟩ := hd.compiles fun _ => hunit
    rw [← List.singleton_append]
    cases hr with
    | stop hd' =>
      obtain ⟨⟨hleg', hplaced', hcompiled', hstage'⟩, hentry'⟩ := hd'.places
      refine ⟨hleg.append (hleg'.append_error _), .append hentry hentry', ?_⟩
      rw [hstage', hstage]
      constructor
      · exact fun h => Bool.noConfusion h
      · simp [hplaced, hplaced', Except.isOk, Except.toBool]
      · exact fun _ _ _ => rfl
      · simp [hcompiled, Except.isOk, Except.toBool]
    | step hd' hr' =>
      obtain ⟨⟨hleg', hplaced', hcompiled', hstage'⟩, hentry'⟩ := hd'.places
      cases hr' with
      | last hd'' =>
        obtain ⟨⟨hleg'', hplaced'', hcompiled'', hstage''⟩, hentered⟩ := hd''.enters
        refine ⟨hleg.append (hleg'.append hleg''), .append hentry (.append hentry' hentered), ?_⟩
        rw [hstage'', hstage']
        constructor
        · exact fun h => if_pos h
        · intro hr _
          rw [hr]
          rfl
        · simp [hplaced', Except.isOk, Except.toBool]
        · simp [hplaced', Except.isOk, Except.toBool]

private theorem row_typed {type : OutputType} {next : Operation} {rest : List Operation}
    {more : List (Option Request)} {finish : Stage} {E : List Deed → Except BindError Value → Prop}
    (hmore : more ≠ []) (hE : ∀ e, E [] (.error e))
    (hrest : ∀ {c : Context} {ds r}, Operation.DoAll c (next :: rest) ds r c' →
      Leg (c.telling ++ more) ds r ∧ E ds r ∧ Leaves finish c.stage ds r c'.stage)
    (hd : Operation.DoAll c (.setOutputType type :: next :: rest) ds r c') :
    Leg ((if c.typeFixed then [] else [some (.setOutputType type.code)]) ++ more) ds r ∧ E ds r ∧
      Leaves finish c.stage ds r c'.stage := by
  -- Once the type is chosen, the rest of the row finds it.
  cases hd with
  | stop hd =>
    obtain ⟨rfl, _, hstage, _⟩ := hd.chooses
    refine ⟨.stop (by simp [hmore]) _, hE _, ?_⟩
    constructor
    · exact fun h => Bool.noConfusion h
    · simp
    · simp
    · exact fun _ _ _ => hstage
  | @step _ between _ _ _ _ _ _ _ _ hd hr =>
    obtain ⟨rfl, hfixed, hstage, htype⟩ := hd.chooses
    obtain ⟨hleg, hentered, hleaves⟩ := hrest hr
    rw [Context.telling, hfixed, htype rfl] at hleg
    exact ⟨hleg, hentered, hleaves.of_configured hstage⟩

end Rows

private theorem unit_compileString (source : String) {c : Context} {task : Task}
    (h : (Operation.compileString source).check c = .ok task) :
    ∃ unit, (CText.ofString? source).map .text = some unit ∧ task = .compile unit := by
  obtain ⟨t, ht, rfl⟩ := bind_pure_eq_ok (eq_ok_of_bind h)
  exact ⟨.text t, by rw [ofString?_of_boundaryText ht]; rfl, rfl⟩

private theorem unit_addFile (path : Path) {c : Context} {task : Task}
    (h : (Operation.addFile path).check c = .ok task) :
    ∃ unit, (CText.ofBytes? path.bytes).map .file = some unit ∧ task = .compile unit := by
  obtain ⟨t, ht, rfl⟩ := bind_pure_eq_ok (eq_ok_of_bind h)
  exact ⟨.file t, by rw [ofBytes?_of_boundaryPath ht]; rfl, rfl⟩

/-- However a job goes, it makes calls of its canonical sequence, and the rest follows from how many
it has made and how they were answered. -/
theorem Does.proceeds {job : Job} {files : FileSystem} {c c' : Context} {ds : List Deed}
    {r : Except BindError Value} (hd : job.Does files c ds r c') :
    Leg (job.canonical c.typeFixed) ds r ∧ job.Enters ds r ∧
      Leaves job.finish c.stage ds r c'.stage := by
  cases hd with
  | refused hj =>
    refine ⟨.stop ?_ _, ?_, leaves_of_failed rfl rfl⟩
    · cases job <;> simp [canonical]
    · cases job <;> rfl
  | performed hj hd =>
    cases job with
    | compileSourceTo source kind destination =>
      have h := row_typed (by simp) (fun _ => rfl)
        (row_toFile (unit_compileString source)) hd
      rwa [Option.map_map] at h
    | compileFileTo path kind destination =>
      have h := row_typed (by simp) (fun _ => rfl) (row_toFile (unit_addFile path)) hd
      rwa [Option.map_map] at h
    | runFile path arguments =>
      have h := row_typed (by simp) (fun _ => rfl) (row_toProgram (unit_addFile path)) hd
      rwa [Option.map_map] at h

end Job

section Returns

variable {σ : Type} (compiler : Compiler σ)

/-- The last of a row that succeeds finds a world that the others have left, and ends the row. -/
theorem Operation.performAll_last (init : List Operation) (last : Operation) {s : Live σ}
    (hc : s.context.Coherent) {value : Value}
    (h : (performAll compiler (init ++ [last]) s).result = .ok value) :
    ∃ s' events, s'.context.Coherent ∧ s'.context.number = s.context.number ∧
      let o := last.perform compiler s'
      performAll compiler (init ++ [last]) s = ⟨o.result, o.state, events ++ o.events⟩ := by
  induction init generalizing s with
  | nil => exact ⟨s, [], hc, rfl, rfl⟩
  | cons operation rest ih =>
    have hd := (operation.yields_perform compiler hc s.world).post
    obtain ⟨next, more, hmore⟩ : ∃ next more, rest ++ [last] = next :: more := by
      cases rest <;> exact ⟨_, _, rfl⟩
    have hall : performAll compiler (operation :: rest ++ [last]) =
        operation.perform compiler >>= fun _ => performAll compiler (rest ++ [last]) := by
      rw [List.cons_append, hmore]
      rfl
    rw [hall] at h ⊢
    simp only [Bind.bind, Action.bind] at h ⊢
    rcases ho : operation.perform compiler s with ⟨r, s', events⟩
    have hstart : operation.perform compiler ⟨s.context, s.world⟩ = ⟨r, s', events⟩ := ho
    rw [hstart] at hd
    rw [ho] at h
    cases r with
    | error e => cases h
    | ok value =>
      have hreach := hd.reaches
      obtain ⟨s'', more, hc'', hn'', hrest⟩ := ih (hreach.coherent hc) h
      refine ⟨s'', events ++ more, hc'', hn''.trans hreach.number, ?_⟩
      simp only [hrest, List.append_assoc]

private theorem ContextAction.run_returns {c : Context} {w : World σ} {handle : Handle}
    (hh : c.handle? = some handle) (argv : List CText) {value : Value}
    (h : (ContextAction.run compiler argv ⟨c, w⟩).result = .ok value) :
    let o := ContextAction.run compiler argv ⟨c, w⟩
    ∃ main,
      let found := compiler.call handle (.getSymbol mainName) w.outside
      let returned := compiler.enter main (.program argv) found.2.2
      .called (.getSymbol mainName) found.1 ∈ deeds handle o.events ∧
        .entered main (.program argv) ∈ deeds handle o.events ∧
        value = .status returned.1 ∧ o.state.world.outside = returned.2.2 := by
  intro o
  rcases hf : compiler.call handle (.getSymbol mainName) w.outside with ⟨answer, sent, left⟩
  cases hm : answer.address.nonNull? with
  | none =>
    simp [run, log, Action.emit, call, Action.step, hh, World.call, hf, hm, Action.fail, Bind.bind,
      Action.bind] at h
  | some main =>
    rcases he : compiler.enter main (.program argv) left with ⟨status, sent', left'⟩
    refine ⟨main, ?_⟩
    by_cases hs : c.stage = .finalized .ran
    · simp [o, run, log, Action.emit, call, Action.step, hh, World.call, hf, hm, enter, World.enter,
        World.absorb_outside, he, advance, context, hs, Action.get, Bind.bind, Action.bind,
        Pure.pure, Action.pure, deeds_cons, Event.deed?] at h ⊢
      exact h.symm
    · simp [o, run, log, Action.emit, call, Action.step, hh, World.call, hf, hm, enter, World.enter,
        World.absorb_outside, he, advance, context, hs, Action.get, Bind.bind, Action.bind,
        Pure.pure, Action.pure, deeds_cons, Event.deed?, modify, Action.modify] at h ⊢
      exact h.symm

theorem Operation.run_returns {c : Context} {w : World σ} (hc : c.Coherent)
    {arguments : List String} {value : Value}
    (h : ((run arguments).perform compiler ⟨c, w⟩).result = .ok value) :
    let o := (run arguments).perform compiler ⟨c, w⟩
    ∃ main argv,
      let found := compiler.call c.number (.getSymbol ContextAction.mainName) w.outside
      let returned := compiler.enter main (.program argv) found.2.2
      .called (.getSymbol ContextAction.mainName) found.1 ∈ deeds c.number o.events ∧
        .entered main (.program argv) ∈ deeds c.number o.events ∧
        value = .status returned.1 ∧ o.state.world.outside = returned.2.2 := by
  intro o
  cases hk : (run arguments).check c with
  | error e =>
    rw [(run arguments).perform_of_check_error compiler (s := ⟨c, w⟩) hk] at h
    exact nomatch h
  | ok task =>
    have hl := (((run arguments).checks c).of_ok task hk).2.live
    have hh := hc.handle_of_live hl
    obtain ⟨argv, _, rfl⟩ := bind_pure_eq_ok (eq_ok_of_bind (eq_ok_of_bind (eq_ok_of_bind hk)))
    have hperform := (run arguments).perform_of_check compiler (s := ⟨c, w⟩) hk
    rw [show o = _ from hperform]
    rw [hperform] at h
    obtain ⟨main, hmain⟩ := ContextAction.run_returns compiler hh argv h
    exact ⟨main, argv, hmain⟩

theorem Job.run_returns {c : Context} {w : World σ} (hc : c.Coherent) {path : Path}
    {arguments : List String} {value : Value}
    (h : ((runFile path arguments).perform compiler ⟨c, w⟩).result = .ok value) :
    let o := (runFile path arguments).perform compiler ⟨c, w⟩
    ∃ main argv asked,
      let found := compiler.call c.number (.getSymbol ContextAction.mainName) asked
      let returned := compiler.enter main (.program argv) found.2.2
      .called (.getSymbol ContextAction.mainName) found.1 ∈ deeds c.number o.events ∧
        .entered main (.program argv) ∈ deeds c.number o.events ∧
        value = .status returned.1 ∧ o.state.world.outside = returned.2.2 := by
  intro o
  cases hj : (runFile path arguments).check (w.files compiler) c with
  | error e =>
    rw [Job.perform_eq, hj] at h
    exact nomatch h
  | ok u =>
    have ho : (runFile path arguments).perform compiler ⟨c, w⟩ =
        Operation.performAll compiler
          ([.setOutputType .memory, .addFile path, .relocate] ++ [.run arguments]) ⟨c, w⟩ := by
      rw [Job.perform_eq, hj]
      rfl
    rw [ho] at h
    obtain ⟨s', events, hc', hn', hlast⟩ := Operation.performAll_last compiler _ _ hc h
    rw [hlast] at h
    obtain ⟨main, argv, hanswer, hentered, hvalue, hleft⟩ := Operation.run_returns compiler hc' h
    rw [show o = _ from ho.trans hlast, ← show s'.context.number = c.number from hn']
    refine ⟨main, argv, s'.world.outside, ?_, ?_, hvalue, hleft⟩
    · rw [deeds_append]
      exact List.mem_append_right _ hanswer
    · rw [deeds_append]
      exact List.mem_append_right _ hentered

end Returns

namespace Session

/-- Whatever has become of a context, a job on it makes the calls of its canonical sequence, one
after the other and on the context's own state, as far as they are granted. It succeeds exactly if
it gets to the end; then alone is a program entered, with the job's arguments, and what that returns
is the result. The stage left behind tells how far the job has got. -/
theorem jobs_are_canonical {σ : Type} (compiler : Compiler σ) (toolchain : Toolchain) (w : World σ)
    (moves : List Move) (i : Nat) (c : Context) (job : Job) :
    let start : Session σ := ⟨toolchain, w, []⟩
    let s := (start.play compiler moves).1
    let told := (deeds c.number (start.play compiler moves).2).any Deed.fixesType
    let o := job.perform compiler ⟨c, s.world⟩
    let ds := deeds c.number o.events
    s.context? i = some c →
      (∀ e ∈ o.events, e.Keeps c.number) ∧
        (ds.filterMap Deed.request?).map some <+: job.canonical told ∧
        (o.result.isOk ↔ (ds.filterMap Deed.request?).map some = job.canonical told ∧
          ∀ request answer, .called request answer ∈ ds → request.grantedBy answer) ∧
        job.Enters ds o.result ∧
        (∀ path arguments value, job = .runFile path arguments → o.result = .ok value →
          ∃ main argv asked,
            let found := compiler.call c.number (.getSymbol ContextAction.mainName) asked
            let returned := compiler.enter main (.program argv) found.2.2
            .called (.getSymbol ContextAction.mainName) found.1 ∈ ds ∧
              .entered main (.program argv) ∈ ds ∧ value = .status returned.1 ∧
              o.state.world.outside = returned.2.2) ∧
        Job.Leaves job.finish c.stage ds o.result o.state.context.stage := by
  intro start s told o ds hi
  have hs := law_tracks.play compiler toolchain w moves
  have hc : c.Coherent := hs.coherent i c hi
  have htold : c.typeFixed = told := (hs.held i c hi).fixed
  obtain ⟨hdone, hkeeps, _⟩ := job.does_perform compiler hc s.world
  obtain ⟨hleg, hentered, hleaves⟩ := hdone.proceeds
  rw [htold] at hleg
  refine ⟨hkeeps, hleg.asked, hleg.ok_iff, hentered, ?_, hleaves⟩
  rintro path arguments value rfl hvalue
  exact Job.run_returns compiler hc hvalue

/-- A program whose compile failed once is compiled again and run; the type is not told twice. -/
theorem rerun_program_is_canonical :
    let compiler : Compiler Bool :=
      { files := fun _ => { nodes := [([[115]], .file (.bytes []))] }
        create := fun failed => (true, failed)
        call := fun _ request failed => match request with
          | .compile _ => ({ status := if failed then 0 else -1 }, [], true)
          | _ => ({ address := .word 1 }, [], failed)
        enter := fun _ _ failed => (7, [], failed) }
    let toolchain : Toolchain := ⟨⟨.wide, ⟨[]⟩⟩, ⟨⟨[]⟩⟩, {}⟩
    let job : Job := .runFile ⟨[47, 115]⟩ ["a"]
    let s := (play compiler ⟨toolchain, ⟨false, []⟩, []⟩ [.openContext true, .runJob 0 job]).1
    let c : Context := { Context.fresh toolchain.table 0 with
      stage := .configured
      typeFixed := true }
    let o := job.perform compiler ⟨c, s.world⟩
    s.context? 0 = some c ∧ o.result = .ok (.status 7) ∧ o.state.context.stage = .finalized .ran ∧
      ((deeds 0 o.events).filterMap Deed.request?).map some =
        [some (.compile (.file (.upToNul [47, 115]))), some (.relocate .auto),
          some (.getSymbol ContextAction.mainName)] := by
  intro compiler toolchain job s c o
  have hc : s.context? 0 = some c := by decide +kernel
  have hresult : o.result = .ok (.status 7) := by decide +kernel
  have hok : o.result.isOk := by rw [hresult]; rfl
  obtain ⟨_, _, hcalls, _, _, hleaves⟩ := jobs_are_canonical compiler toolchain ⟨false, []⟩
    [.openContext true, .runJob 0 job] 0 c job hc
  have hstage := hleaves.finished hok
  refine ⟨hc, hresult, ?_, (hcalls.1 hok).1.trans ?_⟩
  · -- the two sides must agree in form, or the job is run to compare them
    dsimp +zetaDelta only at hstage ⊢
    exact hstage
  · decide +kernel

end Session

end EmbeddedC
