import EmbeddedC.Proofs.Encoding
import EmbeddedC.Proofs.Refusal
import EmbeddedC.Proofs.MessageDelivery
/-!
# Statuses

A request is granted or refused by the sign of the status that answers it. An operation whose own
request is granted succeeds; one that meets a refusal ends there, with an error that carries the
status, and all that is left of it is what the compiler has been told by then.
-/

namespace EmbeddedC

/-- The error that a negative status stands for. Some requests are not answered by a status. -/
def Request.failure? (status : Int32) : Request → Option BindError
  | configure setting =>
    if setting.reportsStatus then
      some (.rejected setting.entry.name setting.argument.text status)
    else none
  | setOutputType code =>
    some (.rejected Entry.setOutputType.name
      (((OutputType.ofCode? code).map (·.text)).getD "") status)
  | addLibrary name => some (.rejected Entry.addLibrary.name name.text status)
  | compile unit => some (.compile unit.name status)
  | addSymbol name _ => some (.injection (.rejected name.text status))
  | relocate _ => some (.relocation status)
  | outputFile path => some (.emit ⟨path.bytes⟩ status)
  | setErrorFunc | delete | getSymbol _ | run _ => none

theorem Request.failure?_setOutputType (status : Int32) (type : OutputType) :
    (setOutputType type.code).failure? status =
      some (.rejected Entry.setOutputType.name type.text status) := by
  simp [failure?, OutputType.ofCode?_eq_some_iff.2 rfl]

/-- What an operation returns when its request is granted: the size that was asked for, or nothing. -/
def Kind.Grants (status : Int32) (value : Value) : Kind → Prop
  | relocation .size => ∃ bytes : Nat, value = .size bytes ∧ (bytes : Int) = status.toInt
  | _ => value = .none

/-- A context that has the marks of what the compiler has been told, and is otherwise as it was. -/
def Context.told (c : Context) (ds : List Deed) : Context :=
  { c with
    typeFixed := c.typeFixed || ds.any Deed.fixesType
    relocateAttempted := c.relocateAttempted || ds.any Deed.isRelocation
    relocationFailed := c.relocationFailed || ds.any Deed.failsToRelocate }

/-- What an operation of a kind makes of the statuses it meets. -/
structure HeedsStatus (kind : Kind) (c : Context) (ds : List Deed) (r : Except BindError Value)
    (c' : Context) : Prop where
  granted : ∀ request answer, .called request answer ∈ ds →
    (request.failure? answer.status).isSome → request.entry ≠ .setOutputType →
      0 ≤ answer.status → ∃ value, r = .ok value ∧ kind.Grants answer.status value
  refused : ∀ request answer e, .called request answer ∈ ds →
    request.failure? answer.status = some e → answer.status < 0 →
      r = .error e ∧ ds.getLast? = some (.called request answer)
  typeRefused : ∀ code answer, .called (.setOutputType code) answer ∈ ds → answer.status < 0 →
    ds = [.called (.setOutputType code) answer]
  kept : ∀ e, r = .error e → c' = c.told ds

namespace Context

variable {c c' : Context} {ds ds' : List Deed}

@[simp] theorem told_nil : c.told [] = c := by
  simp [told]

theorem told_append : c.told (ds ++ ds') = (c.told ds).told ds' := by
  simp [told, Bool.or_assoc]

@[simp] theorem told_hookDeeds : c.told c.hookDeeds = c := by
  unfold hookDeeds
  cases c.hook? <;> simp [told, Deed.fixesType, Deed.isRelocation, Deed.failsToRelocate]

theorem FixesType.told (hf : c.FixesType ds c') : c' = c.told ds := by
  cases hf with
  | known => rw [told_nil]
  | sent answer _ ha =>
    simp [Context.told, Deed.fixesType, Deed.isRelocation, Deed.failsToRelocate, ha]

end Context

/-- What may come before an operation's own request: the type is told, and a hook runs. -/
def Preludes (ds : List Deed) : Prop :=
  ∀ request answer, .called request answer ∈ ds →
    request.entry = .setOutputType ∧ 0 ≤ answer.status

section Preludes

variable {c c' : Context} {ds ds' : List Deed}

theorem preludes_nil : Preludes [] := by
  intro request answer h
  exact absurd h List.not_mem_nil

theorem Preludes.append (h : Preludes ds) (h' : Preludes ds') : Preludes (ds ++ ds') := by
  intro request answer hm
  rcases List.mem_append.1 hm with hm | hm
  · exact h request answer hm
  · exact h' request answer hm

theorem Context.FixesType.preludes (hf : c.FixesType ds c') : Preludes ds := by
  cases hf with
  | known => exact preludes_nil
  | sent answer _ ha =>
    intro request answer' hm
    cases List.mem_singleton.1 hm
    exact ⟨rfl, ha⟩

theorem Context.preludes_hookDeeds : Preludes c.hookDeeds := by
  intro request answer hm
  unfold hookDeeds at hm
  cases hh : c.hook? <;> simp [hh] at hm

end Preludes

namespace HeedsStatus

variable {kind : Kind} {c c' : Context} {before ds : List Deed} {request : Request}
  {answer : Answer} {r : Except BindError Value} {value : Value} {e : BindError}

/-- Nothing was asked that is answered by a status. -/
theorem of_silent
    (hs : ∀ request answer, .called request answer ∈ ds → request.failure? answer.status = none)
    (hk : ∀ e, r = .error e → c' = c.told ds) : HeedsStatus kind c ds r c' where
  granted := by
    intro request answer hm hsome
    rw [hs request answer hm] at hsome
    exact Bool.noConfusion hsome
  refused := by
    intro request answer e hm hsome
    rw [hs request answer hm] at hsome
    exact nomatch hsome
  typeRefused := by
    intro code answer hm
    exact nomatch hs _ answer hm
  kept := hk

theorem of_granted (hb : Preludes before)
    (hg : (request.failure? answer.status).isSome → 0 ≤ answer.status ∧
      kind.Grants answer.status value) :
    HeedsStatus kind c (before ++ [.called request answer]) (.ok value) c' where
  granted := by
    intro request' answer' hm hsome hentry _
    rcases List.mem_append.1 hm with hm | hm
    · exact absurd (hb request' answer' hm).1 hentry
    · cases List.mem_singleton.1 hm
      exact ⟨value, rfl, (hg hsome).2⟩
  refused := by
    intro request' answer' e hm hsome hneg
    have hnonneg : 0 ≤ answer'.status := by
      rcases List.mem_append.1 hm with hm | hm
      · exact (hb request' answer' hm).2
      · cases List.mem_singleton.1 hm
        exact (hg (by simp [hsome])).1
    exact absurd hneg (Int32.not_lt.2 hnonneg)
  typeRefused := by
    intro code answer' hm hneg
    have hnonneg : 0 ≤ answer'.status := by
      rcases List.mem_append.1 hm with hm | hm
      · exact (hb _ answer' hm).2
      · cases List.mem_singleton.1 hm
        exact (hg rfl).1
    exact absurd hneg (Int32.not_lt.2 hnonneg)
  kept := by
    intro e he
    exact nomatch he

theorem of_refused (hb : Preludes before) (hf : request.failure? answer.status = some e)
    (ha : answer.status < 0) (ht : request.entry = .setOutputType → before = [])
    (hk : c' = c.told (before ++ [.called request answer])) :
    HeedsStatus kind c (before ++ [.called request answer]) (.error e) c' where
  granted := by
    intro request' answer' hm _ hentry hnonneg
    rcases List.mem_append.1 hm with hm | hm
    · exact absurd (hb request' answer' hm).1 hentry
    · cases List.mem_singleton.1 hm
      exact absurd ha (Int32.not_lt.2 hnonneg)
  refused := by
    intro request' answer' e' hm hf' hneg
    rcases List.mem_append.1 hm with hm | hm
    · exact absurd hneg (Int32.not_lt.2 (hb request' answer' hm).2)
    · cases List.mem_singleton.1 hm
      rw [hf] at hf'
      exact ⟨congrArg Except.error (Option.some.inj hf'), by simp⟩
  typeRefused := by
    intro code answer' hm hneg
    rcases List.mem_append.1 hm with hm | hm
    · exact absurd hneg (Int32.not_lt.2 (hb _ answer' hm).2)
    · cases List.mem_singleton.1 hm
      rw [ht rfl, List.nil_append]
  kept := fun _ _ => hk

end HeedsStatus

section

variable {c c' : Context} {task : Task} {ds : List Deed} {r : Except BindError Value}

private theorem told_refused {request : Request} {answer : Answer} (ha : answer.status < 0)
    (hr : ∀ target, request ≠ .relocate target) : c.told [.called request answer] = c := by
  have hfix : (Deed.called request answer).fixesType = false := by
    cases request <;> simp [Deed.fixesType, Int32.not_le.2 ha]
  have hrelocation : (Deed.called request answer).isRelocation = false := by
    cases request with
    | relocate target => exact absurd rfl (hr target)
    | _ => rfl
  have hfail : (Deed.called request answer).failsToRelocate = false := by
    cases request with
    | relocate target => exact absurd rfl (hr target)
    | _ => rfl
  simp [Context.told, hfix, hrelocation, hfail]

private theorem silent_nil : ∀ request answer,
    Deed.called request answer ∈ [] → request.failure? answer.status = none := by
  intro request answer hm
  exact absurd hm List.not_mem_nil

private theorem silent_one {request : Request} {answer : Answer}
    (h : request.failure? answer.status = none) : ∀ request' answer',
    Deed.called request' answer' ∈ [Deed.called request answer] →
      request'.failure? answer'.status = none := by
  intro request' answer' hm
  cases List.mem_singleton.1 hm
  exact h

/-- A task goes on as long as its requests are granted, and ends with the first refusal. -/
theorem Task.Does.heedsStatus (ht : task.Timely c) (hd : task.Does c ds r c') :
    HeedsStatus task.kind c ds r c' := by
  cases hd with
  | sinkInstalled | hookInstalled | typeChosen | typeKept =>
    exact .of_silent silent_nil (fun e he => nomatch he)
  | @configured setting answer ha =>
    apply HeedsStatus.of_granted preludes_nil
    intro hsome
    refine ⟨ha ?_, rfl⟩
    apply Decidable.byContradiction
    intro hn
    simp [Request.failure?, hn] at hsome
  | @configureRefused setting answer hs ha =>
    apply HeedsStatus.of_refused preludes_nil _ ha _ (told_refused ha _).symm
    · simp [Request.failure?, hs]
    · exact fun _ => rfl
    · simp
  | typeRefused answer _ _ ha =>
    apply HeedsStatus.of_refused preludes_nil _ ha _ (told_refused ha _).symm
    · exact Request.failure?_setOutputType _ _
    · exact fun _ => rfl
    · simp
  | libraryAdded hf answer ha => exact .of_granted hf.preludes fun _ => ⟨ha, rfl⟩
  | libraryRefused hf answer ha =>
    apply HeedsStatus.of_refused hf.preludes rfl ha
    · intro h
      exact nomatch h
    · rw [Context.told_append, ← hf.told, told_refused ha (by simp)]
  | compiled hf answer ha =>
    rw [← List.append_assoc]
    exact .of_granted (hf.preludes.append Context.preludes_hookDeeds) fun _ => ⟨ha, rfl⟩
  | @compileFailed unit _ _ hf answer ha =>
    rw [← List.append_assoc]
    apply HeedsStatus.of_refused (hf.preludes.append Context.preludes_hookDeeds) rfl ha
    · intro h
      cases unit <;> exact nomatch h
    · rw [Context.told_append, Context.told_append, ← hf.told, Context.told_hookDeeds,
        told_refused ha (by simp)]
  | injected answer ha => exact .of_granted preludes_nil fun _ => ⟨ha, rfl⟩
  | @injectionRefused name symbol answer ha =>
    apply HeedsStatus.of_refused preludes_nil _ ha _ (told_refused ha _).symm
    · rw [Request.failure?, CText.text_of_ofString? ht.2]
    · intro h
      exact nomatch h
    · simp
  | sized answer ha =>
    have hsize : (answer.status.toInt.toNat : Int) = answer.status.toInt :=
      Int.toNat_of_nonneg (Int32.le_iff_toInt_le.1 ha)
    exact .of_granted preludes_nil fun _ => ⟨ha, _, rfl, hsize⟩
  | @relocated target htarget answer ha =>
    apply HeedsStatus.of_granted preludes_nil
    intro _
    cases target with
    | size => exact absurd rfl htarget
    | auto | memory => exact ⟨ha, rfl⟩
  | relocationFailed answer ha =>
    apply HeedsStatus.of_refused preludes_nil rfl ha
    · exact fun _ => rfl
    · simp [Context.told, Deed.fixesType, Deed.isRelocation, Deed.failsToRelocate, ha]
  | lookedUp => exact .of_silent (silent_one rfl) (fun e he => nomatch he)
  | ran answer hm status =>
    apply HeedsStatus.of_silent
    · intro request answer' hmem
      simp only [List.mem_cons, List.not_mem_nil, or_false, reduceCtorEq] at hmem
      cases hmem
      rfl
    · intro e he
      exact nomatch he
  | noMain answer hm =>
    apply HeedsStatus.of_silent (silent_one rfl)
    intro e _
    simp [Context.told, Deed.fixesType, Deed.isRelocation, Deed.failsToRelocate]
  | emitted answer ha => exact .of_granted preludes_nil fun _ => ⟨ha, rfl⟩
  | emissionFailed answer ha =>
    apply HeedsStatus.of_refused preludes_nil rfl ha _ (told_refused ha _).symm
    · intro h
      exact nomatch h
    · simp
  | disposed => exact .of_silent (silent_one rfl) (fun e he => nomatch he)

theorem Operation.Does.heedsStatus {operation : Operation} (hd : operation.Does c ds r c') :
    HeedsStatus operation.kind c ds r c' := by
  cases hd with
  | refused => exact .of_silent silent_nil (fun _ _ => Context.told_nil.symm)
  | performed hc hd =>
    obtain ⟨hk, ht⟩ := (operation.checks c).of_ok _ hc
    rw [← hk]
    exact hd.heedsStatus ht

/-- Installing a sink does not fail once it has begun. -/
theorem Task.Does.not_attachment {e : BindError} (hd : task.Does c ds (.error e) c') :
    task.kind ≠ .attachment := by
  cases hd with
  | typeRefused answer ht => cases task <;> simp_all [Task.needsType, Task.kind]
  | _ => simp [Task.kind]

end

variable {σ : Type} (compiler : Compiler σ)

/-- An operation that fails leaves all sinks where they were, and what was sent meanwhile has been
received and counted. -/
theorem Operation.relayed_of_error {operation : Operation} {c : Context} {w : World σ}
    {e : BindError} (hc : c.Coherent) (hw : c.Within w)
    (hr : (operation.perform compiler ⟨c, w⟩).result = .error e) :
    w.Relayed (operation.perform compiler ⟨c, w⟩).events
      (operation.perform compiler ⟨c, w⟩).state.world := by
  cases hk : operation.sink? with
  | none => exact (World.relays compiler w).perform hw hk (.refl w)
  | some sink? =>
    have hkind : operation.kind = .attachment := by
      cases operation with
      | setErrorSink | clearErrorSink => rfl
      | _ => exact nomatch hk
    have hd := (operation.yields_perform compiler hc w).post
    rw [hr] at hd
    generalize deeds c.number _ = ds at hd
    generalize (operation.perform compiler ⟨c, w⟩).state.context = c' at hd
    cases hd with
    | refused hcheck =>
      rw [operation.perform_of_check_error compiler (s := ⟨c, w⟩) hcheck]
      exact .refl w
    | performed hcheck hd =>
      have htask := ((operation.checks c).of_ok _ hcheck).1
      exact absurd (htask.trans hkind) hd.not_attachment

/-- A compiler that answers every request with a status of its own. -/
def Compiler.answering (status : Request → Int32) : Compiler Unit where
  files _ := {}
  create _ := (true, ())
  call _ request _ := ({ status := status request }, [], ())
  enter _ _ _ := (0, [], ())

namespace Session

/-- All through a session, statuses decide how operations end. A refusal leaves the stage, the type,
the symbols, the hook and all sinks as they were. -/
theorem statuses_decide (toolchain : Toolchain) (w : World σ) (moves : List Move) (i : Nat)
    (c : Context) (operation : Operation) :
    let s := (play compiler ⟨toolchain, w, []⟩ moves).1
    s.context? i = some c →
      let o := operation.perform compiler ⟨c, s.world⟩
      HeedsStatus operation.kind c (deeds c.number o.events) o.result o.state.context ∧
        (∀ event ∈ o.events, event.Keeps c.number) ∧
        ∀ e, o.result = .error e → s.world.Relayed o.events o.state.world := by
  intro s hi o
  have hs := law_tracks.play compiler toolchain w moves
  have hc : c.Coherent := hs.coherent i c hi
  have ho := operation.yields_perform compiler hc s.world
  refine ⟨ho.post.heedsStatus, ho.keeps, ?_⟩
  intro e he
  exact operation.relayed_of_error compiler hc (hs.within hi) he

/-- A relocation that is refused leaves its status in the error and its marks in the context. -/
theorem relocation_refused_with_status :
    let table : EntryTable := ⟨.wide, ⟨[]⟩⟩
    let compiler : Compiler Unit := .answering fun
      | .relocate _ => -7
      | _ => 0
    let s := (play compiler ⟨⟨table, ⟨⟨[]⟩⟩, {}⟩, ⟨(), []⟩, []⟩
      [.openContext true, .perform 0 (.compileString "int x;")]).1
    let c : Context := { Context.fresh table 0 with stage := .compiled, typeFixed := true }
    s.context? 0 = some c ∧
      let o := Operation.relocate.perform compiler ⟨c, s.world⟩
      o.result = .error (.relocation (-7)) ∧
        o.state.context = { c with relocateAttempted := true, relocationFailed := true } := by
  intro table compiler s c
  have hheeds := statuses_decide compiler ⟨table, ⟨⟨[]⟩⟩, {}⟩ ⟨(), []⟩
    [.openContext true, .perform 0 (.compileString "int x;")] 0 c .relocate rfl
  have hrefused := hheeds.1.refused (.relocate .auto) { status := -7 } (.relocation (-7))
    (List.Mem.head _) rfl (by decide)
  exact ⟨rfl, hrefused.1, hheeds.1.kept _ hrefused.1⟩

end Session

end EmbeddedC
