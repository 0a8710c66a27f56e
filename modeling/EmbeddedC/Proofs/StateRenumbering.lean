import EmbeddedC.Proofs.CompilerIsolation
import EmbeddedC.Proofs.OperationSequence
/-!
# The same work on another state

What is done with a context does not depend on which state it has, and it is decided by the answers.
So where the other side has a manner, the same work from the same context after the same requests
goes the same way, on whatever state. Only what a program returns is not decided by answers.
-/

namespace EmbeddedC

/-- The same context on another state. -/
def Context.renumbered (handle : Handle) (c : Context) : Context :=
  { c with number := handle, handle? := c.handle?.map fun _ => handle }

section Renumbered

variable {c c' : Context} {ds : List Deed} {r : Except BindError Value} (handle : Handle)

theorem Context.renumbered_configured :
    c.configured.renumbered handle = (c.renumbered handle).configured := by
  unfold configured renumbered
  split <;> rfl

theorem Context.renumbered_fresh (table : EntryTable) (number : Handle) :
    (Context.fresh table number).renumbered handle = .fresh table handle := rfl

theorem Context.FixesType.renumbered (hf : c.FixesType ds c') :
    (c.renumbered handle).FixesType ds (c'.renumbered handle) := by
  cases hf with
  | known hc => exact .known hc
  | sent answer hc ha => exact .sent answer hc ha

theorem Task.Does.renumbered {task : Task} (hd : task.Does c ds r c') :
    task.Does (c.renumbered handle) ds r (c'.renumbered handle) := by
  cases hd with
  | sinkInstalled sink? => exact Context.renumbered_configured handle ▸ .sinkInstalled sink?
  | hookInstalled hook => exact Context.renumbered_configured handle ▸ .hookInstalled hook
  | configured answer ha => exact Context.renumbered_configured handle ▸ .configured answer ha
  | configureRefused answer hs ha => exact .configureRefused answer hs ha
  | typeRefused answer ht hc ha => exact .typeRefused answer ht hc ha
  | libraryAdded hf answer ha =>
    exact Context.renumbered_configured handle ▸ .libraryAdded (hf.renumbered handle) answer ha
  | libraryRefused hf answer ha => exact .libraryRefused (hf.renumbered handle) answer ha
  | typeChosen type => exact Context.renumbered_configured handle ▸ .typeChosen type
  | typeKept => exact .typeKept
  | compiled hf answer ha => exact .compiled (hf.renumbered handle) answer ha
  | compileFailed hf answer ha => exact .compileFailed (hf.renumbered handle) answer ha
  | injected answer ha => exact .injected answer ha
  | injectionRefused answer ha => exact .injectionRefused answer ha
  | sized answer ha => exact .sized answer ha
  | relocated ht answer ha => exact .relocated ht answer ha
  | relocationFailed answer ha => exact .relocationFailed answer ha
  | lookedUp answer => exact .lookedUp answer
  | ran answer hm status => exact .ran answer hm status
  | noMain answer hm => exact .noMain answer hm
  | emitted answer ha => exact .emitted answer ha
  | emissionFailed answer ha => exact .emissionFailed answer ha
  | disposed answer => exact .disposed answer

theorem Operation.check_renumbered (operation : Operation) :
    operation.check (c.renumbered handle) = operation.check c := by
  cases operation <;> rfl

theorem Operation.Does.renumbered {operation : Operation} (hd : operation.Does c ds r c') :
    operation.Does (c.renumbered handle) ds r (c'.renumbered handle) := by
  cases hd with
  | refused hc => exact .refused ((operation.check_renumbered handle).trans hc)
  | performed hc hd =>
    exact .performed ((operation.check_renumbered handle).trans hc) (hd.renumbered handle)

theorem Operation.DoAll.renumbered {operations : List Operation} (hd : DoAll c operations ds r c') :
    DoAll (c.renumbered handle) operations ds r (c'.renumbered handle) := by
  induction hd with
  | nil c => exact .nil _
  | last hd => exact .last (hd.renumbered handle)
  | stop hd => exact .stop (hd.renumbered handle)
  | step hd _ ih => exact .step (hd.renumbered handle) ih

theorem Job.check_renumbered (files : FileSystem) (job : Job) :
    job.check files (c.renumbered handle) = job.check files c := by
  cases job <;> rfl

theorem Job.Does.renumbered {files : FileSystem} {job : Job} (hd : job.Does files c ds r c') :
    job.Does files (c.renumbered handle) ds r (c'.renumbered handle) := by
  cases hd with
  | refused hj => exact .refused ((job.check_renumbered handle files).trans hj)
  | performed hj hd =>
    exact .performed ((job.check_renumbered handle files).trans hj) (hd.renumbered handle)

theorem Context.Releases.renumbered (hr : c.Releases ds) : (c.renumbered handle).Releases ds := by
  cases hr with
  | released hc => exact .released (by simp [Context.renumbered, hc])
  | deleted answer hc => exact .deleted answer (by simpa [Context.renumbered] using hc)

end Renumbered

/-- The source file that a job looks for before anything else. -/
def Job.source? : Job → Option Path
  | compileSourceTo _ _ _ => none
  | compileFileTo path _ _ | runFile path _ => some path

theorem Job.check_of_source {files files' : FileSystem} {job : Job} {c : Context}
    (h : ∀ path, job.source? = some path → files'.isFile path = files.isFile path) :
    job.check files' c = job.check files c := by
  cases job with
  | compileSourceTo => rfl
  | compileFileTo path => rw [check_compileFileTo, check_compileFileTo, h path rfl]
  | runFile path => rw [check_runFile, check_runFile, h path rfl]

/-- What is returned, but for what a program that was run has returned. -/
def Value.blank : Value → Value
  | status _ => .status 0
  | v => v

section Determined

variable {manner : Manner} {past : List Request} {c c' d' : Context} {ds ds' : List Deed}
  {r r' : Except BindError Value}

namespace Context.FixesType

theorem determined (hf : c.FixesType ds c') (hf' : c.FixesType ds' d')
    (ha : manner.Answers past ds) (ha' : manner.Answers past ds') : ds' = ds ∧ d' = c' := by
  cases hf with
  | known hc =>
    cases hf' with
    | known => exact ⟨rfl, rfl⟩
    | sent _ hn => exact Bool.noConfusion (hc.symm.trans hn)
  | sent answer hc =>
    cases hf' with
    | known hn => exact Bool.noConfusion (hn.symm.trans hc)
    | sent =>
      cases ha.1
      cases ha'.1
      exact ⟨rfl, rfl⟩

/-- A type that is fixed has not been refused. -/
theorem not_refused (hf : c.FixesType ds c') (ha : manner.Answers past ds)
    {answer : Answer} (hc : c.typeFixed = false) (hs : answer.status < 0) :
    ¬manner.Answers past [.called (.setOutputType c.outputType.code) answer] := by
  intro hrefused
  cases hf with
  | known hn => exact Bool.noConfusion (hn.symm.trans hc)
  | sent answer' _ hs' =>
    cases ha.1
    cases hrefused.1
    exact Int32.not_lt.2 hs' hs

/-- What is asked once the type is known is answered the same. -/
theorem determined_call (mid : Context → List Deed) {request : Request} {answer answer' : Answer}
    (hf : c.FixesType ds c') (hf' : c.FixesType ds' d')
    (ha : manner.Answers past (ds ++ (mid c' ++ [.called request answer])))
    (ha' : manner.Answers past (ds' ++ (mid d' ++ [.called request answer']))) :
    ds' = ds ∧ d' = c' ∧ answer' = answer := by
  rw [Manner.answers_append] at ha ha'
  obtain ⟨rfl, rfl⟩ := hf.determined hf' ha.1 ha'.1
  have hcall := (manner.answers_append.1 ha.2).2
  have hcall' := (manner.answers_append.1 ha'.2).2
  exact ⟨rfl, rfl, hcall'.1.trans hcall.1.symm⟩

end Context.FixesType

/-- What a task does is decided by the answers. -/
theorem Task.Does.determined {task : Task} (hd : task.Does c ds r c') (hd' : task.Does c ds' r' d')
    (ha : manner.Answers past ds) (ha' : manner.Answers past ds') :
    ds' = ds ∧ d' = c' ∧ r'.map Value.blank = r.map Value.blank := by
  cases hd with
  | sinkInstalled | hookInstalled | typeChosen | typeKept =>
    cases hd' with
    | typeRefused _ ht => exact Bool.noConfusion ht
    | _ => exact ⟨rfl, rfl, rfl⟩
  | configured | configureRefused | injected | injectionRefused | sized | relocated
  | relocationFailed | emitted | emissionFailed | lookedUp | disposed =>
    -- one call on each side, with the same answer: it grants both or neither
    cases hd' <;> simp_all [Manner.Answers, Task.needsType] <;> grind
  | ran =>
    cases hd' <;> simp_all [Manner.Answers, Task.needsType]
    rfl
  | noMain => cases hd' <;> simp_all [Manner.Answers, Task.needsType]
  | typeRefused answer ht hc hs =>
    cases hd' with
    | typeRefused =>
      cases ha.1
      cases ha'.1
      exact ⟨rfl, rfl, rfl⟩
    | libraryAdded hf | libraryRefused hf | compiled hf | compileFailed hf =>
      exact absurd ha (hf.not_refused (manner.answers_append.1 ha').1 hc hs)
    | _ => exact Bool.noConfusion ht
  | libraryAdded hf answer hs | libraryRefused hf answer hs =>
    cases hd' with
    | typeRefused _ _ hc hs' =>
      exact absurd ha' (hf.not_refused (manner.answers_append.1 ha).1 hc hs')
    | libraryAdded hf' _ hs' | libraryRefused hf' _ hs' =>
      obtain ⟨rfl, rfl, rfl⟩ := hf.determined_call (fun _ => []) hf' ha ha'
      first
        | exact ⟨rfl, rfl, rfl⟩
        | exact absurd hs' (by simpa using hs)
  | compiled hf answer hs | compileFailed hf answer hs =>
    cases hd' with
    | typeRefused _ _ hc hs' =>
      exact absurd ha' (hf.not_refused (manner.answers_append.1 ha).1 hc hs')
    | compiled hf' _ hs' | compileFailed hf' _ hs' =>
      obtain ⟨rfl, rfl, rfl⟩ := hf.determined_call Context.hookDeeds hf' ha ha'
      first
        | exact ⟨rfl, rfl, rfl⟩
        | exact absurd hs' (by simpa using hs)

theorem Operation.Does.determined {operation : Operation} (hd : operation.Does c ds r c')
    (hd' : operation.Does c ds' r' d') (ha : manner.Answers past ds)
    (ha' : manner.Answers past ds') :
    ds' = ds ∧ d' = c' ∧ r'.map Value.blank = r.map Value.blank := by
  cases hd with
  | refused hc =>
    cases hd' with
    | refused hc' =>
      cases hc.symm.trans hc'
      exact ⟨rfl, rfl, rfl⟩
    | performed hc' => exact nomatch hc.symm.trans hc'
  | performed hc hd =>
    cases hd' with
    | refused hc' => exact nomatch hc.symm.trans hc'
    | performed hc' hd' =>
      cases hc.symm.trans hc'
      exact hd.determined hd' ha ha'

/-- A row is decided operation by operation, each after the answers to those before. -/
theorem Operation.DoAll.determined {operations : List Operation} (hd : DoAll c operations ds r c')
    (hd' : DoAll c operations ds' r' d') (ha : manner.Answers past ds)
    (ha' : manner.Answers past ds') :
    ds' = ds ∧ d' = c' ∧ r'.map Value.blank = r.map Value.blank := by
  induction hd generalizing past ds' r' d' with
  | nil c =>
    cases hd'
    exact ⟨rfl, rfl, rfl⟩
  | last hd =>
    cases hd' with
    | last hd' => exact hd.determined hd' ha ha'
  | stop hd =>
    cases hd' with
    | stop hd' => exact hd.determined hd' ha ha'
    | step hd' _ =>
      obtain ⟨_, _, hr⟩ := hd.determined hd' ha (manner.answers_append.1 ha').1
      exact nomatch hr
  | step hd _ ih =>
    rw [manner.answers_append] at ha
    cases hd' with
    | stop hd' =>
      obtain ⟨_, _, hr⟩ := hd.determined hd' ha.1 ha'
      exact nomatch hr
    | step hd' hrest' =>
      rw [manner.answers_append] at ha'
      obtain ⟨rfl, rfl, _⟩ := hd.determined hd' ha.1 ha'.1
      obtain ⟨rfl, rfl, hr⟩ := ih hrest' ha.2 ha'.2
      exact ⟨rfl, rfl, hr⟩

theorem Job.Does.determined {files files' : FileSystem} {job : Job}
    (hf : ∀ path, job.source? = some path → files'.isFile path = files.isFile path)
    (hd : job.Does files c ds r c') (hd' : job.Does files' c ds' r' d')
    (ha : manner.Answers past ds) (ha' : manner.Answers past ds') :
    ds' = ds ∧ d' = c' ∧ r'.map Value.blank = r.map Value.blank := by
  have hcheck : job.check files' c = job.check files c := Job.check_of_source hf
  cases hd with
  | refused hj =>
    cases hd' with
    | refused hj' =>
      cases hj.symm.trans (hcheck.symm.trans hj')
      exact ⟨rfl, rfl, rfl⟩
    | performed hj' => exact nomatch hj.symm.trans (hcheck.symm.trans hj')
  | performed hj hd =>
    cases hd' with
    | refused hj' => exact nomatch hj.symm.trans (hcheck.symm.trans hj')
    | performed _ hd' => exact hd.determined hd' ha ha'

theorem Context.Releases.determined (hr : c.Releases ds) (hr' : c.Releases ds')
    (ha : manner.Answers past ds) (ha' : manner.Answers past ds') : ds' = ds := by
  cases hr with
  | released hc =>
    cases hr' with
    | released => rfl
    | deleted _ hn => exact absurd hc hn
  | deleted answer hn =>
    cases hr' with
    | released hc => exact absurd hc hn
    | deleted answer' => rw [ha.1, ha'.1]

end Determined

end EmbeddedC
