import EmbeddedC.Proofs.ContextRecord
/-!
# Timely deeds

Each deed is done at a time of its own: on a context that is ready for it and knows its past. So a
rule about what may follow what holds all through a session if it holds of timely deeds.
-/

namespace EmbeddedC

/-- The contexts that a deed is ever done from, creation and its error function apart. -/
def Deed.Timely (c : Context) : Deed → Prop
  | hookRan _ | called (.addLibrary _) _ | called (.compile _) _ => c.stage.isOpen ∧ c.typeFixed
  | called (.configure _) _ | called (.addSymbol _ _) _ => c.stage.isOpen
  | called (.setOutputType code) _ =>
    c.stage.isOpen ∧ c.typeFixed = false ∧ code = c.outputType.code
  | called (.relocate _) _ => c.Relocatable
  | called (.getSymbol _) _ | entered _ _ => c.stage.isRelocated
  | called (.outputFile _) _ => c.relocateAttempted = false ∧ c.outputType.isFile ∧
    (c.stage = .compiled ∨ c.stage = .finalized .emitted)
  | called .delete _ => c.stage ≠ .disposed
  | created | called .setErrorFunc _ | called (.run _) _ => False

/-- A rule that timely deeds keep to. -/
def Rules (rule : List Deed → Deed → Prop) : Prop :=
  ∀ {past c d}, c.Tracks past → d.Timely c → rule past d

variable {rule : List Deed → Deed → Prop}

namespace Context.Tracks

variable {c c' : Context} {ds ds' : List Deed}

private theorem heeds_fixType (hrule : Rules rule) (h : c.Tracks ds) (ho : c.stage.isOpen)
    (hf : c.FixesType ds' c') (hs : Heeds rule ds) : Heeds rule (ds ++ ds') := by
  cases hf with
  | known => rwa [List.append_nil]
  | sent _ hc => exact heeds_append_singleton.2 ⟨hs, hrule h ⟨ho, hc, rfl⟩⟩

private theorem heeds_hook (hrule : Rules rule) (h : c.Tracks ds) (ho : c.stage.isOpen)
    (hf : c.typeFixed) (hs : Heeds rule ds) : Heeds rule (ds ++ c.hookDeeds) := by
  unfold hookDeeds
  cases c.hook? with
  | none => rwa [Option.map_none, Option.toList_none, List.append_nil]
  | some hook => exact heeds_append_singleton.2 ⟨hs, hrule h ⟨ho, hf⟩⟩

private theorem heeds_task (hrule : Rules rule) (h : c.Tracks ds) (hs : Heeds rule ds)
    {task : Task} {r : Except BindError Value} (ht : task.Timely c) (hd : task.Does c ds' r c') :
    Heeds rule (ds ++ ds') := by
  -- tasks of two or three deeds are taken apart: each deed finds a context that knows the one before
  have snoc : ∀ {c ds d}, c.Tracks ds → Heeds rule ds → d.Timely c → Heeds rule (ds ++ [d]) :=
    fun h hs hd => heeds_append_singleton.2 ⟨hs, hrule h hd⟩
  cases hd with
  | sinkInstalled | hookInstalled | typeChosen | typeKept => rwa [List.append_nil]
  | typeRefused _ hn hc => exact snoc h hs ⟨ht.isOpen hn, hc, rfl⟩
  | libraryAdded hf | libraryRefused hf =>
    rw [← List.append_assoc]
    exact snoc (h.fixType hf) (heeds_fixType hrule h ht hf hs) ⟨hf.isOpen ht, hf.typeFixed⟩
  | compiled hf | compileFailed hf =>
    have hready := And.intro (hf.isOpen ht) hf.typeFixed
    have hs' := heeds_fixType hrule h ht hf hs
    rw [← List.append_assoc, ← List.append_assoc]
    exact snoc (h.fixType hf).hook (heeds_hook hrule (h.fixType hf) hready.1 hready.2 hs') hready
  | ran answer =>
    have h' := h.plain (d := .called (.getSymbol ContextAction.mainName) answer) rfl
    rw [List.append_cons]
    exact snoc h' (snoc h hs ht.2) ht.2
  | noMain => exact snoc h hs ht.2
  | injected | injectionRefused => exact snoc h hs ht.1
  | configured | configureRefused | sized | relocated
  | relocationFailed | lookedUp | emitted | emissionFailed | disposed => exact snoc h hs ht

end Context.Tracks

/-- Contexts know their past and keep to the rule, and so did those that are gone. -/
theorem Rules.law (hrule : Rules rule) (hcreated : rule [] .created)
    (hfirst : ∀ answer, rule [.created] (.called .setErrorFunc answer)) :
    Law (fun c ds => c.Tracks ds ∧ Heeds rule ds) (Heeds rule) where
  idle := heeds_nil
  fresh table handle answer := by
    have hs : Heeds rule ([] ++ [.created]) := heeds_append_singleton.2 ⟨heeds_nil, hcreated⟩
    exact ⟨.fresh table handle answer, heeds_append_singleton.2 ⟨hs, hfirst answer⟩⟩
  task := fun _ ⟨h, hs⟩ ht hd => ⟨h.task ht hd, h.heeds_task hrule hs ht hd⟩
  release := by
    rintro c ds ds' hc ⟨h, hs⟩ hr
    cases hr with
    | released => rwa [List.append_nil]
    | deleted answer hn =>
      have hl : c.stage ≠ .disposed := fun hd => hn (hc.handle_eq_none_iff.2 hd)
      exact heeds_append_singleton.2 ⟨hs, hrule h hl⟩

end EmbeddedC
