import EmbeddedC.Proofs.Diagnostics
import EmbeddedC.Proofs.OperationSequence
/-!
# What has been performed

The turns of a session tell which operations a context has been asked for and has performed. That
alone decides what is attached to it and what is recorded in it: jobs and configs change neither,
and what fails leaves both as they were.
-/

namespace EmbeddedC

variable {σ : Type}

/-- The operation that a turn has performed on the context of an index. -/
def Turn.performed? (index : Nat) (t : Turn) : Option Operation :=
  match t.move, t.result with
  | .perform i operation, .ok _ => if i = index then some operation else none
  | _, _ => none

/-- All operations performed on the context of an index, one by one and in order. -/
def performedOn (index : Nat) (turns : List Turn) : List Operation :=
  turns.filterMap (Turn.performed? index)

theorem performedOn_append (index : Nat) (turns more : List Turn) :
    performedOn index (turns ++ more) = performedOn index turns ++ performedOn index more :=
  List.filterMap_append

theorem performedOn_of_none {index : Nat} {t : Turn} (ht : t.performed? index = none) :
    performedOn index [t] = [] := by
  simp [performedOn, ht]

/-- A statement about what a context holds, given the operations performed on it so far. -/
structure Account (I : Context → List Operation → Prop) : Prop where
  fresh : ∀ table handle, I (.fresh table handle) []
  performed : ∀ {c c' : Context} {past : List Operation} {operation : Operation} {ds : List Deed}
    {value : Value}, I c past → operation.Does c ds (.ok value) c' → I c' (past ++ [operation])
  retained : ∀ {c c' : Context} {past : List Operation}, I c past → c.Retains c' → I c' past

namespace Session

/-- Where a context that is held after a turn has come from. -/
inductive Holds (s : Session σ) (t : Turn) (i : Nat) : Context → Prop
  | retained {d c : Context} (hi : s.context? i = some d) (ht : t.performed? i = none)
    (hr : d.Retains c) : s.Holds t i c
  | performed {d c : Context} {operation : Operation} {ds : List Deed} {value : Value}
    (hi : s.context? i = some d) (ht : t.performed? i = some operation)
    (hd : operation.Does d ds (.ok value) c) : s.Holds t i c
  | opened {c : Context} (hi : i = s.contexts.length) (ht : t.performed? i = none)
    (hr : (Context.fresh s.toolchain.table s.world.channels.length).Retains c) : s.Holds t i c

section Holds

variable (compiler : Compiler σ) {s : Session σ}

private theorem holds_idle {t : Turn} {s' : Session σ} {i : Nat} {c : Context}
    (ht : t.performed? i = none) (hc : s'.contexts = s.contexts) (hi : s'.context? i = some c) :
    s.Holds t i c := by
  have hi' : s.context? i = some c := by rwa [context?, ← hc]
  exact .retained hi' ht (.refl c)

private theorem holds_openContext (bare : Bool) {i : Nat} {c : Context}
    (hi : (s.openContext compiler bare).state.context? i = some c) :
    s.Holds (s.turn compiler (.openContext bare)) i c := by
  have hbegins := s.begins_openContext compiler bare
  generalize s.openContext compiler bare = o at hbegins hi
  cases hbegins with
  | failed _ hc | abandoned _ _ _ _ hc => exact holds_idle rfl hc hi
  | opened _ _ hd _ hc =>
    rw [context?_append hc] at hi
    split at hi
    · next hlength =>
      cases hi
      refine .opened hlength rfl (hd.retains ?_)
      cases bare with
      | true => simp
      | false => exact fun _ => Toolchain.isRoutine_of_mem
    · exact .retained hi rfl (.refl c)

private theorem holds_on {t : Turn} {j : Nat} {x : ContextAction σ Value} {i : Nat} {c : Context}
    (ht : i ≠ j → t.performed? i = none)
    (hx : ∀ d, s.context? i = some d → i = j → s.Holds t i (x ⟨d, s.world⟩).state.context)
    (hi : (s.on j x).state.context? i = some c) : s.Holds t i c := by
  unfold on at hi
  cases hj : s.context? j with
  | none =>
    rw [hj] at hi
    have hi' : s.context? i = some c := hi
    have hij : i ≠ j := by
      rintro rfl
      exact nomatch hj.symm.trans hi'
    exact .retained hi' (ht hij) (.refl c)
  | some d =>
    rw [hj] at hi
    rw [context?_set hj rfl] at hi
    by_cases hij : i = j
    · rw [if_pos hij] at hi
      cases hi
      subst hij
      exact hx d hj rfl
    · rw [if_neg hij] at hi
      exact .retained hi (ht hij) (.refl c)

private theorem holds_perform (hs : ∀ i c, s.context? i = some c → c.Coherent) (j : Nat)
    (operation : Operation) {i : Nat} {c : Context}
    (hi : (s.on j (operation.perform compiler)).state.context? i = some c) :
    s.Holds (s.turn compiler (.perform j operation)) i c := by
  refine holds_on (fun hij => ?_) (fun d hd hij => ?_) hi
  · unfold Turn.performed?
    split
    · next k o _ hm _ =>
      cases hm
      rw [if_neg (Ne.symm hij)]
    · rfl
  · subst hij
    have hdone := (operation.yields_perform compiler (hs i d hd) s.world).post
    have hresult : (s.turn compiler (.perform i operation)).result =
        ((operation.perform compiler ⟨d, s.world⟩).result.map .value).mapError .bind := by
      simp [turn, move, on, hd]
    cases hr : (operation.perform compiler ⟨d, s.world⟩).result with
    | error e =>
      rw [hr] at hdone hresult
      refine .retained hd ?_ (hdone.retains (.inr ⟨e, rfl⟩))
      unfold Turn.performed?
      rw [hresult]
      rfl
    | ok value =>
      rw [hr] at hdone hresult
      refine .performed hd ?_ hdone
      unfold Turn.performed?
      rw [hresult]
      exact if_pos rfl

/-- A context that is held after a move is as it was before as far as what it holds goes, or an
operation has been performed on it, or it is new. -/
theorem holds_move (hs : ∀ i c, s.context? i = some c → c.Coherent) (m : Move) {i : Nat}
    {c : Context} (hi : (move compiler m s).state.context? i = some c) :
    s.Holds (s.turn compiler m) i c := by
  cases m with
  | openContext bare => exact holds_openContext compiler bare hi
  | drop j =>
    simp only [move, drop] at hi
    cases hj : s.context? j with
    | none =>
      rw [hj] at hi
      exact holds_idle rfl rfl hi
    | some d =>
      rw [hj] at hi
      rw [context?_set hj rfl] at hi
      split at hi
      · cases hi
      · exact .retained hi rfl (.refl c)
  | perform j operation => exact holds_perform compiler hs j operation hi
  | runJob j job =>
    refine holds_on (fun _ => rfl) (fun d hd _ => ?_) hi
    have hdone := (job.does_perform compiler (hs i d hd) s.world).post
    exact .retained hd rfl hdone.retains
  | enter | outside => exact holds_idle rfl rfl hi

end Holds

private theorem performed?_lt {compiler : Compiler σ} {s : Session σ} {m : Move} {i : Nat}
    {operation : Operation} (h : (s.turn compiler m).performed? i = some operation) :
    i < s.contexts.length := by
  unfold Turn.performed? turn at h
  split at h
  · next j o value hm hr =>
    cases hm
    split at h
    · next hj =>
      subst hj
      apply Nat.lt_of_not_le
      intro hge
      have hnone : s.context? j = none := by
        simp [context?, List.getElem?_eq_none hge]
      simp [move, on, hnone] at hr
    · cases h
  · cases h

variable (compiler : Compiler σ) {I : Context → List Operation → Prop} {s : Session σ}

/-- A session whose contexts are accounted for by its turns so far. -/
structure Accounts (I : Context → List Operation → Prop) (s : Session σ) (past : List Turn) :
    Prop where
  held : ∀ i c, s.context? i = some c → I c (performedOn i past)
  unheld : ∀ i, s.contexts.length ≤ i → performedOn i past = []

theorem Accounts.empty (toolchain : Toolchain) (w : World σ) :
    Accounts I ⟨toolchain, w, []⟩ [] where
  held := by simp [context?]
  unheld := fun _ _ => rfl

theorem Accounts.move (hI : Account I) {past : List Turn} (h : s.Accounts I past)
    (hs : ∀ i c, s.context? i = some c → c.Coherent) (m : Move) :
    (Session.move compiler m s).state.Accounts I (past ++ [s.turn compiler m]) := by
  constructor
  · intro i c hi
    rw [performedOn_append]
    cases holds_move compiler hs m hi with
    | retained hd ht hr =>
      rw [performedOn_of_none ht, List.append_nil]
      exact hI.retained (h.held i _ hd) hr
    | @performed d c operation ds value hd ht hdone =>
      have hone : performedOn i [s.turn compiler m] = [operation] := by simp [performedOn, ht]
      rw [hone]
      exact hI.performed (h.held i d hd) hdone
    | opened hlength ht hr =>
      rw [performedOn_of_none ht, h.unheld i (Nat.le_of_eq hlength.symm)]
      exact hI.retained (hI.fresh _ _) hr
  · intro i hi
    have hle := Nat.le_trans (leads_move compiler m s hs).contexts hi
    have hnone : (s.turn compiler m).performed? i = none := by
      apply Option.eq_none_iff_forall_ne_some.2
      intro operation hsome
      exact Nat.not_lt.2 hle (performed?_lt hsome)
    rw [performedOn_append, performedOn_of_none hnone, h.unheld i hle, List.append_nil]

theorem Accounts.play (hI : Account I) {past : List Turn} {events : List Event}
    (h : s.Accounts I past) (hs : s.Obeys Context.Tracks (fun _ => True) events)
    (moves : List Move) :
    (s.play compiler moves).1.Accounts I (past ++ s.turns compiler moves) := by
  induction moves generalizing s past events with
  | nil => simpa [Session.play, turns] using h
  | cons m rest ih =>
    have := ih (h.move compiler hI hs.coherent m) (hs.move compiler law_tracks m)
    rwa [List.append_assoc] at this

end Session

/-- What holds of contexts whenever operations are performed holds of every session. -/
theorem Account.play (compiler : Compiler σ) {I : Context → List Operation → Prop}
    (hI : Account I) (toolchain : Toolchain) (w : World σ) (moves : List Move) {i : Nat}
    {c : Context} :
    let start : Session σ := ⟨toolchain, w, []⟩
    (start.play compiler moves).1.context? i = some c →
      I c (performedOn i (start.turns compiler moves)) := by
  intro start hi
  have hs : start.Obeys Context.Tracks (fun _ => True) [] := .empty law_tracks toolchain w
  have hstart : start.Accounts I [] := .empty toolchain w
  exact (hstart.play compiler hI hs moves).held i c hi

end EmbeddedC
