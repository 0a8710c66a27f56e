import EmbeddedC.Proofs.Status
/-!
# Errands

Work that can be written down before it begins: errands to be run one after the other on a state, of
which the first that fails cuts off the rest. How the other side answers decides how far they get.
An action follows such a list if its deeds and its result are those of running the errands.
-/

namespace EmbeddedC

variable {σ ε δ α β : Type}

/-- One errand on a state. Its errors are those of whoever has it run. -/
inductive Errand (ε : Type) where
  | ask (request : Request)
  /-- A request that cannot be put into words. -/
  | stop (error : ε)
  /-- A source file must be there. -/
  | source (path : Path)
  /-- Code is looked up by its name and entered. -/
  | enter (name : CText) (arguments : Arguments) (missing : ε)

namespace Errand

def ofExcept : Except ε Request → Errand ε
  | .ok request => ask request
  | .error e => stop e

def map (f : ε → δ) : Errand ε → Errand δ
  | ask request => ask request
  | stop e => stop (f e)
  | source path => source path
  | enter name arguments missing => enter name arguments (f missing)

/-- What is asked for, if the errand gets so far. -/
def request? : Errand ε → Option Request
  | ask request => some request
  | enter name _ _ => some (.getSymbol name)
  | stop _ | source _ => none

/-- The output type is told right before the first request, unless it has been told. -/
def telling (told : Bool) (type : OutputType) : List (Errand ε) → List (Errand ε)
  | [] => []
  | ask request :: rest =>
    if told then ask request :: rest else ask (.setOutputType type.code) :: ask request :: rest
  | errand :: rest => errand :: telling told type rest

@[simp] theorem telling_told (type : OutputType) (errands : List (Errand ε)) :
    telling true type errands = errands := by
  induction errands with
  | nil => rfl
  | cons errand rest ih => cases errand <;> simp [telling, ih]

/-- Whether an errand, if it succeeds, has made a request that needs the type. -/
def asks : Errand ε → Bool
  | ask _ => true
  | _ => false

theorem telling_append (told : Bool) (type : OutputType) (errands more : List (Errand ε)) :
    telling told type (errands ++ more) =
      telling told type errands ++ telling (told || errands.any asks) type more := by
  induction errands with
  | nil => simp [telling]
  | cons errand rest ih => cases told <;> cases errand <;> simp_all [telling, asks]

theorem telling_cons (told : Bool) (type : OutputType) (errand : Errand ε)
    (rest : List (Errand ε)) :
    telling told type (errand :: rest) =
      telling told type [errand] ++ telling (told || errand.asks) type rest := by
  have h := telling_append told type [errand] rest
  simpa using h

theorem telling_map (f : ε → δ) (told : Bool) (type : OutputType) (errands : List (Errand ε)) :
    (telling told type errands).map (map f) = telling told type (errands.map (map f)) := by
  induction errands with
  | nil => rfl
  | cons errand rest ih => cases told <;> cases errand <;> simp_all [telling, map]

@[simp] theorem asks_map (f : ε → δ) (errand : Errand ε) : (errand.map f).asks = errand.asks := by
  cases errand <;> rfl

theorem ofExcept_map (f : ε → δ) (request : Except ε Request) :
    (ofExcept request).map f = ofExcept (request.mapError f) := by
  cases request <;> rfl

variable (compiler : Compiler σ) (wrap : BindError → ε)

/-- How an errand can end, with what has been done by then. A request fails with what its status
stands for, in the words of whoever has the errand run. -/
inductive Ends : Errand ε → List Deed → Except ε Unit → Prop
  | granted {request : Request} (answer : Answer)
    (h : (request.failure? answer.status).isSome → 0 ≤ answer.status) :
    Ends (ask request) [.called request answer] (.ok ())
  | refused {request : Request} (answer : Answer) {e : BindError}
    (h : request.failure? answer.status = some e) (ha : answer.status < 0) :
    Ends (ask request) [.called request answer] (.error (wrap e))
  | stopped (e : ε) : Ends (stop e) [] (.error e)
  | found {path : Path} (outside : σ) (h : (compiler.files outside).isFile path) :
    Ends (source path) [] (.ok ())
  | missing {path : Path} (outside : σ) (h : (compiler.files outside).isFile path = false) :
    Ends (source path) [] (.error (wrap (.io path .noSource)))
  | entered {name : CText} {arguments : Arguments} {e : ε} (answer : Answer) {address : Address}
    (h : answer.address.nonNull? = some address) :
    Ends (enter name arguments e)
      [.called (.getSymbol name) answer, .entered address arguments] (.ok ())
  | absent {name : CText} {arguments : Arguments} {e : ε} (answer : Answer)
    (h : answer.address.nonNull? = none) :
    Ends (enter name arguments e) [.called (.getSymbol name) answer] (.error e)

end Errand

/-- Errands run in order, up to the first that fails. -/
inductive Carries (compiler : Compiler σ) (wrap : BindError → ε) :
    List (Errand ε) → List Deed → Except ε Unit → Prop
  | done : Carries compiler wrap [] [] (.ok ())
  | cut {errand : Errand ε} {rest : List (Errand ε)} {ds : List Deed} {e : ε}
    (h : errand.Ends compiler wrap ds (.error e)) :
    Carries compiler wrap (errand :: rest) ds (.error e)
  | next {errand : Errand ε} {rest : List (Errand ε)} {ds ds' : List Deed} {r : Except ε Unit}
    (h : errand.Ends compiler wrap ds (.ok ())) (hr : Carries compiler wrap rest ds' r) :
    Carries compiler wrap (errand :: rest) (ds ++ ds') r

/-- The request that a deed makes, if it does. -/
def Deed.request? : Deed → Option Request
  | called request _ => some request
  | _ => none

namespace Carries

variable {compiler : Compiler σ} {wrap : BindError → ε} {errands more : List (Errand ε)}
  {ds ds' : List Deed} {r : Except ε Unit} {e : ε}

theorem one {errand : Errand ε} (h : errand.Ends compiler wrap ds r) :
    Carries compiler wrap [errand] ds r := by
  cases r with
  | error e => exact .cut h
  | ok u =>
    have := Carries.next h .done
    rwa [List.append_nil] at this

theorem append (h : Carries compiler wrap errands ds (.ok ()))
    (h' : Carries compiler wrap more ds' r) :
    Carries compiler wrap (errands ++ more) (ds ++ ds') r := by
  generalize hr : (.ok () : Except ε Unit) = done at h
  induction h with
  | done => exact h'
  | cut => exact nomatch hr
  | next hs _ ih =>
    rw [List.append_assoc]
    exact .next hs (ih hr)

theorem append_of_error (h : Carries compiler wrap errands ds (.error e))
    (more : List (Errand ε)) : Carries compiler wrap (errands ++ more) ds (.error e) := by
  generalize hr : (.error e : Except ε Unit) = failed at h
  induction h with
  | done => exact nomatch hr
  | cut hs => exact .cut hs
  | next hs _ ih => exact .next hs (ih hr)

theorem map (f : ε → δ) (h : Carries compiler wrap errands ds r) :
    Carries compiler (fun e => f (wrap e)) (errands.map (.map f)) ds (r.mapError f) := by
  have hends : ∀ {errand : Errand ε} {ds r}, errand.Ends compiler wrap ds r →
      (errand.map f).Ends compiler (fun e => f (wrap e)) ds (r.mapError f) := by
    intro errand ds r hs
    cases hs with
    | granted answer h => exact .granted answer h
    | refused answer h ha => exact .refused answer h ha
    | stopped e => exact .stopped (f e)
    | found outside h => exact .found outside h
    | missing outside h => exact .missing outside h
    | entered answer h => exact .entered answer h
    | absent answer h => exact .absent answer h
  induction h with
  | done => exact .done
  | cut hs => exact .cut (hends hs)
  | next hs _ ih => exact .next (hends hs) ih

/-- What goes wrong goes wrong with one of the errands. -/
theorem exists_of_error (h : Carries compiler wrap errands ds (.error e)) :
    ∃ errand ∈ errands, ∃ ds, errand.Ends compiler wrap ds (.error e) := by
  generalize hr : (.error e : Except ε Unit) = failed at h
  induction h with
  | done => exact nomatch hr
  | cut hs =>
    cases hr
    exact ⟨_, .head _, _, hs⟩
  | next _ _ ih =>
    obtain ⟨errand, hmem, hfails⟩ := ih hr
    exact ⟨errand, .tail _ hmem, hfails⟩

/-- What is done is done for one of the errands. -/
theorem exists_of_mem (h : Carries compiler wrap errands ds r) {d : Deed} (hd : d ∈ ds) :
    ∃ errand ∈ errands, ∃ ds r, errand.Ends compiler wrap ds r ∧ d ∈ ds := by
  induction h with
  | done => exact absurd hd List.not_mem_nil
  | cut hs => exact ⟨_, .head _, _, _, hs, hd⟩
  | next hs _ ih =>
    rcases List.mem_append.1 hd with hd | hd
    · exact ⟨_, .head _, _, _, hs, hd⟩
    · obtain ⟨errand, hmem, hends⟩ := ih hd
      exact ⟨errand, .tail _ hmem, hends⟩

private theorem requests_of_ends {errand : Errand ε} (h : errand.Ends compiler wrap ds r) :
    ds.filterMap Deed.request? = errand.request?.toList := by
  cases h <;> rfl

private theorem filterMap_request?_cons (errand : Errand ε) (rest : List (Errand ε)) :
    (errand :: rest).filterMap Errand.request? =
      errand.request?.toList ++ rest.filterMap Errand.request? := by
  cases hr : errand.request? <;> simp [hr]

/-- Requests are made in the order of the errands, none twice and none besides. -/
theorem requests_prefix (h : Carries compiler wrap errands ds r) :
    ds.filterMap Deed.request? <+: errands.filterMap Errand.request? := by
  induction h with
  | done => exact List.prefix_rfl
  | cut hs =>
    rw [filterMap_request?_cons, requests_of_ends hs]
    exact List.prefix_append _ _
  | next hs _ ih =>
    rw [filterMap_request?_cons, List.filterMap_append, requests_of_ends hs]
    exact (List.prefix_append_right_inj _).2 ih

/-- Where nothing fails every request is made. -/
theorem requests_of_ok (h : Carries compiler wrap errands ds (.ok ())) :
    ds.filterMap Deed.request? = errands.filterMap Errand.request? := by
  generalize hr : (.ok () : Except ε Unit) = done at h
  induction h with
  | done => rfl
  | cut => exact nomatch hr
  | next hs _ ih =>
    rw [List.filterMap_append, ih hr, requests_of_ends hs, filterMap_request?_cons]

/-- Requests that can all be made and are all granted are all made. -/
theorem of_granted (h : Carries compiler wrap errands ds r)
    (hask : ∀ errand ∈ errands, ∃ request, errand = .ask request)
    (hgrant : ∀ request answer, .called request answer ∈ ds →
      (request.failure? answer.status).isSome → 0 ≤ answer.status) :
    r = .ok () ∧ ds.filterMap Deed.request? = errands.filterMap Errand.request? := by
  have hok : r = .ok () := by
    induction h with
    | done => rfl
    | cut hs =>
      obtain ⟨request, rfl⟩ := hask _ (.head _)
      cases hs with
      | refused answer hf ha =>
        have hnonneg := hgrant request answer (.head _) (by simp [hf])
        exact absurd ha (Int32.not_lt.2 hnonneg)
    | next _ _ ih =>
      exact ih (fun errand he => hask errand (.tail _ he))
        (fun request answer hm => hgrant request answer (List.mem_append_right _ hm))
  subst hok
  exact ⟨rfl, h.requests_of_ok⟩

end Carries

/-- An outcome that comes of running errands on one state, which is kept. -/
structure Outcome.Follows (compiler : Compiler σ) (wrap : BindError → ε) (handle : Handle)
    (o : Outcome Event (Live σ) ε α) (errands : List (Errand ε))
    (post : List Deed → α → Context → Prop) : Prop where
  carried : Carries compiler wrap errands (deeds handle o.events) (o.result.map fun _ => ())
  post : ∀ a, o.result = .ok a → post (deeds handle o.events) a o.state.context
  holds : o.state.context.handle? = some handle
  keeps : ∀ e ∈ o.events, e.Keeps handle

/-- From a context `c`, whatever the world, the action comes to running the errands. If all of them
succeed, so does the action, and what it leaves meets the postcondition. -/
def Action.Follows (compiler : Compiler σ) (wrap : BindError → ε) (handle : Handle)
    (x : Action Event (Live σ) ε α) (c : Context) (errands : List (Errand ε))
    (post : List Deed → α → Context → Prop) : Prop :=
  ∀ w : World σ, (x ⟨c, w⟩).Follows compiler wrap handle errands post

namespace Action.Follows

variable {compiler : Compiler σ} {wrap : BindError → ε} {handle : Handle} {c : Context}
  {errands more : List (Errand ε)} {post : List Deed → α → Context → Prop}

theorem mono {x : Action Event (Live σ) ε α} {mid : List Deed → α → Context → Prop}
    (hx : Follows compiler wrap handle x c errands mid)
    (h : ∀ ds a c', mid ds a c' → post ds a c') :
    Follows compiler wrap handle x c errands post := fun w =>
  ⟨(hx w).carried, fun a ha => h _ _ _ ((hx w).post a ha), (hx w).holds, (hx w).keeps⟩

theorem pure (hc : c.handle? = some handle) {a : α} (h : post [] a c) :
    Follows compiler wrap handle (Pure.pure a) c [] post := by
  intro w
  refine ⟨.done, ?_, hc, by simp [Pure.pure, Action.pure]⟩
  intro b hb
  cases hb
  exact h

theorem emit (hc : c.handle? = some handle) {events : List Event} (hq : ∀ e ∈ events, e.isQuiet)
    {post : List Deed → Unit → Context → Prop} (h : post [] () c) :
    Follows compiler wrap handle (Action.emit events) c [] post := by
  intro w
  have hdeeds := deeds_of_quiet hq handle
  refine ⟨?_, ?_, hc, fun e he => Event.keeps_of_isQuiet (hq e he) handle⟩
  · simp only [Action.emit, hdeeds]
    exact .done
  · intro a _
    simp only [Action.emit, hdeeds]
    exact h

theorem stop (hc : c.handle? = some handle) (e : ε) :
    Follows compiler wrap handle (Action.ofExcept (.error e)) c [.stop e] post := by
  intro w
  exact ⟨.one (.stopped e), by simp [Action.ofExcept], hc, by simp [Action.ofExcept]⟩

theorem bind {x : Action Event (Live σ) ε α} {f : α → Action Event (Live σ) ε β}
    {mid : List Deed → α → Context → Prop} {post : List Deed → β → Context → Prop}
    (hx : Follows compiler wrap handle x c errands mid)
    (hf : ∀ ds a c', mid ds a c' → c'.handle? = some handle →
      Follows compiler wrap handle (f a) c' more fun ds' b c'' => post (ds ++ ds') b c'') :
    Follows compiler wrap handle (x >>= f) c (errands ++ more) post := by
  intro w
  obtain ⟨hcarried, hpost, hholds, hkeeps⟩ := hx w
  simp only [Bind.bind, Action.bind]
  rcases ho : x ⟨c, w⟩ with ⟨r, ⟨c', w'⟩, events⟩
  rw [ho] at hcarried hpost hholds hkeeps
  cases r with
  | error e => exact ⟨hcarried.append_of_error more, (by simp), hholds, hkeeps⟩
  | ok a =>
    obtain ⟨hcarried', hpost', hholds', hkeeps'⟩ := hf _ a c' (hpost a rfl) hholds w'
    refine ⟨?_, ?_, hholds', ?_⟩
    · rw [deeds_append]
      exact hcarried.append hcarried'
    · rw [deeds_append]
      exact hpost'
    · intro e he
      exact (List.mem_append.1 he).elim (hkeeps e) (hkeeps' e)

/-- Work that comes to no errand at all. -/
theorem bind_idle {x : Action Event (Live σ) ε α} {f : α → Action Event (Live σ) ε β}
    {mid : List Deed → α → Context → Prop} {post : List Deed → β → Context → Prop}
    (hx : Follows compiler wrap handle x c [] mid)
    (hf : ∀ ds a c', mid ds a c' → c'.handle? = some handle →
      Follows compiler wrap handle (f a) c' more fun ds' b c'' => post (ds ++ ds') b c'') :
    Follows compiler wrap handle (x >>= f) c more post :=
  bind hx hf

theorem bind_last {x : Action Event (Live σ) ε α} {f : α → Action Event (Live σ) ε β}
    {mid : List Deed → α → Context → Prop} {post : List Deed → β → Context → Prop}
    (hx : Follows compiler wrap handle x c errands mid)
    (hf : ∀ ds a c', mid ds a c' → c'.handle? = some handle →
      Follows compiler wrap handle (f a) c' [] fun ds' b c'' => post (ds ++ ds') b c'') :
    Follows compiler wrap handle (x >>= f) c errands post := by
  have h := bind hx hf
  rwa [List.append_nil] at h

theorem get_bind {f : Live σ → Action Event (Live σ) ε α}
    (h : ∀ w, Follows compiler wrap handle (f ⟨c, w⟩) c errands post) :
    Follows compiler wrap handle (Action.get >>= f) c errands post := by
  intro w
  have := h w w
  simpa [Bind.bind, Action.bind, Action.get] using this

theorem source (hc : c.handle? = some handle) (w : World σ) (path : Path) :
    Follows compiler wrap handle
      (Action.ofExcept (if (w.files compiler).isFile path then .ok ()
        else .error (wrap (.io path .noSource)))) c [.source path] fun _ _ c' => c' = c := by
  intro v
  cases h : (w.files compiler).isFile path with
  | true => exact ⟨.one (.found w.outside h), fun _ _ => rfl, hc, by simp [Action.ofExcept]⟩
  | false =>
    exact ⟨.one (.missing w.outside h), by simp [Action.ofExcept], hc, by simp [Action.ofExcept]⟩

theorem ofExcept_bind {a : α} {f : α → Action Event (Live σ) ε β}
    {post : List Deed → β → Context → Prop}
    (h : Follows compiler wrap handle (f a) c errands post) :
    Follows compiler wrap handle (Action.ofExcept (.ok a) >>= f) c errands post := by
  intro w
  have := h w
  simpa [Bind.bind, Action.bind, Action.ofExcept] using this

/-- An action goes on failing in other words. -/
theorem mapError {x : Action Event (Live σ) ε α} (f : ε → δ)
    (hx : Follows compiler wrap handle x c errands post) :
    Follows compiler (fun e => f (wrap e)) handle (x.mapError f) c (errands.map (.map f)) post := by
  intro w
  obtain ⟨hcarried, hpost, hholds, hkeeps⟩ := hx w
  have hmap : ((x ⟨c, w⟩).result.map fun _ => ()).mapError f =
      (((x ⟨c, w⟩).result.mapError f).map fun _ => ()) := by
    cases (x ⟨c, w⟩).result <;> rfl
  refine ⟨hmap ▸ hcarried.map f, ?_, hholds, hkeeps⟩
  intro a ha
  apply hpost
  cases hr : (x ⟨c, w⟩).result with
  | error e =>
    simp only [Action.mapError, hr] at ha
    exact nomatch ha
  | ok b =>
    simp only [Action.mapError, hr] at ha
    rw [Except.ok.inj ha]

theorem of_yields {x : ContextAction σ α} {errands : List (Errand BindError)}
    {mid : List Deed → Except BindError α → Context → Prop} (hx : x.Yields handle c mid)
    (h : ∀ ds r c', mid ds r c' → Carries compiler id errands ds (r.map fun _ => ()) ∧
      (∀ a, r = .ok a → post ds a c') ∧ c'.handle? = some handle) :
    Follows compiler id handle x c errands post := by
  intro w
  obtain ⟨hmid, hkeeps, _⟩ := hx w
  obtain ⟨hcarried, hpost, hholds⟩ := h _ _ _ hmid
  exact ⟨hcarried, hpost, hholds, hkeeps⟩

end Action.Follows

end EmbeddedC
