import EmbeddedC.Proofs.ParallelRuns
/-!
# Runs seen through a map

A run seen through a map of the other side and through other sinks, with some of its events left out.
Two things are seen this way: that nothing is lost by keeping a record of all exchanges with the other
side, and what a run would be like if no sink ever panicked.
-/

namespace EmbeddedC

variable {σ τ : Type}

def Channel.withSink (g : Sink → Sink) (c : Channel) : Channel :=
  { c with sink? := c.sink?.map g }

/-- A way to see sinks: by the same tags, with their panics shown or hidden. -/
structure Views (g : Sink → Sink) (shows : Event → Bool) : Prop where
  tag : ∀ sink, (g sink).tag = sink.tag
  others : ∀ e, (∀ text, e ≠ .logged (.sinkPanicked text)) → shows e
  panics : ∀ sink text,
    (g sink).refuses text = (sink.refuses text && shows (.logged (.sinkPanicked text)))

namespace Views

variable {g : Sink → Sink} {shows : Event → Bool} (hv : Views g shows)
include hv

theorem note {e : Event} (he : e.isNote) : shows e := by
  apply hv.others
  rintro text rfl
  exact Bool.noConfusion he

theorem receive (c : Channel) (handle : Handle) (text : String) :
    (c.withSink g).receive handle text = (c.receive handle text).filter shows := by
  have hlogged : shows (.logged (.diagnostic text)) := hv.others _ (by simp)
  unfold Channel.receive Channel.withSink
  cases c.sink? with
  | none => simp [hlogged]
  | some sink =>
    have hdelivered : shows (.delivered handle sink.tag text) := hv.others _ (by simp)
    simp only [Option.map_some, hv.tag, hv.panics]
    cases sink.refuses text with
    | false => simp [hlogged, hdelivered]
    | true =>
      cases hp : shows (.logged (.sinkPanicked text)) <;> simp [hlogged, hdelivered, hp]

end Views

/-- The same other side, seen through a map. -/
structure Mirrors (f : σ → τ) (compiler : Compiler σ) (compiler' : Compiler τ) : Prop where
  files : ∀ s, compiler'.files (f s) = compiler.files s
  create : ∀ s, compiler'.create (f s) = ((compiler.create s).1, f (compiler.create s).2)
  call : ∀ handle request s, compiler'.call handle request (f s) =
    let o := compiler.call handle request s
    (o.1, o.2.1, f o.2.2)
  enter : ∀ address arguments s, compiler'.enter address arguments (f s) =
    let o := compiler.enter address arguments s
    (o.1, o.2.1, f o.2.2)

/-- A world and what is seen of it. -/
def Pairing.seen (f : σ → τ) (g : Sink → Sink) (shows : Event → Bool) : Pairing σ τ :=
  fun w es w' es' =>
    w' = { outside := f w.outside, channels := w.channels.map (·.withSink g) } ∧
      es' = es.filter shows

namespace Pairing

variable {f : σ → τ} {g : Sink → Sink} {shows : Event → Bool}

theorem seen_installs : (seen f g shows).Installs g := by
  rintro w es _ _ handle sink? ⟨rfl, rfl⟩
  refine ⟨?_, rfl⟩
  have hchannels : (w.channels.map (·.withSink g)).modify handle
        (fun c => { c with sink? := sink?.map g }) =
      (w.channels.modify handle fun c => { c with sink? }).map (·.withSink g) := by
    apply List.ext_getElem?
    intro i
    by_cases hi : handle = i <;> cases hc : w.channels[i]? <;>
      simp [hi, hc, Channel.withSink]
  simp [World.setSink, hchannels]

variable (hv : Views g shows)
include hv

theorem seen_note {w es} {w' : World τ} {es'} {e : Event} (he : e.isNote)
    (h : seen f g shows w es w' es') : seen f g shows w (es ++ [e]) w' (es' ++ [e]) := by
  obtain ⟨rfl, rfl⟩ := h
  exact ⟨rfl, by simp [hv.note he]⟩

theorem seen_message {w es} {w' : World τ} {es'} (handle : Handle) (text : CText)
    (h : seen f g shows w es w' es') :
    seen f g shows (w.message handle text).1 (es ++ (w.message handle text).2)
      (w'.message handle text).1 (es' ++ (w'.message handle text).2) := by
  obtain ⟨rfl, rfl⟩ := h
  have hsent : shows (.messaged handle text) := hv.others _ (by simp)
  unfold World.message World.channel?
  cases hc : w.channels[handle]? with
  | none => simp [hc, seen]
  | some c =>
    simp only [List.getElem?_map, hc, Option.map_some, hv.receive]
    refine ⟨?_, by simp [hsent]⟩
    simp [List.map_set, Channel.withSink]

theorem seen_absorbs : (seen f g shows).Absorbs :=
  Absorbs.of_messages (seen_note hv) (seen_message hv)

variable {compiler : Compiler σ} {compiler' : Compiler τ}

theorem seen_parallel (hm : Mirrors f compiler compiler') :
    Parallel compiler compiler' (seen f g shows) where
  channels := by
    rintro w es _ _ ⟨rfl, rfl⟩
    simp
  files := by
    rintro w es _ _ ⟨rfl, rfl⟩
    exact hm.files w.outside
  note := seen_note hv
  call := by
    rintro w es _ _ handle request ⟨rfl, rfl⟩ _
    have hcalled : ∀ answer, shows (.called (some handle) request answer) := by
      intro answer
      exact hv.others _ (by simp)
    have hseen : seen f g shows { w with outside := (compiler.call handle request w.outside).2.2 }
        (es ++ [.called (some handle) request (compiler.call handle request w.outside).1])
        { outside := f (compiler.call handle request w.outside).2.2
          channels := w.channels.map (·.withSink g) }
        (es.filter shows ++
          [.called (some handle) request (compiler.call handle request w.outside).1]) :=
      ⟨rfl, by simp [hcalled]⟩
    have := seen_absorbs hv (compiler.call handle request w.outside).2.1 hseen
    simp only [World.call, hm.call]
    refine ⟨trivial, ?_⟩
    rwa [List.append_assoc, List.append_assoc] at this
  enter := by
    rintro w es _ _ state? address arguments ⟨rfl, rfl⟩
    have hseen : seen f g shows
        { w with outside := (compiler.enter address arguments w.outside).2.2 } es
        { outside := f (compiler.enter address arguments w.outside).2.2
          channels := w.channels.map (·.withSink g) } (es.filter shows) := ⟨rfl, rfl⟩
    have := seen_absorbs hv (compiler.enter address arguments w.outside).2.1
      (seen_note hv (e := .entered state? address arguments) rfl hseen)
    simp only [World.enter, hm.enter]
    refine ⟨trivial, ?_⟩
    rwa [List.append_assoc, List.append_assoc] at this
  create := by
    rintro w es _ _ ⟨rfl, rfl⟩
    have hcreated : ∀ state?, shows (.created state?) := by
      intro state?
      exact hv.others _ (by simp)
    rcases hc : compiler.create w.outside with ⟨_ | _, outside⟩
    · simp [World.create, hm.create, hc, seen, hcreated]
    · simp [World.create, hm.create, hc, seen, hcreated, Channel.withSink]

end Pairing

/-- One exchange with the other side: what was asked, how it answered, what it sent meanwhile, and
the states it was found in and left in. -/
inductive Exchange (σ : Type) where
  | called (handle : Handle) (request : Request) (found : σ) (answer : Answer)
    (sent : List Emission) (left : σ)
  | entered (address : Address) (arguments : Arguments) (found : σ) (status : Int32)
    (sent : List Emission) (left : σ)

/-- The same compiler with a record of all exchanges beside it. -/
def Compiler.watched (compiler : Compiler σ) : Compiler (σ × List (Exchange σ)) where
  files s := compiler.files s.1
  create s := ((compiler.create s.1).1, (compiler.create s.1).2, s.2)
  call handle request s :=
    let (answer, sent, left) := compiler.call handle request s.1
    (answer, sent, left, s.2 ++ [.called handle request s.1 answer sent left])
  enter address arguments s :=
    let (status, sent, left) := compiler.enter address arguments s.1
    (status, sent, left, s.2 ++ [.entered address arguments s.1 status sent left])

theorem Compiler.watched_mirrors (compiler : Compiler σ) :
    Mirrors Prod.fst compiler.watched compiler :=
  ⟨fun _ => rfl, fun _ => rfl, fun _ _ _ => rfl, fun _ _ _ => rfl⟩

theorem Views.plain : Views id fun _ => true := by
  constructor <;> simp

namespace Session

variable (compiler : Compiler σ)

/-- A session about to be watched. -/
def watched (s : Session σ) : Session (σ × List (Exchange σ)) :=
  { s with world := { s.world with outside := (s.world.outside, []) } }

def unwatched (s : Session (σ × List (Exchange σ))) : Session σ :=
  { s with world := { s.world with outside := s.world.outside.1 } }

private theorem withSink_id (c : Channel) : c.withSink id = c := by
  simp [Channel.withSink]

private theorem move_withSink_id (m : Move) : m.withSink id = m := by
  cases m with
  | perform i operation => cases operation <;> rfl
  | _ => rfl

private theorem beside_unwatched {s : Session (σ × List (Exchange σ))} {s' : Session σ}
    {es es' : List Event} :
    s.Beside (Pairing.seen Prod.fst id fun _ => true) es s' es' ↔
      s' = s.unwatched ∧ es' = es ∧ ∀ i c, s.context? i = some c → c.Within s.world := by
  have hchannels : s.world.channels.map (·.withSink id) = s.world.channels := by
    simp [withSink_id]
  have hevents : es.filter (fun _ => true) = es := by simp
  constructor
  · rintro ⟨htoolchain, hcontexts, hwithin, hworld, hes⟩
    rw [hchannels] at hworld
    rw [hevents] at hes
    obtain ⟨t, v, cs⟩ := s'
    cases htoolchain
    cases hcontexts
    cases hworld
    exact ⟨rfl, hes, hwithin⟩
  · rintro ⟨rfl, rfl, hwithin⟩
    refine ⟨rfl, rfl, hwithin, ?_, hevents.symm⟩
    rw [hchannels]
    rfl

/-- Watching a run changes nothing about it. -/
theorem play_unwatched {s : Session (σ × List (Exchange σ))}
    (hs : ∀ i c, s.context? i = some c → c.Within s.world) (moves : List Move) :
    s.unwatched.play compiler moves =
      ((s.play compiler.watched moves).1.unwatched, (s.play compiler.watched moves).2) := by
  have hbeside : s.Beside (Pairing.seen Prod.fst id fun _ => true) [] s.unwatched [] :=
    beside_unwatched.2 ⟨rfl, rfl, hs⟩
  have hparallel := Pairing.seen_parallel Views.plain compiler.watched_mirrors
  have hplay := hbeside.play hparallel Pairing.seen_installs
    (Pairing.seen_absorbs Views.plain) moves
  have hmoves : moves.map (·.withSink id) = moves := by simp [move_withSink_id]
  rw [hmoves] at hplay
  obtain ⟨hstate, hevents, _⟩ := beside_unwatched.1 hplay
  exact Prod.ext hstate hevents

theorem move_unwatched {s : Session (σ × List (Exchange σ))}
    (hs : ∀ i c, s.context? i = some c → c.Within s.world) (m : Move) :
    let o := move compiler.watched m s
    move compiler m s.unwatched = ⟨o.result, o.state.unwatched, o.events⟩ := by
  intro o
  have hbeside : s.Beside (Pairing.seen Prod.fst id fun _ => true) [] s.unwatched [] :=
    beside_unwatched.2 ⟨rfl, rfl, hs⟩
  have hparallel := Pairing.seen_parallel Views.plain compiler.watched_mirrors
  obtain ⟨hresult, hmove⟩ := hbeside.move hparallel (g := id) m
    (fun _ _ _ _ => Pairing.seen_installs) (fun _ _ => Pairing.seen_absorbs Views.plain)
  rw [move_withSink_id] at hresult hmove
  obtain ⟨hstate, hevents, _⟩ := beside_unwatched.1 hmove
  simp only [List.nil_append] at hevents
  generalize move compiler m s.unwatched = o' at hresult hstate hevents
  obtain ⟨r, v, more⟩ := o'
  cases hresult
  cases hstate
  cases hevents
  rfl

/-- All exchanges with the other side during these moves, in order. -/
def exchanges (s : Session σ) (moves : List Move) : List (Exchange σ) :=
  (s.watched.play compiler.watched moves).1.world.outside.2

end Session

end EmbeddedC
