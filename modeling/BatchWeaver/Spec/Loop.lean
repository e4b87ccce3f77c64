import BatchWeaver.Lib.Run
import BatchWeaver.Spec.Dispatch

/-!
# The event loop

`turn` is one iteration of `coordinator.run`: one event, then `schedule(false)`, then
the barriers, then the exit test. A `Move` is a turn or something that happens beside
the coordinator: the engine's context is canceled, adaptive settings change, a
request id is taken elsewhere.

Clock readings and the states of barrier contexts come with the turn, so every
reading the environment can give is covered. `Legal` says what the callers and workers
of this package can send: `Do` allocates a fresh waiter, hashes the key itself, and
cancels only what it submitted; a worker sends one completion, with whatever the provider
returned, for the batch it runs; a control request has its own reply channel; the timer
fires when armed, the engine's context when done.
-/

namespace BatchWeaver

variable {K V E : Type}

/-- What the `select` of `run` receives. -/
inductive Event (K V E : Type) where
  | submit (now : Time) (req : SubmitReq K) (deadline : Option Time)
  | cancel (cr : CancelReq)
  | complete (now : WaiterId → Time) (done : CompleteReq V E)
  | control (now : Time) (ctrl : ControlReq)
  | timer (now : Time)
  | engine

/-- One iteration of `run`: the event, the clock at its closing `schedule(false)`, and
the contexts of the barriers as `tryCompleteBarriers` finds them. -/
structure Turn (K V E : Type) where
  event : Event K V E
  now : Time
  ctxErr : ControlId → Option (GoError E)

inductive Move (K V E : Type) where
  | turn (t : Turn K V E)
  /-- `Engine.cancel()` -/
  | cancelEngine
  /-- `ApplyAdaptiveSettings` -/
  | adapt (s : AdaptiveSettings)
  /-- `ClearAdaptiveSettings` -/
  | clearAdaptive
  /-- a call of `nextRequestID` outside of the coordinator -/
  | newRequestID

namespace Coord

/-- The waiter `Do` allocated before it submitted. -/
def spawn (c : Coord K V E) (req : SubmitReq K) (deadline : Option Time) : Coord K V E :=
  { c with waiters := Function.update c.waiters req.waiter (some (Waiter.new deadline)) }

/-- The end of an iteration. -/
def finishTurn [Inhabited V] (cfg : BindingConfig K) (c : Coord K V E) (now : Time)
    (ctxErr : ControlId → Option (GoError E)) : Coord K V E :=
  let c := c.schedule cfg false now
  let c := c.tryCompleteBarriers ctxErr
  if c.closing && c.drained then { c.failBarriers none with done := true } else c

def handle [Inhabited V] (cfg : BindingConfig K) (c : Coord K V E) : Event K V E → Coord K V E
  | .submit now req deadline => (c.spawn req deadline).handleSubmit cfg now req
  | .cancel cr => c.handleCancel cr
  | .complete now done => c.handleComplete cfg now done
  | .control now ctrl => c.handleControl cfg now ctrl
  | .timer now => { c with timerActive := false }.schedule cfg false now
  | .engine => c.handleEngineCancel

/-- One iteration of `run`. -/
def turn [Inhabited V] (cfg : BindingConfig K) (c : Coord K V E) (t : Turn K V E) :
    Coord K V E :=
  let c := c.handle cfg t.event
  match t.event with
  | .engine => if c.drained then { c with done := true } else c.finishTurn cfg t.now t.ctxErr
  | _ => c.finishTurn cfg t.now t.ctxErr

def move [Inhabited V] (cfg : BindingConfig K) (c : Coord K V E) : Move K V E → Coord K V E
  | .turn t => c.turn cfg t
  | .cancelEngine => { c with engineDone := true }
  | .adapt s => { c with dyn := some (applyAdaptiveSettings cfg s) }
  | .clearAdaptive => { c with dyn := none }
  | .newRequestID => { c with requestSeq := c.requestSeq + 1 }

end Coord

/-- The submission a move hands to the coordinator. -/
def Move.submission : Move K V E → Option (SubmitReq K)
  | .turn ⟨.submit _ req _, _, _⟩ => some req
  | _ => none

/-- The submissions of a run. -/
def submitted (es : List (Move K V E)) : List (SubmitReq K) := es.filterMap Move.submission

/-- `Do` sends a cancel message for a waiter it submitted: marked blocked while it has not
seen the reply, else with its partition, after the admitting reply. -/
def Sent (es : List (Move K V E)) (c : Coord K V E) (cr : CancelReq) : Prop :=
  ∃ req ∈ submitted es, req.waiter = cr.waiterID ∧ (cr.blocked = true ∨
      cr.part = req.part.encoded ∧ Effect.reply cr.waiterID none ∈ c.out)

/-- What a turn may receive. -/
def Event.Legal (cfg : BindingConfig K) (es : List (Move K V E)) (c : Coord K V E) :
    Event K V E → Prop
  | .submit _ req _ => c.waiters req.waiter = none ∧ req.hash = cfg.keys.hash req.key ∧
      0 ≤ req.weight ∧ 0 ≤ req.bytes
  | .cancel cr => Sent es c cr
  | .complete _ done => (c.inflight.lookup done.batchID).isSome = true
  | .control _ ctrl => (∀ b ∈ c.barriers, b.reply ≠ ctrl.reply) ∧
      ∀ eff ∈ c.out, eff.answers ≠ some ctrl.reply
  | .timer _ => c.timer.isSome = true ∧ c.timerActive = true
  | .engine => c.engineDone = true

/-- The loop runs until it has returned. -/
def Move.Legal (cfg : BindingConfig K) (es : List (Move K V E)) (c : Coord K V E) :
    Move K V E → Prop
  | .turn t => c.done = false ∧ t.event.Legal cfg es c
  | _ => True

/-- **The coordinator as a system.** -/
def coordinator [Inhabited K] [Inhabited V] (cfg : BindingConfig K) :
    System (Coord K V E) (Move K V E) where
  init := Coord.init
  ok := fun es c m => m.Legal cfg es c
  next := fun c m => c.move cfg m

/-! ## Legality can be checked -/

section Decidable

variable [DecidableEq K] [DecidableEq V] [DecidableEq E]

instance (es : List (Move K V E)) (c : Coord K V E) (cr : CancelReq) : Decidable (Sent es c cr) :=
  inferInstanceAs (Decidable (∃ req ∈ submitted es, _))

instance (cfg : BindingConfig K) (es : List (Move K V E)) (c : Coord K V E) (e : Event K V E) :
    Decidable (e.Legal cfg es c) := by
  cases e <;> unfold Event.Legal <;> infer_instance

instance (cfg : BindingConfig K) (es : List (Move K V E)) (c : Coord K V E) (m : Move K V E) :
    Decidable (m.Legal cfg es c) := by
  cases m <;> unfold Move.Legal <;> infer_instance

instance [Inhabited K] [Inhabited V] (cfg : BindingConfig K) (es : List (Move K V E))
    (c : Coord K V E) (m : Move K V E) : Decidable ((coordinator cfg).ok es c m) :=
  inferInstanceAs (Decidable (m.Legal cfg es c))

end Decidable

end BatchWeaver
