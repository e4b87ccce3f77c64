import BatchWeaver.Spec.Loop

/-!
# Calls of `Do`

`Do` and the coordinator as parties that exchange messages. A call submits, waits for the
reply, then for the result, and gives up when its context is done; what it has seen by
then decides which cancel message it sends. `doSelect` is the three `select` statements of
`Do`; when several cases are ready any of them may be taken.

The turns of the coordinator are those of the event loop. What a turn sends becomes visible
to the callers one effect after the other, and the coordinator receives again when all of
it is out. `submitCh` is unbuffered, so a submission is received in the step that sends it;
`cancelCh` holds 64 messages.

Left out is what `Do` does before it allocates the waiter (scope, memo table, recursion check)
and what `finish` stores in the memo table.
-/

namespace BatchWeaver

variable {K V E : Type}

/-- How a call returns. -/
inductive Return (V E : Type) where
  | value (v : V)
  /-- `ErrMissingResult` -/
  | missing
  | error (err : GoError E)
  /-- what `runFallback` returns -/
  | fallback
  /-- `ctx.Err()` -/
  | canceled
  deriving DecidableEq

/-- Where a call stands. -/
inductive Stage (V E : Type) where
  | submitting
  | waitAdmit
  | waitResult
  /-- in `sendCancel` -/
  | sending (cr : CancelReq)
  | returned (r : Return V E)
  deriving DecidableEq

/-- A call of `Do` from the allocation of its waiter on. -/
structure Call (K V E : Type) where
  req : SubmitReq K
  deadline : Option Time
  /-- `ctx` is done -/
  ctxDone : Bool
  stage : Stage V E

/-- What `Do` makes of the result it received. -/
def finish (r : Result V E) : Return V E :=
  match r.err with
  | some err => .error err
  | none => if r.found then .value r.value else .missing

/-- What follows the reply to a submission. -/
def Stage.ofAdmit : Option (GoError E) → Stage V E
  | none => .waitResult
  | some .fallback => .returned .fallback
  | some err => .returned (.error err)

/-- The reply an effect sends to a waiter. -/
def Effect.replyFor (w : WaiterId) : Effect K V E → Option (Option (GoError E))
  | .reply w' err => if w' = w then some err else none
  | _ => none

/-- The cases of a `select` of `Do`: the channel it waits for, `ctx.Done()`, `c.done`. -/
inductive Case where
  | value
  | ctxDone
  | done

/-- The coordinator and its callers. Of the effects in `coord.out` the first `shown` have
happened. -/
structure Net (K V E : Type) where
  coord : Coord K V E
  shown : ℕ
  calls : WaiterId → Option (Call K V E)
  cancelCh : List CancelReq

namespace Net

variable (s : Net K V E)

def visible : List (Effect K V E) := s.coord.out.take s.shown

/-- What is in the reply channel of a submission. -/
def reply (w : WaiterId) : Option (Option (GoError E)) :=
  s.visible.findSome? (Effect.replyFor w)

/-- What is in the channel of a waiter. -/
def result (w : WaiterId) : Option (Result V E) := s.visible.findSome? (Effect.resultFor w)

/-- `c.done` is closed. -/
def closed : Bool := s.coord.done && decide (s.coord.out.length ≤ s.shown)

/-- The stage a call goes to when its `select` takes a case; `none` if the case is not
ready. In the case `ctx.Done()` the call looks once more for what it waited for. -/
def doSelect (call : Call K V E) : Case → Option (Stage V E)
  | .value =>
    match call.stage with
    | .waitAdmit => (s.reply call.req.waiter).map Stage.ofAdmit
    | .waitResult => (s.result call.req.waiter).map fun r => .returned (finish r)
    | _ => none
  | .ctxDone =>
    if call.ctxDone then
      match call.stage with
      | .submitting => some (.returned .canceled)
      | .waitAdmit =>
        match s.reply call.req.waiter with
        | some err => some (.ofAdmit err)
        | none => some (.sending { part := [], waiterID := call.req.waiter, blocked := true })
      | .waitResult =>
        match s.result call.req.waiter with
        | some r => some (.returned (finish r))
        | none => some (.sending
            { part := call.req.part.encoded, waiterID := call.req.waiter, blocked := false })
      | _ => none
    else none
  | .done =>
    if s.closed then
      match call.stage with
      | .sending _ => some (.returned .canceled)
      | .returned _ => none
      | _ => some (.returned (.error .engineClosed))
    else none

def setCall (w : WaiterId) (f : Call K V E → Call K V E) : Net K V E :=
  { s with calls := Function.update s.calls w ((s.calls w).map f) }

def setStage (w : WaiterId) (stage : Stage V E) : Net K V E :=
  s.setCall w fun call => { call with stage := stage }

end Net

/-- What can happen. -/
inductive NetEvent (K V E : Type) where
  /-- a call allocates its waiter and is about to submit -/
  | call (part : Partition) (key : K) (weight bytes : ℤ) (deadline : Option Time)
  /-- the context of a call is done -/
  | expire (w : WaiterId)
  /-- a `select` of a call takes a case -/
  | select (w : WaiterId) (k : Case)
  /-- `c.cancelCh <- cr`, in `sendCancel` -/
  | post (w : WaiterId)
  /-- the next effect of the last turn happens -/
  | reveal
  | turn (t : Turn K V E)
  /-- a move beside the coordinator's turns -/
  | outside (m : Move K V E)

/-- The move of the coordinator in an event. -/
def NetEvent.move : NetEvent K V E → Option (Move K V E)
  | .call .. => some .newRequestID
  | .turn t => some (.turn t)
  | .outside m => some m
  | _ => none

def Move.isTurn : Move K V E → Bool
  | .turn _ => true
  | _ => false

namespace Net

variable (s : Net K V E)

/-- The request `Do` makes, for the waiter `w`. -/
def newCall (cfg : BindingConfig K) (w : WaiterId) (part : Partition) (key : K) (weight bytes : ℤ)
    (deadline : Option Time) : Call K V E where
  req :=
    { part := part, key := key, hash := cfg.keys.hash key, weight := weight, bytes := bytes, waiter := w }
  deadline := deadline
  ctxDone := false
  stage := .submitting

/-- What an event of the coordinator takes from the callers. -/
def receive : Event K V E → Net K V E
  | .submit _ req _ => s.setStage req.waiter .waitAdmit
  | .cancel _ => { s with cancelCh := s.cancelCh.tail }
  | _ => s

def next [Inhabited V] (cfg : BindingConfig K) : NetEvent K V E → Net K V E
  | .call part key weight bytes deadline =>
    let w := s.coord.requestSeq + 1
    { s with
      coord := s.coord.move cfg .newRequestID
      calls := Function.update s.calls w (some (newCall cfg w part key weight bytes deadline)) }
  | .expire w => s.setCall w fun call => { call with ctxDone := true }
  | .select w k =>
    match (s.calls w).bind (s.doSelect · k) with
    | some stage => s.setStage w stage
    | none => s
  | .post w =>
    match (s.calls w).map Call.stage with
    | some (.sending cr) =>
      { s.setStage w (.returned .canceled) with cancelCh := s.cancelCh ++ [cr] }
    | _ => s
  | .reveal => { s with shown := s.shown + 1 }
  | .turn t => { s.receive t.event with coord := s.coord.move cfg (.turn t) }
  | .outside m => { s with coord := s.coord.move cfg m }

/-- The event is there for the coordinator to receive. -/
def Receives (cfg : BindingConfig K) : Event K V E → Prop
  | .submit _ req deadline =>
    (s.calls req.waiter).map (fun call => (call.req, call.deadline, call.stage)) = some (req, deadline, .submitting)
  | .cancel cr => s.cancelCh.head? = some cr
  | e => e.Legal cfg [] s.coord

/-- The call is in `sendCancel` and there is room in the channel. -/
def CanPost (w : WaiterId) : Prop :=
  match (s.calls w).map Call.stage with
  | some (.sending _) => s.cancelCh.length < 64
  | _ => False

/-- What may happen in a state. -/
def Ok (cfg : BindingConfig K) : NetEvent K V E → Prop
  | .call _ _ weight bytes _ => 0 ≤ weight ∧ 0 ≤ bytes
  | .expire w => (s.calls w).isSome = true
  | .select w k => ((s.calls w).bind (s.doSelect · k)).isSome = true
  | .post w => s.CanPost w
  | .reveal => s.shown < s.coord.out.length
  | .turn t => s.coord.done = false ∧ s.shown = s.coord.out.length ∧ s.Receives cfg t.event
  | .outside m => m.isTurn = false

end Net

/-- **The coordinator with its callers as a system.** -/
def net [Inhabited K] [Inhabited V] (cfg : BindingConfig K) :
    System (Net K V E) (NetEvent K V E) where
  init := { coord := Coord.init, shown := 0, calls := fun _ => none, cancelCh := [] }
  ok := fun _ s e => s.Ok cfg e
  next := fun s e => s.next cfg e

/-! ## What may happen can be checked -/

section Decidable

variable [DecidableEq K] [DecidableEq V] [DecidableEq E]

instance (s : Net K V E) (cfg : BindingConfig K) : (e : Event K V E) → Decidable (s.Receives cfg e)
  | .submit _ req deadline => inferInstanceAs (Decidable (_ = some (req, deadline, Stage.submitting)))
  | .cancel cr => inferInstanceAs (Decidable (s.cancelCh.head? = some cr))
  | .complete now done => inferInstanceAs (Decidable (Event.Legal cfg [] s.coord (.complete now done)))
  | .control now ctrl => inferInstanceAs (Decidable (Event.Legal cfg [] s.coord (.control now ctrl)))
  | .timer now => inferInstanceAs (Decidable (Event.Legal cfg [] s.coord (.timer now)))
  | .engine => inferInstanceAs (Decidable (Event.Legal cfg [] s.coord .engine))

instance (s : Net K V E) (w : WaiterId) : Decidable (s.CanPost w) := by
  unfold Net.CanPost
  split <;> infer_instance

instance (s : Net K V E) (cfg : BindingConfig K) (e : NetEvent K V E) : Decidable (s.Ok cfg e) := by
  cases e <;> unfold Net.Ok <;> infer_instance

instance [Inhabited K] [Inhabited V] (cfg : BindingConfig K) (es : List (NetEvent K V E))
    (s : Net K V E) (e : NetEvent K V E) : Decidable ((net cfg).ok es s e) :=
  inferInstanceAs (Decidable (s.Ok cfg e))

end Decidable

end BatchWeaver
