import BatchWeaver.Lib.Table

/-!
# Batch requests and responses

The values that pass between the runtime and a provider: batch items with
their checks, `NewBatchRequest`, outcomes, and `ValidateAgainst`, the check that a
response answers exactly the request ids it was asked.

A Go `error` result is `Except`: `.ok` stands for the nil error. Errors keep the
data they are built from and `error` renders the text. Request ids are unbounded
naturals (the 64-bit counter behind them only counts up), instants are integers,
counted in nanoseconds from the zero `time.Time`.
-/

namespace BatchWeaver

/-- The id of one logical request; zero is invalid. -/
abbrev RequestID := ℕ

def RequestID.isValid (id : RequestID) : Bool := id != 0

/-- An instant, in nanoseconds from the zero `time.Time`. -/
abbrev Time := ℤ

def minPriority : ℤ := -1000

def maxPriority : ℤ := 1000

/-! ## Batch items -/

/-- One logical request within a batch. A zero `deadline` means none. -/
structure BatchItem (K : Type) where
  id : RequestID
  key : K
  deadline : Time := 0
  priority : ℤ := 0
  weight : ℤ := 1
  deriving DecidableEq

variable {K V E : Type}

def newBatchItem (id : RequestID) (key : K) : BatchItem K := { id := id, key := key }

def BatchItem.withDeadline (it : BatchItem K) (d : Time) : BatchItem K := { it with deadline := d }

def BatchItem.withWeight (it : BatchItem K) (w : ℤ) : BatchItem K := { it with weight := w }

inductive BatchItemError where
  | requestID
  | weight
  | priority (p : ℤ)

def BatchItemError.error : BatchItemError → String
  | .requestID => "invalid batch item: request id must be non-zero"
  | .weight => "invalid batch item: weight must be positive"
  | .priority p => "invalid batch item: priority " ++ toString p ++ " out of range [" ++
      toString minPriority ++ ", " ++ toString maxPriority ++ "]"

def BatchItem.validate (it : BatchItem K) : Except BatchItemError Unit :=
  if !it.id.isValid then .error .requestID
  else if it.weight < 1 then .error .weight
  else if it.priority < minPriority ∨ it.priority > maxPriority then .error (.priority it.priority)
  else .ok ()

/-! ## Requests -/

/-- The items of a provider call, in order. -/
structure BatchRequest (K : Type) where
  items : List (BatchItem K)
  deriving DecidableEq

inductive BatchRequestError where
  | noItems
  | item (i : ℕ) (err : BatchItemError)
  | duplicate (id : RequestID)

def BatchRequestError.error : BatchRequestError → String
  | .noItems => "invalid batch request: request has no items"
  | .item i err => "invalid batch request: item " ++ toString i ++ ": " ++ err.error
  | .duplicate id => "invalid batch request: duplicate request id " ++ toString id

/-- The loop of `NewBatchRequest`: `seen` holds the ids of the items before index `i`. -/
def checkItems : ℕ → List RequestID → List (BatchItem K) → Except BatchRequestError Unit
  | _, _, [] => .ok ()
  | i, seen, it :: rest =>
    match it.validate with
    | .error err => .error (.item i err)
    | .ok () =>
      if it.id ∈ seen then .error (.duplicate it.id) else checkItems (i + 1) (it.id :: seen) rest

def newBatchRequest (items : List (BatchItem K)) : Except BatchRequestError (BatchRequest K) :=
  if items.length = 0 then .error .noItems
  else
    match checkItems 0 [] items with
    | .error err => .error err
    | .ok () => .ok { items := items }

/-! ## Outcomes and responses -/

/-- The result of one logical request. -/
structure Outcome (V E : Type) where
  requestID : RequestID
  value : V
  err : Option E
  found : Bool

instance [Inhabited V] : Inhabited (Outcome V E) := ⟨⟨0, default, none, false⟩⟩

def Outcome.success (id : RequestID) (value : V) : Outcome V E := ⟨id, value, none, true⟩

def Outcome.notFound [Inhabited V] (id : RequestID) : Outcome V E := ⟨id, default, none, false⟩

def Outcome.failure [Inhabited V] (id : RequestID) (err : E) : Outcome V E :=
  ⟨id, default, some err, false⟩

def Outcome.isSuccess (o : Outcome V E) : Bool := o.found && o.err.isNone

def Outcome.isNotFound (o : Outcome V E) : Bool := !o.found && o.err.isNone

def Outcome.isFailure (o : Outcome V E) : Bool := o.err.isSome

inductive OutcomeError where
  | requestID
  | foundAndFailed

def OutcomeError.error : OutcomeError → String
  | .requestID => "invalid outcome: request id must be non-zero"
  | .foundAndFailed => "invalid outcome: outcome cannot be both found and failed"

def Outcome.validate (o : Outcome V E) : Except OutcomeError Unit :=
  if !o.requestID.isValid then .error .requestID
  else if o.err.isSome && o.found then .error .foundAndFailed
  else .ok ()

/-- The outcomes a provider returned, in its order. -/
structure BatchResponse (V E : Type) where
  outcomes : List (Outcome V E)

inductive BatchResponseError where
  | outcome (i : ℕ) (err : OutcomeError)
  | duplicate (id : RequestID)
  | unexpected (id : RequestID)
  | missing (id : RequestID)

def BatchResponseError.error : BatchResponseError → String
  | .outcome i err => "invalid batch response: outcome " ++ toString i ++ ": " ++ err.error
  | .duplicate id => "invalid batch response: duplicate request id " ++ toString id
  | .unexpected id => "invalid batch response: unexpected request id " ++ toString id
  | .missing id => "invalid batch response: missing request id " ++ toString id

/-- The loop of `Validate`: `seen` holds the ids of the outcomes before index `i`. -/
def checkOutcomes : ℕ → List RequestID → List (Outcome V E) → Except BatchResponseError Unit
  | _, _, [] => .ok ()
  | i, seen, o :: rest =>
    match o.validate with
    | .error err => .error (.outcome i err)
    | .ok () =>
      if o.requestID ∈ seen then .error (.duplicate o.requestID)
      else checkOutcomes (i + 1) (o.requestID :: seen) rest

def BatchResponse.validate (r : BatchResponse V E) : Except BatchResponseError Unit :=
  checkOutcomes 0 [] r.outcomes

/-- The loop of `NewBatchResponse`. -/
def checkEach : ℕ → List (Outcome V E) → Except BatchResponseError Unit
  | _, [] => .ok ()
  | i, o :: rest =>
    match o.validate with
    | .error err => .error (.outcome i err)
    | .ok () => checkEach (i + 1) rest

def newBatchResponse (outcomes : List (Outcome V E)) : Except BatchResponseError (BatchResponse V E) :=
  match checkEach 0 outcomes with
  | .error err => .error err
  | .ok () => .ok { outcomes := outcomes }

/-- The response against the exact set of request ids it should answer. The source
reports the first missing id of a map, in no fixed order; here it is the first of
`requestIDs`. -/
def BatchResponse.validateAgainst (r : BatchResponse V E) (requestIDs : List RequestID) :
    Except BatchResponseError Unit :=
  match r.validate with
  | .error err => .error err
  | .ok () =>
    match r.outcomes.find? fun o => o.requestID ∉ requestIDs with
    | some o => .error (.unexpected o.requestID)
    | none =>
      match requestIDs.find? fun id => id ∉ r.outcomes.map (·.requestID) with
      | some id => .error (.missing id)
      | none => .ok ()

end BatchWeaver
