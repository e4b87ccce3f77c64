import BatchWeaver.Spec.Batch

/-!
# Redis pipelines

`PipelineProvider` of `adapters/redisv9`: one command for each item of a request, sent in one pipeline.
-/

namespace BatchWeaver.Redis

variable {K V C E : Type}

/-- `Queue returned nil command for item i`, or an error of the client. -/
inductive PipeError (E : Type) where
  | nilCommand (i : ℕ)
  | client (err : E)

inductive ExecuteError (E : Type) where
  | misconfigured
  | pipeline (err : PipeError E)
  | response (err : BatchResponseError)

/-- `PipelineProvider`. `queue` has what `Queue` returns for an item, `none` for nil; `isNil` is
`errors.Is(err, redis.Nil)`, and `transport` what `defaultGlobalError` says of an error of the client. -/
structure PipelineProvider (K V C E : Type) where
  configured : Bool := true
  queue : ℕ → K → Option C
  decode : K → Option C → Except E V
  globalError : Option (PipeError E → Bool) := none
  isNil : E → Bool
  transport : E → Bool

/-- The callback: the slice `queued`, nil from the first nil command on, and the error. -/
def queueLoop (queue : ℕ → K → Option C) : ℕ → List (BatchItem K) → List (Option C) × Option (PipeError E)
  | _, [] => ([], none)
  | i, item :: rest =>
    match queue i item.key with
    | none => (List.replicate (rest.length + 1) none, some (.nilCommand i))
    | some cmd =>
      let (queued, err) := queueLoop queue (i + 1) rest
      (some cmd :: queued, err)

variable (p : PipelineProvider K V C E)

def PipelineProvider.defaultGlobalError : PipeError E → Bool
  | .nilCommand _ => false
  | .client err => p.transport err

/-- `!errors.Is(err, redis.Nil) && globalError(err)` -/
def PipelineProvider.isGlobal (err : PipeError E) : Bool :=
  (match err with
    | .nilCommand _ => true
    | .client e => !p.isNil e) && p.globalError.getD p.defaultGlobalError err

variable [Inhabited V]

def PipelineProvider.outcome (item : BatchItem K) (cmd : Option C) : Outcome V E :=
  match p.decode item.key cmd with
  | .ok value => .success item.id value
  | .error err => if p.isNil err then .notFound item.id else .failure item.id err

/-- `Execute`, and the commands it calls `Decode` with, in item order. `exec` is the error of the pipeline's
execution, which an error of the callback comes before. -/
def PipelineProvider.execute (exec : Option E) (req : BatchRequest K) :
    List (Option C) × Except (ExecuteError E) (BatchResponse V E) :=
  if !p.configured then ([], .error .misconfigured)
  else
    let (queued, err) := queueLoop p.queue 0 req.items
    match (err <|> exec.map PipeError.client).filter p.isGlobal with
    | some err => ([], .error (.pipeline err))
    | none =>
      (queued, match newBatchResponse (List.zipWith p.outcome req.items queued) with
        | .error err => .error (.response err)
        | .ok resp => .ok resp)

end BatchWeaver.Redis
