import BatchWeaver.Lib.Run
import BatchWeaver.Spec.Coordinator

/-!
# The fair scheduler

`FairScheduler` of `internal/adaptive/fairness.go`: admission under a quota, the choice of the next class
by reserved share and then by weighted fair queueing or deficit round robin, and the accounting of
what was served and completed.

Shares and scores are `float64`s; `F` stands for them, with nothing assumed of its arithmetic. Times are
nanoseconds. Counters that only count up are unbounded naturals; deficits wrap as `int` does. The clock's
reading is an argument of each call, and `lastServed`, which nothing reads, is left out.
-/

namespace BatchWeaver.Adaptive

inductive FairnessAlgorithm where
  | weightedFair
  | deficitRoundRobin
  | other (text : GoString)
  deriving DecidableEq

/-- Bounds on a class; one that is not positive does not bound. -/
structure Quota where
  maxQueued : ℤ := 0
  maxActive : ℤ := 0
  maxConcurrency : ℤ := 0
  maxPayloadBytes : ℤ := 0

structure ClassPolicy (F : Type) where
  name : GoString
  weight : ℤ
  priority : ℤ
  reservedShare : F
  quota : Quota

structure FairnessConfig (F : Type) where
  algorithm : FairnessAlgorithm
  starvationThreshold : ℤ
  classes : List (ClassPolicy F)

structure ClassState (F : Type) where
  policy : ClassPolicy F
  deficit : ℤ
  queued : ℕ := 0
  active : ℕ := 0
  served : ℕ := 0
  rejected : ℕ := 0
  firstWait : ℤ := 0
  hasWaiting : Bool := false

structure FairScheduler (F : Type) where
  cfg : FairnessConfig F
  classes : Table GoString (ClassState F)
  order : List GoString
  rr : ℕ

structure Diagnostic where
  code : GoString
  severity : GoString
  message : GoString
  operation : GoString
  detail : GoString

structure AdmitResult where
  admitted : Bool
  reason : GoString
  diag : Option Diagnostic

def codeQuotaExceeded : GoString := str "BW8201"

def codeStarvation : GoString := str "BW8202"

/-- The entries of `DiagnosticMessages` for the codes used here. -/
def diagnosticMessage (code : GoString) : GoString :=
  if code = codeQuotaExceeded then str "tenant quota exceeded"
  else if code = codeStarvation then str "starvation detected"
  else []

def newDiag (code severity operation detail : GoString) : Diagnostic :=
  ⟨code, severity, diagnosticMessage code, operation, detail⟩

variable {F : Type} [IntCast F] [Sub F] [Div F] [LT F] [LE F] [DecidableLT F] [DecidableLE F]

/-! ## Classes -/

/-- The class that `classFor` creates at first sight. -/
def newClass (name : GoString) : ClassState F where
  policy := { name := name, weight := 1, priority := 0, reservedShare := ((0 : ℤ) : F), quota := {} }
  deficit := 1

/-- The class of a name; one that was not seen yet is as `classFor` creates it. -/
def FairScheduler.state (s : FairScheduler F) (name : GoString) : ClassState F :=
  (s.classes.lookup name).getD (newClass name)

/-- An update through the pointer to a class. -/
def FairScheduler.set (s : FairScheduler F) (name : GoString) (cs : ClassState F) : FairScheduler F :=
  { s with classes := s.classes.insert name cs }

def FairScheduler.classFor (s : FairScheduler F) (name : GoString) : FairScheduler F :=
  if (s.classes.lookup name).isSome then s
  else { s.set name (newClass name) with order := sortStrings (s.order ++ [name]) }

/-- One class of the configuration. -/
def addClass (s : FairScheduler F) (p : ClassPolicy F) : FairScheduler F :=
  let p := if p.weight ≤ 0 then { p with weight := 1 } else p
  { s.set p.name { policy := p, deficit := p.weight } with order := s.order ++ [p.name] }

def newFairScheduler (cfg : FairnessConfig F) : FairScheduler F :=
  let cfg := if cfg.algorithm = .other [] then { cfg with algorithm := .weightedFair } else cfg
  let s := cfg.classes.foldl addClass { cfg := cfg, classes := ∅, order := [], rr := 0 }
  { s with order := sortStrings s.order }

/-! ## Admission and accounting -/

def FairScheduler.admitItem (s : FairScheduler F) (name : GoString) (payloadBytes now : ℤ) :
    FairScheduler F × AdmitResult :=
  let s := s.classFor name
  let cs := s.state name
  let q := cs.policy.quota
  if 0 < q.maxQueued ∧ q.maxQueued ≤ cs.queued then
    (s.set name { cs with rejected := cs.rejected + 1 },
      ⟨false, str "max_queued", some (newDiag codeQuotaExceeded (str "warning") []
        (str "class " ++ name ++ str " exceeded max queued"))⟩)
  else if 0 < q.maxPayloadBytes ∧ q.maxPayloadBytes < payloadBytes then
    (s.set name { cs with rejected := cs.rejected + 1 },
      ⟨false, str "max_payload", some (newDiag codeQuotaExceeded (str "warning") []
        (str "class " ++ name ++ str " exceeded max payload bytes"))⟩)
  else
    (s.set name { cs with
        queued := cs.queued + 1
        firstWait := if cs.hasWaiting then cs.firstWait else now
        hasWaiting := true }, ⟨true, [], none⟩)

def FairScheduler.serve (s : FairScheduler F) (name : GoString) (now : ℤ) : FairScheduler F :=
  let s := s.classFor name
  let cs := s.state name
  let queued := cs.queued - 1
  s.set name { cs with
    queued := queued
    served := cs.served + 1
    active := cs.active + 1
    deficit := wrap64 (cs.deficit - 1)
    hasWaiting := if queued = 0 then false else cs.hasWaiting
    firstWait := if queued = 0 then cs.firstWait else now }

def FairScheduler.complete (s : FairScheduler F) (name : GoString) : FairScheduler F :=
  let s := s.classFor name
  let cs := s.state name
  s.set name { cs with active := cs.active - 1 }

/-! ## The choice of a class -/

def FairScheduler.totalServed (s : FairScheduler F) : ℕ :=
  (s.classes.entries.map fun e => e.2.served).sum

/-- The best class so far and how far it is below its share. -/
def reservedStep (s : FairScheduler F) (total : ℕ) (best : GoString × F) (name : GoString) : GoString × F :=
  let cs := s.state name
  if cs.queued = 0 ∨ cs.policy.reservedShare ≤ ((0 : ℤ) : F) then best
  else
    let share : F := if 0 < total then ((cs.served : ℤ) : F) / ((total : ℤ) : F) else ((0 : ℤ) : F)
    if share < cs.policy.reservedShare then
      let deficit := cs.policy.reservedShare - share
      if best.1 = [] ∨ best.2 < deficit then (name, deficit) else best
    else best

/-- A name that was picked, unless it is the empty string. -/
def picked (name : GoString) : Option GoString := if name = [] then none else some name

def FairScheduler.reservedPick (s : FairScheduler F) : Option GoString :=
  picked (s.order.foldl (reservedStep s s.totalServed) ([], ((0 : ℤ) : F))).1

/-- The best class so far with its score, and the highest priority so far. -/
def weightedStep (s : FairScheduler F) (best : GoString × F × ℤ) (name : GoString) : GoString × F × ℤ :=
  let cs := s.state name
  if cs.queued = 0 then best
  else
    let score : F := ((cs.served + 1 : ℤ) : F) / ((cs.policy.weight : ℤ) : F)
    if best.2.2 < cs.policy.priority then (name, score, cs.policy.priority)
    else if cs.policy.priority = best.2.2 ∧ (best.1 = [] ∨ score < best.2.1) then (name, score, best.2.2)
    else best

def FairScheduler.weightedPick (s : FairScheduler F) : Option GoString :=
  picked (s.order.foldl (weightedStep s) ([], ((0 : ℤ) : F), -2 ^ 30)).1

/-- The position of the round robin after `i` classes. -/
def FairScheduler.turn (s : FairScheduler F) (i : ℕ) : ℕ := (s.rr + i) % s.order.length

/-- The next turn begins after `idx`. -/
def FairScheduler.advance (s : FairScheduler F) (idx : ℕ) : FairScheduler F :=
  { s with rr := (idx + 1) % s.order.length }

def FairScheduler.replenish (s : FairScheduler F) (name : GoString) : FairScheduler F :=
  let cs := s.state name
  s.set name { cs with deficit := wrap64 (cs.deficit + cs.policy.weight) }

/-- The first loop of `deficitPick`. -/
def deficitRound (s : FairScheduler F) : List ℕ → FairScheduler F × Option GoString
  | [] => (s, none)
  | i :: is =>
    let name := s.order.getD (s.turn i) []
    if (s.state name).queued = 0 then deficitRound s is
    else if (s.state name).deficit ≤ 0 then deficitRound (s.replenish name) is
    else (s.advance (s.turn i), some name)

/-- The loop that replenishes every class with a backlog. -/
def replenishAll (s : FairScheduler F) : List GoString → FairScheduler F
  | [] => s
  | name :: names =>
    if 0 < (s.state name).queued then replenishAll (s.replenish name) names else replenishAll s names

/-- The last loop of `deficitPick`. -/
def deficitRetry (s : FairScheduler F) : List ℕ → FairScheduler F × Option GoString
  | [] => (s, none)
  | i :: is =>
    let name := s.order.getD (s.turn i) []
    if 0 < (s.state name).queued ∧ 0 < (s.state name).deficit then (s.advance (s.turn i), some name)
    else deficitRetry s is

def FairScheduler.deficitPick (s : FairScheduler F) : FairScheduler F × Option GoString :=
  match deficitRound s (List.range s.order.length) with
  | (s, some name) => (s, some name)
  | (s, none) => deficitRetry (replenishAll s s.order) (List.range s.order.length)

def FairScheduler.next (s : FairScheduler F) : FairScheduler F × Option GoString :=
  match s.reservedPick with
  | some name => (s, some name)
  | none =>
    match s.cfg.algorithm with
    | .deficitRoundRobin => s.deficitPick
    | _ => (s, s.weightedPick)

/-! ## Starvation -/

/-- `Time.Sub`: a duration saturates. -/
def timeSub (a b : ℤ) : ℤ := max (-2 ^ 63) (min maxInt (a - b))

def FairScheduler.detectStarvation (s : FairScheduler F) (now : ℤ) : List GoString × List Diagnostic :=
  if s.cfg.starvationThreshold ≤ 0 then ([], [])
  else
    let starved := s.order.filter fun name =>
      (s.state name).hasWaiting ∧ s.cfg.starvationThreshold < timeSub now (s.state name).firstWait
    (starved, starved.map fun name => newDiag codeStarvation (str "warning") []
      (str "class " ++ name ++ str " head-of-line wait exceeds threshold"))

/-! ## The scheduler in use -/

inductive FairEvent where
  | admitItem (name : GoString) (payloadBytes now : ℤ)
  | next
  | serve (name : GoString) (now : ℤ)
  | complete (name : GoString)

/-- The scheduler, and the class that `Next` returned and that was not served yet. -/
structure FairRun (F : Type) where
  sched : FairScheduler F
  returned : Option GoString

def FairRun.step (s : FairRun F) : FairEvent → FairRun F
  | .admitItem name payloadBytes now => { s with sched := (s.sched.admitItem name payloadBytes now).1 }
  | .next => ⟨s.sched.next.1, s.sched.next.2⟩
  | .serve name now => ⟨s.sched.serve name now, none⟩
  | .complete name => { s with sched := s.sched.complete name }

/-- Only the class that `Next` returned is served, and only an active item completes. -/
def FairRun.Proper (s : FairRun F) : FairEvent → Prop
  | .serve name _ => s.returned = some name
  | .complete name => 0 < (s.sched.state name).active
  | _ => True

instance (s : FairRun F) : (e : FairEvent) → Decidable (s.Proper e)
  | .admitItem _ _ _ => instDecidableTrue
  | .next => instDecidableTrue
  | .serve _ _ => inferInstanceAs (Decidable (_ = _))
  | .complete _ => inferInstanceAs (Decidable (0 < _))

def fairness (cfg : FairnessConfig F) : System (FairRun F) FairEvent where
  init := ⟨newFairScheduler cfg, none⟩
  ok _ s e := s.Proper e
  next := FairRun.step

instance (cfg : FairnessConfig F) (es : List FairEvent) (s : FairRun F) (e : FairEvent) :
    Decidable ((fairness cfg).ok es s e) := inferInstanceAs (Decidable (s.Proper e))

end BatchWeaver.Adaptive
