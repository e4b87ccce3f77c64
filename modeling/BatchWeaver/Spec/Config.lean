import BatchWeaver.Spec.Coordinator
import BatchWeaver.Spec.Operation

/-!
# Configuration trees and their normal form

The node tree of `internal/configdecode`, the typed readers and the sections of `normalize`
(`config/normalize.go`), and the semantic digest (`config/canonical.go`). A reader returns a value together with
the diagnostics it adds, and a configuration is accepted when there are none.

The suggestion for an unknown field (`textdistance.Closest`) only ends up in the details of a diagnostic and is a
parameter.
-/

namespace BatchWeaver.Configuration

open Prover Operation

/-! ## Nodes -/

inductive ScalarType where
  | string
  | int
  | float
  | bool
  | null

/-- A node; the entries of a mapping have a key, the position of the key and a value. -/
inductive Node where
  | scalar (type : ScalarType) (value : GoString) (pos : Position)
  | mapping (entries : List (GoString × Position × Node)) (pos : Position)
  | sequence (elems : List Node) (pos : Position)

abbrev Entry := GoString × Position × Node

def Node.pos : Node → Position
  | .scalar _ _ pos => pos
  | .mapping _ pos => pos
  | .sequence _ pos => pos

def Node.isMapping : Node → Bool
  | .mapping _ _ => true
  | _ => false

def Node.isNull : Node → Bool
  | .scalar .null _ _ => true
  | _ => false

/-- `Node.Entries` -/
def Node.entries : Node → List Entry
  | .mapping entries _ => entries
  | _ => []

/-- `Node.Elems`; none for a node that is no sequence. -/
def Node.elems? : Node → Option (List Node)
  | .sequence elems _ => some elems
  | _ => none

/-- `Node.Get` -/
def Node.get (n : Node) (key : GoString) : Option (Node × Position) :=
  (n.entries.find? fun e => e.1 = key).map fun e => (e.2.2, e.2.1)

/-- `TypeName` -/
def typeName : Node → GoString
  | .mapping _ _ => str "a mapping"
  | .sequence _ _ => str "a sequence"
  | .scalar .string _ _ => str "a string"
  | .scalar .int _ _ => str "an integer"
  | .scalar .float _ _ => str "a number"
  | .scalar .bool _ _ => str "a boolean"
  | .scalar .null _ _ => str "null"

def asMapping : Node → Option Node
  | .mapping entries pos => some (.mapping entries pos)
  | _ => none

/-- `AsString` -/
def asString : Node → Option GoString
  | .scalar .string value _ => some value
  | _ => none

/-- `AsBool` -/
def asBool : Node → Option Bool
  | .scalar .bool value _ => some (value = str "true")
  | _ => none

/-- `AsInt` -/
def asInt (L : Library) : Node → Option ℤ
  | .scalar .int value _ => L.sscan value
  | _ => none

/-! ## Diagnostics -/

def configSource : GoString := str "config"

def codeTypeMismatch : GoString := str "BWCFG005"

def codeInvalidEnum : GoString := str "BWCFG006"

def codeInvalidDuration : GoString := str "BWCFG007"

def codeInvalidByteSize : GoString := str "BWCFG008"

def codeMissingField : GoString := str "BWCFG015"

def codeUnsupportedVersion : GoString := str "BWCFG016"

def codeUnknownField : GoString := str "BWCFG021"

def codeInvalidValue : GoString := str "BWCFG022"

/-- A value with the diagnostics added on the way to it. -/
structure Out (α : Type) where
  val : α
  diags : List Diagnostic

instance : Monad Out where
  pure a := ⟨a, []⟩
  bind x f := ⟨(f x.val).val, x.diags ++ (f x.val).diags⟩

@[simp] theorem Out.pure_val {α : Type} (a : α) : (pure a : Out α).val = a := rfl

@[simp] theorem Out.bind_val {α β : Type} (x : Out α) (f : α → Out β) : (x >>= f).val = (f x.val).val := rfl

/-- The diagnostics are added and `a` is returned. -/
def reportAll {α : Type} (ds : List Diagnostic) (a : α) : Out α := ⟨a, ds⟩

/-- `normalizer.add`, then `a` is returned. -/
def report {α : Type} (code : GoString) (pos : Position) (msg : GoString) (a : α) : Out α :=
  ⟨a, [⟨code, msg, configSource, pos, [], []⟩]⟩

/-- A loop that keeps what `read` returns. -/
def collect {α β : Type} (read : β → Out (Option α)) : List β → Out (List α)
  | [] => pure []
  | b :: bs => do
    let a ← read b
    let as ← collect read bs
    pure (a.toList ++ as)

/-! ## Fields -/

structure Env extends Library where
  /-- `textdistance.Closest` within distance 3 -/
  closest : GoString → List GoString → Option GoString

variable (E : Env)

/-- `CheckUnknownFields` -/
def checkUnknownFields (node : Node) (known : List GoString) : Out Unit :=
  ⟨(), (node.entries.filter fun e => e.1 ∉ known).map fun e =>
    ⟨codeUnknownField, str "unknown field " ++ E.quote e.1, configSource, e.2.1,
      ((E.closest e.1 known).map fun s => str "did you mean " ++ E.quote s ++ str "?").getD [], []⟩⟩

/-- The readers `mapping`, `str`, `boolField` and the first part of `intOr`: the field read by `as`; nothing if it
is missing, null or not `what` it must be. -/
def field {α : Type} (as : Node → Option α) (what : String) (parent : Node) (key : String) : Out (Option (α × Node)) :=
  match parent.get (str key) with
  | none => pure none
  | some (v, _) =>
    if v.isNull then pure none
    else
      match as v with
      | some a => pure (some (a, v))
      | none =>
        report codeTypeMismatch v.pos
          (str "field " ++ E.quote (str key) ++ str " must be " ++ str what ++ str ", got " ++ typeName v) none

section

variable (parent : Node)

variable (key : String)

def mapping : Out (Option (Node × Node)) := field E asMapping "a mapping" parent key

def strField : Out (Option (GoString × Node)) := field E asString "a string" parent key

def boolField : Out (Option (Bool × Node)) := field E asBool "a boolean" parent key

def boolOr (dflt : Bool) : Out Bool := do
  let b ← boolField E parent key
  pure ((b.map Prod.fst).getD dflt)

def intOr (dflt : ℤ) : Out ℤ := do
  let n ← field E (asInt E.toLibrary) "an integer" parent key
  pure ((n.map Prod.fst).getD dflt)

end

/-- A string field that is parsed: nothing if it is missing or does not parse. -/
def parsedField {α : Type} (parse : GoString → Option α) (code : GoString) (msg : GoString → GoString)
    (parent : Node) (key : String) : Out (Option α) := do
  let s ← strField E parent key
  match s with
  | none => pure none
  | some (s, vn) =>
    match parse s with
    | some a => pure (some a)
    | none => report code vn.pos (msg s) none

def enumField {α : Type} [Enumeration α] (what : String) (parent : Node) (key : String) : Out (Option α) :=
  parsedField E parseEnum codeInvalidEnum (fun s => str "invalid " ++ str what ++ str " " ++ E.quote s) parent key

def enumOr {α : Type} [Enumeration α] (what : String) (parent : Node) (key : String) (dflt : α) : Out α := do
  let v ← enumField E what parent key
  pure (v.getD dflt)

/-- `isAllDigits` -/
def isAllDigits (s : GoString) : Bool := (cutSign s).2 ≠ [] ∧ (cutSign s).2.all isDigit

/-- `ParseDuration` -/
def parseDuration (s : GoString) : Option ℤ :=
  if s = [] then none else if isAllDigits s then none else E.parseDuration s

def byteUnits : List (GoString × ℤ) :=
  [(str "KiB", 1024), (str "MiB", 1024 ^ 2), (str "GiB", 1024 ^ 3), (str "TiB", 1024 ^ 4),
    (str "KB", 1000), (str "MB", 1000 ^ 2), (str "GB", 1000 ^ 3), (str "TB", 1000 ^ 4), (str "B", 1)]

/-- `ParseByteSize` -/
def parseByteSize (s : GoString) : Option ℤ :=
  if s = [] then none
  else
    match byteUnits.find? fun u => u.1.isSuffixOf s with
    | none => none
    | some (suffix, mult) =>
      if s.length = suffix.length then none
      else
        match parseInt (s.take (s.length - suffix.length)) with
        | none => none
        | some n => if n < 0 ∨ (n ≠ 0 ∧ mult > maxInt / n) then none else some (n * mult)

def durationOr (parent : Node) (key : String) (dflt : ℤ) : Out ℤ := do
  let d ← parsedField E (parseDuration E) codeInvalidDuration
    (fun s => str "invalid duration " ++ E.quote s ++ str " for " ++ E.quote (str key)) parent key
  pure (d.getD dflt)

def byteSizeOr (parent : Node) (key : String) (dflt : ℤ) : Out ℤ := do
  let b ← parsedField E parseByteSize codeInvalidByteSize
    (fun s => str "invalid byte size " ++ E.quote s ++ str " for " ++ E.quote (str key)) parent key
  pure (b.getD dflt)

/-- A field with the text of a symbol: the zero symbol if it is missing or does not parse. -/
def symbolField (what : String) (parent : Node) (key : String) : Out Symbol := do
  let s ← strField E parent key
  match s with
  | none => pure {}
  | some (s, vn) =>
    match parseSymbol E.toLibrary s with
    | .ok sym => pure sym
    | .error e => report codeInvalidValue vn.pos (str "invalid " ++ str what ++ str " " ++ E.quote s ++ str ": " ++ e) {}

/-! ## Sections -/

/-- How the sections begin: a missing section gives `absent`, another one is checked for unknown fields and read. -/
def sectionOr {α : Type} (node : Node) (key : String) (known : List GoString) (absent : α) (read : Node → Out α) :
    Out α := do
  let m ← mapping E node key
  match m with
  | none => pure absent
  | some (m, _) => do
    checkUnknownFields E m known
    read m

/-- A policy that passes its check, or the default with the error. -/
def checked {α : Type} (m : Node) (dflt : α) (error : Option GoString) (params : α) : Out α :=
  match error with
  | some e => report codeInvalidValue m.pos e dflt
  | none => pure params

def topLevelFields : List GoString :=
  [str "version", str "include", str "compiler", str "runtime", str "security", str "observability",
    str "operations", str "extensions"]

def compilerFields : List GoString := [str "mode"]

def runtimeFields : List GoString := [str "default_scope"]

def securityFields : List GoString := [str "cross_scope_batching", str "raw_key_observability"]

def observeFields : List GoString := [str "metrics", str "tracing", str "logging"]

def operationFields : List GoString :=
  [str "scalar", str "batch", str "kind", str "results", str "partition", str "scheduler", str "deduplication",
    str "retry", str "fallback", str "replace", str "extensions"]

def symbolFields : List GoString := [str "symbol"]

def resultsFields : List GoString := [str "mode", str "missing", str "errors"]

def partitionFields : List GoString := [str "scope", str "dimensions"]

def schedulerFields : List GoString :=
  [str "mode", str "min_size", str "max_size", str "max_weight", str "max_payload", str "max_wait",
    str "deadline_margin", str "max_concurrency", str "queue_items", str "queue_bytes", str "active_partitions",
    str "waiters_per_key"]

def dedupFields : List GoString :=
  [str "mode", str "inflight", str "scope_memoization", str "negative_memoization", str "error_memoization",
    str "max_items", str "max_bytes", str "canonicalizer"]

def retryFields : List GoString :=
  [str "enabled", str "maximum_attempts", str "initial_backoff", str "maximum_backoff", str "jitter",
    str "retryable", str "respect_retry_after", str "partial_item_retry", str "unknown_outcome",
    str "idempotency_key"]

def fallbackFields : List GoString :=
  [str "mode", str "max_scalar_concurrency", str "on_queue_overflow", str "on_provider_unavailable",
    str "on_unsupported_partition"]

inductive CompilerMode where
  | transparent
  | disabled

instance : Enumeration CompilerMode where
  values := [.transparent, .disabled]
  text
    | .transparent => str "transparent"
    | .disabled => str "disabled"

inductive LoggingLevel where
  | silent
  | errors
  | warnings
  | info
  | debug

instance : Enumeration LoggingLevel where
  values := [.silent, .errors, .warnings, .info, .debug]
  text
    | .silent => str "silent"
    | .errors => str "errors"
    | .warnings => str "warnings"
    | .info => str "info"
    | .debug => str "debug"

structure Security where
  crossScopeBatching : Bool := false
  rawKeyObservability : Bool := false

structure Observability where
  metrics : Bool := false
  tracing : Bool := false
  logging : LoggingLevel := .warnings

/-- `Config`, whose fields have the values of `defaultConfig` unless they are set. -/
structure Config where
  version : ℤ := 1
  compilerMode : CompilerMode := .transparent
  defaultScope : PartitionScope := .request
  security : Security := {}
  observability : Observability := {}
  catalog : List Spec := []
  extensions : List Extension := []

section

variable (node : Node)

/-- `version`: the one that is supported, or the default with an error. -/
def version : Out ℤ :=
  match node.get (str "version") with
  | none => report codeMissingField node.pos (str "missing required field \"version\"") 1
  | some (v, pos) =>
    match asInt E.toLibrary v with
    | none => report codeTypeMismatch pos (str "field \"version\" must be an integer") 1
    | some n =>
      if n = 1 then pure n
      else report codeUnsupportedVersion v.pos (str "unsupported schema version " ++ formatInt n) 1

def compiler : Out CompilerMode :=
  sectionOr E node "compiler" compilerFields .transparent fun m => enumOr E "compiler mode" m "mode" .transparent

def runtime : Out PartitionScope :=
  sectionOr E node "runtime" runtimeFields .request fun m => enumOr E "default scope" m "default_scope" .request

def security : Out Security :=
  sectionOr E node "security" securityFields {} fun m => do
    let crossScopeBatching ← boolOr E m "cross_scope_batching" false
    let rawKeyObservability ← boolOr E m "raw_key_observability" false
    pure ⟨crossScopeBatching, rawKeyObservability⟩

def observability : Out Observability :=
  sectionOr E node "observability" observeFields {} fun m => do
    let metrics ← boolOr E m "metrics" false
    let tracing ← boolOr E m "tracing" false
    let logging ← enumOr E "logging level" m "logging" .warnings
    pure ⟨metrics, tracing, logging⟩

end

mutual

/-- `writeNodeJSON` -/
def encodeNodeJSON : Node → GoString
  | .scalar .null _ _ => str "null"
  | .scalar .int value _ => value
  | .scalar .float value _ => value
  | .scalar .bool value _ => value
  | .scalar .string value _ => E.marshalString value
  | .mapping entries _ => str "\x7b" ++ encodeEntries entries ++ str "\x7d"
  | .sequence elems _ => str "[" ++ encodeElems elems ++ str "]"

/-- The entries of a mapping, with commas between them. -/
def encodeEntries : List (GoString × Position × Node) → GoString
  | [] => []
  | (key, _, value) :: rest =>
    E.marshalString key ++ str ":" ++ encodeNodeJSON value ++
      (if rest.isEmpty then [] else str ",") ++ encodeEntries rest

/-- The elements of a sequence, with commas between them. -/
def encodeElems : List Node → GoString
  | [] => []
  | value :: rest => encodeNodeJSON value ++ (if rest.isEmpty then [] else str ",") ++ encodeElems rest

end

def extension (e : Entry) : Out (Option Extension) :=
  let ext : Extension := ⟨e.1, encodeNodeJSON E e.2.2⟩
  match ext.validate E.toLibrary with
  | some err =>
    report codeInvalidValue e.2.1 (str "invalid extension namespace " ++ E.quote e.1 ++ str ": " ++ err) none
  | none => pure (some ext)

section

variable (node : Node)

def extensions (key : String) : Out (List Extension) := do
  let m ← mapping E node key
  match m with
  | none => pure []
  | some (m, _) => do
    let exts ← collect (extension E) m.entries
    pure (sortExtensions exts)

/-! ## Operations -/

/-- `semantics` -/
def semantics : Out (Option Semantics) := do
  let s ← strField E node "kind"
  match s with
  | none => report codeMissingField node.pos (str "operation is missing required field \"kind\"") none
  | some (s, vn) =>
    match (parseEnum s : Option Kind) with
    | none => report codeInvalidEnum vn.pos (str "invalid operation kind " ++ E.quote s) none
    | some kind =>
      match semanticsOf kind with
      | none => report codeInvalidEnum vn.pos (str "unsupported operation kind " ++ E.quote s) none
      | some sem => pure (some sem)

/-- `symbol` -/
def symbol (key : String) : Out Symbol :=
  sectionOr E node key symbolFields {} fun m => symbolField E "symbol" m "symbol"

/-- The end of `resultContract`, for the values that were read. -/
def resultContractOf (m : Node) (mode : ResultMode) (missing : Option MissingBehavior) (errMode : ErrorMode) :
    Out ResultContract :=
  match mode with
  | .sparse =>
    if missing.getD .contractViolation = .contractViolation then
      report codeInvalidValue m.pos
        (str "sparse results require an explicit \"missing\" behavior other than contract-violation")
        { sparseResults .error with errorMode := errMode }
    else pure { sparseResults (missing.getD .contractViolation) with errorMode := errMode }
  | .keyed => pure { keyedResults with missing := missing.getD .contractViolation, errorMode := errMode }
  | .ordered => pure { orderedResults with missing := missing.getD .contractViolation, errorMode := errMode }

def resultContract : Out ResultContract :=
  sectionOr E node "results" resultsFields { orderedResults with missing := .contractViolation } fun m => do
    let mode ← enumOr E "result mode" m "mode" .ordered
    let missing ← enumField E "missing behavior" m "missing"
    let errMode ← enumOr E "error mode" m "errors" .perItem
    resultContractOf m mode missing errMode

def dimension (e : Node) : Out (Option GoString) :=
  match asString e with
  | none => report codeTypeMismatch e.pos (str "dimension must be a string") none
  | some s =>
    match validateDimension E.toLibrary s with
    | some err => report codeInvalidValue e.pos (str "invalid dimension " ++ E.quote s ++ str ": " ++ err) none
    | none => pure (some s)

def dimensions (m : Node) : Out (List GoString) :=
  match m.get (str "dimensions") with
  | none => pure []
  | some (seq, _) =>
    match seq.elems? with
    | none => report codeTypeMismatch seq.pos (str "field \"dimensions\" must be a sequence") []
    | some elems => collect (dimension E) elems

def partitionContract : Out PartitionContract :=
  sectionOr E node "partition" partitionFields defaultPartitionContract fun m => do
    let scope ← enumOr E "scope" m "scope" .request
    let required ← dimensions E m
    pure { scope := scope, required := required }

def schedulerPolicy : Out SchedulerParams :=
  let dflt := defaultSchedulerPolicy
  sectionOr E node "scheduler" schedulerFields dflt fun m => do
    let mode ← enumOr E "scheduler mode" m "mode" dflt.mode
    let minBatchSize ← intOr E m "min_size" dflt.minBatchSize
    let maxBatchSize ← intOr E m "max_size" dflt.maxBatchSize
    let maxBatchWeight ← intOr E m "max_weight" dflt.maxBatchWeight
    let maxConcurrency ← intOr E m "max_concurrency" dflt.maxConcurrency
    let queueItems ← intOr E m "queue_items" dflt.queueItems
    let activePartitions ← intOr E m "active_partitions" dflt.activePartitions
    let waitersPerKey ← intOr E m "waiters_per_key" dflt.waitersPerKey
    let maxPayloadBytes ← byteSizeOr E m "max_payload" dflt.maxPayloadBytes
    let queueBytes ← byteSizeOr E m "queue_bytes" dflt.queueBytes
    let maxWait ← durationOr E m "max_wait" dflt.maxWait
    let deadlineMargin ← durationOr E m "deadline_margin" dflt.deadlineMargin
    let params : SchedulerParams := ⟨mode, minBatchSize, maxBatchSize, maxBatchWeight, maxPayloadBytes, maxWait,
      deadlineMargin, maxConcurrency, queueItems, queueBytes, activePartitions, waitersPerKey, dflt.fairness, false,
      dflt.overflow⟩
    checked m dflt params.validate params

def deduplicationPolicy : Out DeduplicationParams :=
  sectionOr E node "deduplication" dedupFields {} fun m => do
    let mode ← enumOr E "deduplication mode" m "mode" .disabled
    let inFlight ← boolOr E m "inflight" false
    let scopeMemoization ← boolOr E m "scope_memoization" false
    let negativeMemoization ← boolOr E m "negative_memoization" false
    let errorMemoization ← boolOr E m "error_memoization" false
    let maxItems ← intOr E m "max_items" 0
    let maxBytes ← byteSizeOr E m "max_bytes" 0
    let canonicalizer ← symbolField E "canonicalizer" m "canonicalizer"
    let params : DeduplicationParams := ⟨mode, inFlight, scopeMemoization, negativeMemoization, errorMemoization,
      maxItems, maxBytes, canonicalizer⟩
    checked m {} (params.validate E.toLibrary) params

def classification (e : Node) : Out (Option RetryClassification) :=
  match asString e with
  | none => report codeTypeMismatch e.pos (str "retry classification must be a string") none
  | some s =>
    match (parseEnum s : Option RetryClassification) with
    | none => report codeInvalidEnum e.pos (str "invalid retry classification " ++ E.quote s) none
    | some cls => pure (some cls)

/-- The loop over `retryable`; a value that is no sequence is passed over. -/
def classifications (m : Node) : Out (List RetryClassification) :=
  match m.get (str "retryable") with
  | none => pure []
  | some (seq, _) =>
    match seq.elems? with
    | none => pure []
    | some elems => collect (classification E) elems

def retryPolicy : Out RetryParams :=
  sectionOr E node "retry" retryFields {} fun m => do
    let enabled ← boolOr E m "enabled" false
    let maxAttempts ← intOr E m "maximum_attempts" 0
    let initialBackoff ← durationOr E m "initial_backoff" 0
    let maxBackoff ← durationOr E m "maximum_backoff" 0
    let respectRetryAfter ← boolOr E m "respect_retry_after" false
    let partialItemRetry ← boolOr E m "partial_item_retry" false
    let retryable ← classifications E m
    let params : RetryParams := { enabled := enabled, maxAttempts := maxAttempts, initialBackoff := initialBackoff,
                                  maxBackoff := maxBackoff, retryable := retryable,
                                  respectRetryAfter := respectRetryAfter, partialItemRetry := partialItemRetry }
    checked m {} (params.validate E.toLibrary) params

def fallbackPolicy : Out FallbackParams :=
  sectionOr E node "fallback" fallbackFields {} fun m => do
    let mode ← enumOr E "fallback mode" m "mode" .scalar
    let maxScalarConcurrency ← intOr E m "max_scalar_concurrency" 0
    let onQueueOverflow ← boolOr E m "on_queue_overflow" false
    let onProviderUnavailable ← boolOr E m "on_provider_unavailable" false
    let onUnsupportedPartition ← boolOr E m "on_unsupported_partition" false
    let params : FallbackParams := ⟨mode, maxScalarConcurrency, onQueueOverflow, onProviderUnavailable,
      onUnsupportedPartition⟩
    checked m {} params.validate params

/-- The sections of an operation, put together. -/
def specOf (idText : GoString) (idPos : Position) (node : Node) (sem : Semantics) : Out Spec := do
  let scalarSymbol ← symbol E node "scalar"
  let batchSymbol ← symbol E node "batch"
  let resultContract ← resultContract E node
  let partitionContract ← partitionContract E node
  let schedulerPolicy ← schedulerPolicy E node
  let deduplicationPolicy ← deduplicationPolicy E node
  let retryPolicy ← retryPolicy E node
  let fallbackPolicy ← fallbackPolicy E node
  let exts ← extensions E node "extensions"
  pure ⟨idText, sem, scalarSymbol, batchSymbol, {}, resultContract, partitionContract, schedulerPolicy,
    deduplicationPolicy, retryPolicy, fallbackPolicy, idPos, exts⟩

/-- `operation` -/
def operation (e : Entry) : Out (Option Spec) :=
  match idError E.toLibrary e.1 with
  | some err =>
    report codeInvalidValue e.2.1 (str "invalid operation id " ++ E.quote e.1 ++ str ": " ++ err) none
  | none =>
    if e.2.2.isMapping = false then
      report codeTypeMismatch e.2.2.pos (str "operation " ++ E.quote e.1 ++ str " must be a mapping") none
    else do
      checkUnknownFields E e.2.2 operationFields
      let sem ← semantics E e.2.2
      match sem with
      | none => pure none
      | some sem => do
        let spec ← specOf E e.1 e.2.1 e.2.2 sem
        reportAll (spec.validate E.toLibrary) (if spec.validate E.toLibrary = [] then some spec else none)

/-- `operations` -/
def operations : Out (List Spec) := do
  let m ← mapping E node "operations"
  match m with
  | none => pure []
  | some (m, _) => do
    let specs ← collect (operation E) m.entries
    let b := specs.foldl (addSpec E.toLibrary) ([], [])
    reportAll (b.2 ++ b.1.flatMap fun s => s.validate E.toLibrary) (catalogList b.1)

/-! ## The whole configuration -/

end

/-- `normalize` -/
def normalize (node : Option Node) : Out Config :=
  match node with
  | none => report codeTypeMismatch {} (str "configuration must be a mapping") {}
  | some node =>
    if node.isMapping = false then
      report codeTypeMismatch node.pos (str "configuration must be a mapping") {}
    else do
      checkUnknownFields E node topLevelFields
      let version ← version E node
      let compilerMode ← compiler E node
      let defaultScope ← runtime E node
      let security ← security E node
      let observability ← observability E node
      let exts ← extensions E node "extensions"
      let catalog ← operations E node
      pure ⟨version, compilerMode, defaultScope, security, observability, catalog, exts⟩

/-- The lines of the settings at the top. -/
def Config.lines (cfg : Config) : List (GoString × GoString) :=
  [(str "version", formatInt cfg.version),
    (str "compiler.mode", Enumeration.text cfg.compilerMode),
    (str "runtime.default_scope", Enumeration.text cfg.defaultScope),
    (str "security.cross_scope_batching", formatBool cfg.security.crossScopeBatching),
    (str "security.raw_key_observability", formatBool cfg.security.rawKeyObservability),
    (str "observability.metrics", formatBool cfg.observability.metrics),
    (str "observability.tracing", formatBool cfg.observability.tracing),
    (str "observability.logging", Enumeration.text cfg.observability.logging)]

/-- What `Digest` hashes. -/
def digestText (cfg : Config) : GoString :=
  Words.terminate 10 ((cfg.lines ++ extensionLines E.toLibrary cfg.extensions).map line) ++
    cfg.catalog.flatMap fun sp => sp.canonical E.toLibrary ++ [0]

/-- `Digest` -/
def digest (H : Sha256) (cfg : Config) : GoString := hashBytes H (digestText E cfg)

end BatchWeaver.Configuration
