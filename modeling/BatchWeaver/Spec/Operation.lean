import BatchWeaver.Spec.Snapshot

/-!
# Operation specs

The package `operation` as the configuration builds it: enumerations and their canonical names, symbols,
identifiers, contracts, policies with their checks, `Spec` with `Validate` and `Canonical`, and the catalog.

An enumeration of the source is an inductive type, so that the checks for values outside of its table of names
have nothing to reject and are left out. Every diagnostic of these packages is an error. `%q` and the printing of
a duration come from Go's library and are fields of a `Library`.
-/

namespace BatchWeaver

/-! ## Diagnostics -/

structure Position where
  file : GoString := []
  offset : ℕ := 0
  line : ℕ := 0
  column : ℕ := 0
  deriving DecidableEq

/-- A diagnostic of error severity at a position. -/
structure Diagnostic where
  code : GoString
  message : GoString
  source : GoString
  pos : Position
  details : GoString := []
  related : List (GoString × Position) := []

/-! ## Go's library -/

/-- The functions of Go's library that the configuration calls. A duration is printed in one line, and different
durations are printed differently; Base64 has no line breaks. -/
structure Library where
  /-- `%q` of a string -/
  quote : GoString → GoString
  /-- `%q` of the first character of a text -/
  quoteRune : GoString → GoString
  /-- `%q` of a byte -/
  quoteByte : UInt8 → GoString
  /-- `fmt.Sscan` into an `int64` -/
  sscan : GoString → Option ℤ
  /-- `time.ParseDuration`, in nanoseconds -/
  parseDuration : GoString → Option ℤ
  /-- `time.Duration.String` -/
  durationString : ℤ → GoString
  /-- `base64.StdEncoding.EncodeToString` -/
  base64 : GoString → GoString
  /-- `json.Marshal` of a string -/
  marshalString : GoString → GoString
  durationString_injective : Function.Injective durationString
  durationString_line : ∀ d, 10 ∉ durationString d
  base64_line : ∀ b, 10 ∉ base64 b

/-- Durations are read and printed in nanoseconds. -/
def Library.plain : Library where
  quote s := str "\"" ++ s ++ str "\""
  quoteRune s := s.take 1
  quoteByte c := [c]
  sscan := parseInt
  parseDuration := parseInt
  durationString := formatInt
  base64 b := b.filter (· ≠ 10)
  marshalString s := str "\"" ++ s ++ str "\""
  durationString_injective := formatInt_injective
  durationString_line := formatInt_line
  base64_line _ h := of_decide_eq_true (List.mem_filter.1 h).2 rfl

end BatchWeaver

namespace BatchWeaver.Operation

open Prover

/-! ## Enumerations -/

/-- An enumeration with its table of names. A name is one line, is not empty and has no comma. -/
class Enumeration (α : Type) where
  values : List α
  text : α → GoString
  text_plain : ∀ a, 10 ∉ text a ∧ text a ≠ [] ∧ 44 ∉ text a := by intro a; cases a <;> decide

/-- `parseEnum` -/
def parseEnum {α : Type} [Enumeration α] (s : GoString) : Option α :=
  (Enumeration.values : List α).find? fun a => Enumeration.text a = s

inductive Idempotency where
  | unknown
  | idempotent
  | nonIdempotent
  | conditional
  deriving DecidableEq

inductive Ordering where
  | preserve
  | reorderable
  | commutative
  deriving DecidableEq

inductive Atomicity where
  | perItem
  | allOrNothing
  | atomicPrefix
  | providerDefined
  deriving DecidableEq

inductive DuplicateResultBehavior where
  | contractViolation
  | first
  | last
  | custom

inductive UnexpectedResultBehavior where
  | contractViolation
  | error

inductive ReceiverPolicy where
  | same
  | any

inductive MissingDimensionBehavior where
  | error
  | reject

inductive SchedulerMode where
  | immediateWave
  | fixedWindow
  | adaptive
  | manual
  | throughput
  | latency
  | deadlineAware
  deriving DecidableEq

inductive FairnessMode where
  | fifo
  | weighted

inductive OverflowBehavior where
  | block
  | reject
  | fallback
  deriving DecidableEq

inductive DeduplicationMode where
  | disabled
  | exact
  | canonical
  deriving DecidableEq

inductive JitterMode where
  | none
  | full
  | equal

inductive RetryClassification where
  | transport
  | throttled
  | timeout
  | unavailable
  | conflict

inductive UnknownOutcomeBehavior where
  | noRetry
  | retry

inductive FallbackMode where
  | scalar
  | batchOfOne
  | parallelScalar
  | reject
  deriving DecidableEq

instance : Enumeration Kind where
  values := [.unknown, .readOnly, .freshnessSensitiveRead, .idempotentWrite, .nonIdempotentWrite,
    .commutativeAggregation, .orderedAggregation, .atomicGroup, .transactionBound, .sessionBound]
  text := Kind.text

instance : Enumeration Prover.Effect where
  values := [.unknown, .read, .write, .aggregate]
  text
    | .unknown => str "unknown"
    | .read => str "read"
    | .write => str "write"
    | .aggregate => str "aggregate"

instance : Enumeration Idempotency where
  values := [.unknown, .idempotent, .nonIdempotent, .conditional]
  text
    | .unknown => str "unknown"
    | .idempotent => str "idempotent"
    | .nonIdempotent => str "non-idempotent"
    | .conditional => str "conditional"

instance : Enumeration Ordering where
  values := [.preserve, .reorderable, .commutative]
  text
    | .preserve => str "preserve"
    | .reorderable => str "reorderable"
    | .commutative => str "commutative"

instance : Enumeration Atomicity where
  values := [.perItem, .allOrNothing, .atomicPrefix, .providerDefined]
  text
    | .perItem => str "per-item"
    | .allOrNothing => str "all-or-nothing"
    | .atomicPrefix => str "prefix"
    | .providerDefined => str "provider-defined"

instance : Enumeration ResultMode where
  values := [.ordered, .keyed, .sparse]
  text := ResultMode.text

instance : Enumeration MissingBehavior where
  values := [.notFound, .error, .zeroValue, .contractViolation]
  text := MissingBehavior.text

instance : Enumeration ErrorMode where
  values := [.perItem, .global, .mixed]
  text
    | .perItem => str "per-item"
    | .global => str "global"
    | .mixed => str "mixed"

instance : Enumeration DuplicateResultBehavior where
  values := [.contractViolation, .first, .last, .custom]
  text
    | .contractViolation => str "contract-violation"
    | .first => str "first"
    | .last => str "last"
    | .custom => str "custom"

instance : Enumeration UnexpectedResultBehavior where
  values := [.contractViolation, .error]
  text
    | .contractViolation => str "contract-violation"
    | .error => str "error"

instance : Enumeration PartitionScope where
  values := [.request, .job, .graphQLOperation, .session, .transaction, .process, .custom]
  text := PartitionScope.text

instance : Enumeration ReceiverPolicy where
  values := [.same, .any]
  text
    | .same => str "same-receiver"
    | .any => str "any-receiver"

instance : Enumeration MissingDimensionBehavior where
  values := [.error, .reject]
  text
    | .error => str "error"
    | .reject => str "reject"

instance : Enumeration SchedulerMode where
  values := [.immediateWave, .fixedWindow, .adaptive, .manual, .throughput, .latency, .deadlineAware]
  text
    | .immediateWave => str "immediate-wave"
    | .fixedWindow => str "fixed-window"
    | .adaptive => str "adaptive"
    | .manual => str "manual"
    | .throughput => str "throughput"
    | .latency => str "latency"
    | .deadlineAware => str "deadline-aware"

instance : Enumeration FairnessMode where
  values := [.fifo, .weighted]
  text
    | .fifo => str "fifo"
    | .weighted => str "weighted"

instance : Enumeration OverflowBehavior where
  values := [.block, .reject, .fallback]
  text
    | .block => str "block"
    | .reject => str "reject"
    | .fallback => str "fallback"

instance : Enumeration DeduplicationMode where
  values := [.disabled, .exact, .canonical]
  text
    | .disabled => str "disabled"
    | .exact => str "exact"
    | .canonical => str "canonical"

instance : Enumeration JitterMode where
  values := [.none, .full, .equal]
  text
    | .none => str "none"
    | .full => str "full"
    | .equal => str "equal"

instance : Enumeration RetryClassification where
  values := [.transport, .throttled, .timeout, .unavailable, .conflict]
  text
    | .transport => str "transport"
    | .throttled => str "throttled"
    | .timeout => str "timeout"
    | .unavailable => str "unavailable"
    | .conflict => str "conflict"

instance : Enumeration UnknownOutcomeBehavior where
  values := [.noRetry, .retry]
  text
    | .noRetry => str "no-retry"
    | .retry => str "retry"

instance : Enumeration FallbackMode where
  values := [.scalar, .batchOfOne, .parallelScalar, .reject]
  text
    | .scalar => str "scalar"
    | .batchOfOne => str "batch-of-one"
    | .parallelScalar => str "parallel-scalar"
    | .reject => str "reject"

/-! ## Checks -/

/-- The text of the first check that fails. -/
def firstFailed : List (Bool × GoString) → Option GoString
  | [] => none
  | (failed, text) :: checks => if failed then some text else firstFailed checks

/-- `fmt.Errorf("%w: …", base)` around the first check that fails -/
def wrapFailed (base : GoString) (checks : List (Bool × GoString)) : Option GoString :=
  (firstFailed checks).map fun text => base ++ str ": " ++ text

variable {checks : List (Bool × GoString)}

lemma firstFailed_none (h : firstFailed checks = none) :
    ∀ c ∈ checks, c.1 = false := by
  induction checks with
  | nil => exact fun c hc => absurd hc List.not_mem_nil
  | cons c checks ih =>
    obtain ⟨failed, text⟩ := c
    rw [firstFailed] at h
    cases failed with
    | true => cases h
    | false => exact List.forall_mem_cons.2 ⟨rfl, ih h⟩

lemma wrapFailed_none {base : GoString} (h : wrapFailed base checks = none) :
    ∀ c ∈ checks, c.1 = false :=
  firstFailed_none (Option.map_eq_none_iff.1 h)

/-- `strings.ContainsAny(s, " \t\r\n")` -/
def containsSpace (s : GoString) : Bool := s.any fun c => c = 32 || c = 9 || c = 13 || c = 10

/-- What stands before and after the first occurrence of `sub`. -/
def cut (sub : GoString) : GoString → Option (GoString × GoString)
  | [] => if sub = [] then some ([], []) else none
  | c :: s =>
    if hasPrefix (c :: s) sub then some ([], (c :: s).drop sub.length)
    else (cut sub s).map fun p => (c :: p.1, p.2)

/-- What stands before and after the last occurrence of a byte. -/
def cutLast (x : UInt8) : GoString → Option (GoString × GoString)
  | [] => none
  | c :: s =>
    match cutLast x s with
    | some p => some (c :: p.1, p.2)
    | none => if c = x then some ([], s) else none

/-- `strings.Contains` -/
def contains (s sub : GoString) : Bool := (cut sub s).isSome

/-! ## Symbols -/

structure Symbol where
  importPath : GoString := []
  receiver : GoString := []
  name : GoString := []
  pointer : Bool := false
  deriving DecidableEq

def Symbol.isZero (s : Symbol) : Bool := s = {}

/-- `Symbol.String` -/
def Symbol.string (s : Symbol) : GoString :=
  if s.receiver = [] then s.importPath ++ str "." ++ s.name
  else if s.pointer then s.importPath ++ str ".(*" ++ s.receiver ++ str ")." ++ s.name
  else s.importPath ++ str ".(" ++ s.receiver ++ str ")." ++ s.name

def errInvalidSymbol : GoString := str "invalid symbol"

def symbolError {α : Type} (text : GoString) : Except GoString α := .error (errInvalidSymbol ++ str ": " ++ text)

/-- `isImportPathRune` -/
def isImportPathRune (c : UInt8) : Bool :=
  isLower c || isUpper c || isDigit c || c = 46 || c = 95 || c = 45 || c = 126

section

variable (L : Library)

/-- The first character of a segment that an import path may not have, with what follows it. -/
def badRune (seg : GoString) : GoString := seg.dropWhile isImportPathRune

def validateSegments : List GoString → Except GoString Unit
  | [] => .ok ()
  | seg :: rest =>
    if seg = [] ∨ seg = str "." ∨ seg = str ".." then symbolError (str "import path has an invalid segment")
    else if badRune seg ≠ [] then
      symbolError (str "import path contains invalid character " ++ L.quoteRune (badRune seg))
    else validateSegments rest

/-- `validateImportPath` -/
def validateImportPath (path : GoString) : Except GoString Unit :=
  if path = [] then symbolError (str "import path is empty")
  else if hasPrefix path (str "/") then symbolError (str "import path must not be absolute")
  else if hasPrefix path (str ".") then symbolError (str "import path must not be relative")
  else if path.any (fun c => c = 92 || c = 58) then
    symbolError (str "import path looks like a filesystem path")
  else validateSegments L (path.splitOn 47)

/-- `validateGoIdentifier` -/
def validateGoIdentifier (s what : GoString) : Except GoString Unit :=
  match s with
  | [] => symbolError (what ++ str " is empty")
  | c :: rest =>
    if (c = 95 || isLower c || isUpper c) && rest.all (fun c => c = 95 || isLower c || isUpper c || isDigit c) then
      .ok ()
    else symbolError (what ++ str " " ++ L.quote s ++ str " is not a valid Go identifier")

/-- `parseFunctionSymbol` -/
def parseFunctionSymbol (value : GoString) : Except GoString Symbol :=
  if value.any (fun c => c = 40 || c = 41) then
    symbolError (str "malformed parentheses in " ++ L.quote value)
  else
    match cutLast 46 value with
    | none => symbolError (str "function symbol must be <import-path>.<Name>")
    | some (importPath, name) =>
      if importPath = [] ∨ name = [] then symbolError (str "function symbol must be <import-path>.<Name>")
      else
        match validateImportPath L importPath with
        | .error e => .error e
        | .ok _ =>
          match validateGoIdentifier L name (str "function name") with
          | .error e => .error e
          | .ok _ => .ok { importPath := importPath, name := name }

/-- A receiver with its star taken off, and whether it had one. -/
def receiverOf (recvPart : GoString) : GoString × Bool :=
  match recvPart with
  | 42 :: recv => (recv, true)
  | recv => (recv, false)

/-- `parseMethodSymbol` -/
def parseMethodSymbol (value : GoString) : Except GoString Symbol :=
  match cut (str ".(") value with
  | none => symbolError (str "malformed method symbol " ++ L.quote value)
  | some (importPath, rest) =>
    match validateImportPath L importPath with
    | .error e => .error e
    | .ok _ =>
      match cut (str ").") rest with
      | none => symbolError (str "malformed method receiver in " ++ L.quote value)
      | some (recvPart, name) =>
        if name.any (fun c => c = 40 || c = 41 || c = 46) then
          symbolError (str "malformed method name in " ++ L.quote value)
        else
          match validateGoIdentifier L (receiverOf recvPart).1 (str "receiver type") with
          | .error e => .error e
          | .ok _ =>
            match validateGoIdentifier L name (str "method name") with
            | .error e => .error e
            | .ok _ => .ok ⟨importPath, (receiverOf recvPart).1, name, (receiverOf recvPart).2⟩

/-- `ParseSymbol` -/
def parseSymbol (value : GoString) : Except GoString Symbol :=
  if value = [] then symbolError (str "symbol is empty")
  else if containsSpace value then symbolError (str "symbol contains whitespace")
  else if value.any (fun c => c < 32 || c = 127) then symbolError (str "symbol contains control characters")
  else if contains value (str ".(") then parseMethodSymbol L value
  else parseFunctionSymbol L value

/-- The text of an error, if there is one. -/
def errorText {α : Type} : Except GoString α → Option GoString
  | .error e => some e
  | .ok _ => none

def Symbol.validate (s : Symbol) : Option GoString :=
  errorText (if s.isZero then symbolError (str "symbol is empty") else parseSymbol L s.string)

/-! ## Identifiers -/

def errInvalidID : GoString := str "invalid operation id"

def maxIDBytes : ℕ := 255

def maxSegmentBytes : ℕ := 63

def reservedPrefixes : List GoString := [str "batchweaver", str "internal", str "system"]

/-- The first byte of a segment after its first one that may not stand there. -/
def badSegmentByte (rest : GoString) : GoString :=
  rest.dropWhile fun c => isLower c || isDigit c || c = 95 || c = 45

/-- `validateSegment` -/
def validateSegment (seg : GoString) : Option GoString :=
  match seg with
  | [] => some (str "segment is empty")
  | c :: rest =>
    firstFailed
      [(maxSegmentBytes < seg.length, str "segment exceeds " ++ itoa maxSegmentBytes ++ str " bytes"),
        (!isLower c, str "segment must start with a lowercase letter"),
        (badSegmentByte rest ≠ [], str "segment contains invalid character " ++
          L.quoteByte ((badSegmentByte rest).headD 0)),
        (seg.getLast? = some 95 || seg.getLast? = some 45, str "segment must not end with '_' or '-'"),
        (contains seg (str "--") || contains seg (str "__") || contains seg (str "-_") || contains seg (str "_-"),
          str "segment must not contain consecutive separators")]

/-- The error of the first segment that has one, with its number and the segment. -/
def segmentError : ℕ → List GoString → Option GoString
  | _, [] => none
  | i, seg :: rest =>
    match validateSegment L seg with
    | some e => some (str "segment " ++ itoa (i + 1) ++ str " " ++ L.quote seg ++ str ": " ++ e)
    | none => segmentError (i + 1) rest

/-- `ParseID`: the error, if there is one; an accepted identifier is the value itself. -/
def idError (value : GoString) : Option GoString :=
  let segments := value.splitOn 46
  wrapFailed errInvalidID
    [(value = [], str "id is empty"),
      (maxIDBytes < value.length, str "id exceeds " ++ itoa maxIDBytes ++ str " bytes"),
      (containsSpace value, str "id contains whitespace"),
      (hasPrefix value (str ".") || value.getLast? = some 46, str "id has a leading or trailing dot"),
      (segments.length < 2, str "id must have at least two segments"),
      ((segmentError L 0 segments).isSome, (segmentError L 0 segments).getD []),
      (segments.headD [] ∈ reservedPrefixes,
        str "first segment " ++ L.quote (segments.headD []) ++ str " is reserved")]

/-! ## Contracts -/

structure Semantics where
  kind : Kind
  effect : Prover.Effect
  idempotency : Idempotency
  ordering : Ordering
  atomicity : Atomicity
  retryAllowed : Bool := false
  deduplicationAllowed : Bool := false
  crossScopeAllowed : Bool := false
  freshnessDependent : Bool := false

def Semantics.validate (s : Semantics) : Option GoString :=
  wrapFailed (str "invalid semantics")
    [(s.kind = .unknown, str "invalid operation kind"),
      (s.effect ≠ s.kind.effect, str "effect " ++ Enumeration.text s.effect ++ str " does not match kind " ++
        Enumeration.text s.kind),
      (s.idempotency = .unknown, str "invalid idempotency"),
      (s.kind = .nonIdempotentWrite ∧ s.ordering ≠ .preserve, str "non-idempotent writes must preserve order"),
      (s.kind = .commutativeAggregation ∧ s.ordering ≠ .commutative,
        str "commutative aggregation must declare commutative ordering"),
      (s.kind = .orderedAggregation ∧ s.ordering ≠ .preserve, str "ordered aggregation must preserve order"),
      (s.kind = .atomicGroup ∧ s.atomicity ≠ .allOrNothing, str "atomic group must use all-or-nothing atomicity"),
      (s.retryAllowed ∧ s.idempotency = .nonIdempotent, str "non-idempotent operations cannot allow retry"),
      (s.ordering = .reorderable ∧ s.effect ≠ .read, str "only read operations may be reorderable"),
      (s.freshnessDependent ∧ s.effect ≠ .read, str "only reads may be freshness dependent")]

/-- `ReadOnly`, `FreshnessSensitiveRead` and the other constructors, by kind; there is none for the unknown one. -/
def semanticsOf : Kind → Option Semantics
  | .readOnly => some
      { kind := .readOnly, effect := .read, idempotency := .idempotent, ordering := .preserve,
        atomicity := .perItem, retryAllowed := true, deduplicationAllowed := true }
  | .freshnessSensitiveRead => some
      { kind := .freshnessSensitiveRead, effect := .read, idempotency := .idempotent,
        ordering := .preserve, atomicity := .perItem, retryAllowed := true, deduplicationAllowed := true,
        freshnessDependent := true }
  | .idempotentWrite => some
      { kind := .idempotentWrite, effect := .write, idempotency := .idempotent,
        ordering := .preserve, atomicity := .perItem, retryAllowed := true }
  | .nonIdempotentWrite => some
      { kind := .nonIdempotentWrite, effect := .write, idempotency := .nonIdempotent,
        ordering := .preserve, atomicity := .perItem }
  | .commutativeAggregation => some
      { kind := .commutativeAggregation, effect := .aggregate,
        idempotency := .idempotent, ordering := .commutative, atomicity := .perItem, retryAllowed := true }
  | .orderedAggregation => some
      { kind := .orderedAggregation, effect := .aggregate, idempotency := .idempotent,
        ordering := .preserve, atomicity := .perItem }
  | .atomicGroup => some
      { kind := .atomicGroup, effect := .write, idempotency := .idempotent,
        ordering := .preserve, atomicity := .allOrNothing }
  | .transactionBound => some
      { kind := .transactionBound, effect := .write, idempotency := .nonIdempotent,
        ordering := .preserve, atomicity := .allOrNothing }
  | .sessionBound => some
      { kind := .sessionBound, effect := .write, idempotency := .nonIdempotent,
        ordering := .preserve, atomicity := .perItem }
  | .unknown => none

structure KeyContract where
  comparable : Bool := false
  canonicalKeySymbol : Symbol := {}

def KeyContract.validate (c : KeyContract) : Option GoString :=
  if c.canonicalKeySymbol.isZero then none
  else (c.canonicalKeySymbol.validate L).map fun e => str "invalid key contract: " ++ e

structure ResultContract where
  mode : ResultMode
  missing : MissingBehavior
  errorMode : ErrorMode := .perItem
  duplicate : DuplicateResultBehavior := .contractViolation
  unexpected : UnexpectedResultBehavior := .contractViolation
  orderSignificant : Bool := false
  unknownRepresentable : Bool := false

def orderedResults : ResultContract := { mode := .ordered, missing := .error, orderSignificant := true }

def keyedResults : ResultContract := { mode := .keyed, missing := .error }

/-- `SparseResults`; it panics on `contractViolation`, which its caller never passes. -/
def sparseResults (missing : MissingBehavior) : ResultContract := { mode := .sparse, missing := missing }

def ResultContract.validate (c : ResultContract) : Option GoString :=
  wrapFailed (str "invalid result contract") [(c.mode = .sparse ∧ c.missing = .contractViolation,
        str "sparse results cannot treat missing as a contract violation"),
      (c.mode = .ordered ∧ c.orderSignificant = false, str "ordered results must treat order as significant")]

def knownDimensions : List GoString :=
  [str "receiver", str "tenant", str "authorization", str "transaction", str "session", str "consistency",
    str "region", str "encryption-context", str "deadline-class"]

def reservedDimensionNames : List GoString := knownDimensions ++ [str "custom", str "unknown"]

/-- The first byte of a dimension name that may not stand there. -/
def badDimensionByte (name : GoString) : GoString :=
  match name with
  | [] => []
  | c :: rest => if isLower c then rest.dropWhile fun c => isLower c || isDigit c || c = 45 else name

def errInvalidDimension : GoString := str "invalid partition dimension"

/-- `validateDimensionName` -/
def validateDimensionName (name : GoString) : Option GoString :=
  wrapFailed errInvalidDimension
    [(name = [], str "dimension name is empty"),
      (maxSegmentBytes < name.length, str "dimension name exceeds " ++ itoa maxSegmentBytes ++ str " bytes"),
      (badDimensionByte name ≠ [], L.quote name ++ str " has invalid character " ++
        L.quoteByte ((badDimensionByte name).headD 0)),
      (name.getLast? = some 45 || contains name (str "--"), L.quote name ++ str " has a misplaced hyphen")]

/-- `PartitionDimension.Validate` -/
def validateDimension (d : GoString) : Option GoString :=
  if d ∈ knownDimensions then none
  else if d ∈ reservedDimensionNames then
    some (errInvalidDimension ++ str ": " ++ L.quote d ++ str " is reserved and not a well-known dimension")
  else validateDimensionName L d

structure PartitionContract where
  scope : PartitionScope
  required : List GoString
  optional : List GoString := []
  crossRootScope : Bool := false
  receiverPolicy : ReceiverPolicy := .same
  missingDimension : MissingDimensionBehavior := .error
  maxActivePartitions : ℤ := 0
  publicContextIndep : Bool := false

def defaultPartitionContract : PartitionContract := { scope := .request, required := [] }

def PartitionContract.requires (c : PartitionContract) (dim : GoString) : Bool := dim ∈ c.required

/-- The loop over the dimensions, with those already seen. -/
def dimensionsError (seen : List GoString) : List GoString → Option GoString
  | [] => none
  | d :: rest =>
    match validateDimension L d with
    | some e => some e
    | none =>
      if d ∈ seen then some (str "dimension " ++ L.quote d ++ str " appears more than once")
      else dimensionsError (seen ++ [d]) rest

def PartitionContract.validate (c : PartitionContract) : Option GoString :=
  wrapFailed (str "invalid partition contract")
    [(c.maxActivePartitions < 0, str "max active partitions is negative"),
      ((dimensionsError L [] (c.required ++ c.optional)).isSome,
        (dimensionsError L [] (c.required ++ c.optional)).getD []),
      (c.scope = .process ∧ c.publicContextIndep = false ∧
          (c.requires (str "authorization") = false ∨ c.requires (str "tenant") = false),
        str "process scope requires tenant and authorization dimensions unless public and context-independent")]

structure Extension where
  namespaceName : GoString
  data : GoString

def Extension.validate (e : Extension) : Option GoString :=
  wrapFailed (str "invalid extension")
    [(e.namespaceName = [], str "namespace is empty"),
      (containsSpace e.namespaceName, str "namespace contains whitespace"),
      (!contains e.namespaceName (str "/") && !contains e.namespaceName (str "."),
        str "namespace " ++ L.quote e.namespaceName ++ str " must be a namespaced key")]

/-! ## Policies -/

/-- `SchedulerParams`; sizes are `int` or `int64`, durations are in nanoseconds. -/
structure SchedulerParams where
  mode : SchedulerMode
  minBatchSize : ℤ
  maxBatchSize : ℤ
  maxBatchWeight : ℤ
  maxPayloadBytes : ℤ
  maxWait : ℤ
  deadlineMargin : ℤ
  maxConcurrency : ℤ
  queueItems : ℤ
  queueBytes : ℤ
  activePartitions : ℤ
  waitersPerKey : ℤ
  fairness : FairnessMode
  prioritySupport : Bool := false
  overflow : OverflowBehavior

def defaultSchedulerPolicy : SchedulerParams where
  mode := .immediateWave
  minBatchSize := 1
  maxBatchSize := 256
  maxBatchWeight := 4096
  maxPayloadBytes := 4194304
  maxWait := 0
  deadlineMargin := 0
  maxConcurrency := 1
  queueItems := 100000
  queueBytes := 67108864
  activePartitions := 1024
  waitersPerKey := 1024
  fairness := .fifo
  overflow := .block

def SchedulerParams.validate (q : SchedulerParams) : Option GoString :=
  wrapFailed (str "invalid scheduler policy")
    [(q.minBatchSize < 1, str "minimum batch size must be positive"),
      (q.maxBatchSize < 1, str "maximum batch size must be positive"),
      (q.minBatchSize > q.maxBatchSize, str "minimum batch size exceeds maximum"),
      (q.maxBatchWeight < 1, str "maximum batch weight must be positive"),
      (q.maxPayloadBytes < 1, str "maximum payload bytes must be positive"),
      (q.maxWait < 0, str "maximum wait must not be negative"),
      (q.deadlineMargin < 0, str "deadline margin must not be negative"),
      (q.maxConcurrency < 1, str "maximum concurrency must be positive"),
      (q.queueItems < 1, str "queue item limit must be positive"),
      (q.queueBytes < 1, str "queue byte limit must be positive"),
      (q.activePartitions < 1, str "active-partition limit must be positive"),
      (q.waitersPerKey < 1, str "waiters-per-key limit must be positive"),
      (q.mode = .manual ∧ q.maxWait > 0, str "manual mode must not configure an automatic wait"),
      (q.mode = .adaptive ∧ q.maxWait ≤ 0, str "adaptive mode requires a positive maximum wait")]

structure DeduplicationParams where
  mode : DeduplicationMode := .disabled
  inFlight : Bool := false
  scopeMemoization : Bool := false
  negativeMemoization : Bool := false
  errorMemoization : Bool := false
  maxItems : ℤ := 0
  maxBytes : ℤ := 0
  canonicalizer : Symbol := {}

def DeduplicationParams.validate (q : DeduplicationParams) : Option GoString :=
  if q.mode = .disabled then none
  else
    wrapFailed (str "invalid deduplication policy")
      [(q.mode = .canonical ∧ q.canonicalizer.isZero, str "canonical mode requires a canonicalizer symbol"),
        (!q.canonicalizer.isZero && (q.canonicalizer.validate L).isSome, (q.canonicalizer.validate L).getD []),
        (q.scopeMemoization ∧ q.maxItems < 1, str "memoization requires a positive item limit"),
        (q.scopeMemoization ∧ q.maxBytes < 1, str "memoization requires a positive byte limit")]

structure RetryParams where
  enabled : Bool := false
  maxAttempts : ℤ := 0
  initialBackoff : ℤ := 0
  maxBackoff : ℤ := 0
  jitter : JitterMode := .none
  retryable : List RetryClassification := []
  respectRetryAfter : Bool := false
  partialItemRetry : Bool := false
  unknownOutcome : UnknownOutcomeBehavior := .noRetry
  idempotencyKey : Symbol := {}

def RetryParams.validate (q : RetryParams) : Option GoString :=
  wrapFailed (str "invalid retry policy")
    [(q.initialBackoff < 0 ∨ q.maxBackoff < 0, str "backoff durations must not be negative"),
      (!q.idempotencyKey.isZero && (q.idempotencyKey.validate L).isSome, (q.idempotencyKey.validate L).getD []),
      (q.enabled ∧ q.maxAttempts < 2, str "enabled retry requires at least two attempts"),
      (q.enabled ∧ q.maxBackoff < q.initialBackoff, str "maximum backoff is lower than initial backoff"),
      (q.enabled ∧ q.retryable = [], str "enabled retry requires at least one retryable classification")]

structure FallbackParams where
  mode : FallbackMode := .scalar
  maxScalarConcurrency : ℤ := 0
  onQueueOverflow : Bool := false
  onProviderUnavailable : Bool := false
  onUnsupportedPartition : Bool := false

def FallbackParams.validate (q : FallbackParams) : Option GoString :=
  wrapFailed (str "invalid fallback policy") [(q.mode = .parallelScalar ∧ q.maxScalarConcurrency < 1,
        str "parallel scalar fallback requires positive concurrency"),
      (q.mode = .reject ∧ q.maxScalarConcurrency ≠ 0, str "reject fallback must not set scalar concurrency"),
      ((q.mode = .scalar ∨ q.mode = .batchOfOne) ∧ q.maxScalarConcurrency < 0,
        str "scalar concurrency must not be negative")]

/-! ## Specs -/

/-- `Spec`, with the source position of its identifier. -/
structure Spec where
  id : GoString
  semantics : Semantics
  scalarSymbol : Symbol := {}
  batchSymbol : Symbol := {}
  keyContract : KeyContract := {}
  resultContract : ResultContract := orderedResults
  partitionContract : PartitionContract := defaultPartitionContract
  schedulerPolicy : SchedulerParams := defaultSchedulerPolicy
  deduplicationPolicy : DeduplicationParams := {}
  retryPolicy : RetryParams := {}
  fallbackPolicy : FallbackParams := {}
  source : Position := {}
  extensions : List Extension := []

def Spec.configBased (s : Spec) : Bool := !s.scalarSymbol.isZero || !s.batchSymbol.isZero

def operationSource : GoString := str "operation"

/-- A finding of `Spec.Validate`, if there is one. -/
def finding (s : Spec) (code : GoString) (text : Option GoString) : List Diagnostic :=
  text.toList.map fun message => ⟨code, message, operationSource, s.source, [], []⟩

/-- `validateCrossField` -/
def Spec.validateCrossField (s : Spec) : List Diagnostic :=
  let sem := s.semantics
  let part := s.partitionContract
  let check (code : String) (failed : Bool) (text : GoString) : List Diagnostic :=
    finding s (str code) (if failed then some text else none)
  check "BWOP015" (s.configBased && (s.scalarSymbol.isZero || s.batchSymbol.isZero))
      (str "configuration-based operation must declare both scalar and batch symbols") ++
    check "BWOP011" (sem.kind = .transactionBound && !part.requires (str "transaction"))
      (str "transaction-bound operation must partition by transaction") ++
    check "BWOP011" (sem.kind = .sessionBound && !part.requires (str "session"))
      (str "session-bound operation must partition by session") ++
    check "BWOP012" (s.deduplicationPolicy.mode ≠ .disabled && !sem.deduplicationAllowed)
      (str "deduplication is not permitted for " ++ Enumeration.text sem.kind ++ str " operations") ++
    check "BWOP013" (s.retryPolicy.enabled && !sem.retryAllowed)
      (str "retry is not permitted by the operation semantics") ++
    check "BWOP013" (s.retryPolicy.enabled && sem.idempotency = .nonIdempotent)
      (str "non-idempotent operations cannot enable retry") ++
    check "BWOP013" (s.retryPolicy.enabled && sem.idempotency = .conditional && s.retryPolicy.idempotencyKey.isZero)
      (str "conditional idempotency requires an idempotency-key symbol to enable retry") ++
    check "BWOP013" (s.retryPolicy.partialItemRetry && s.resultContract.errorMode ≠ .perItem &&
        s.resultContract.errorMode ≠ .mixed)
      (str "partial-item retry requires a per-item or mixed result error mode") ++
    check "BWOP014" (s.fallbackPolicy.mode = .parallelScalar && sem.idempotency = .nonIdempotent)
      (str "non-idempotent operations cannot use parallel scalar fallback") ++
    check "BWOP014" ((s.fallbackPolicy.mode = .parallelScalar || s.fallbackPolicy.mode = .scalar) &&
        s.configBased && s.scalarSymbol.isZero)
      (str "scalar fallback requires a scalar symbol")

/-- `Spec.Validate` -/
def Spec.validate (s : Spec) : List Diagnostic :=
  finding s (str "BWOP001") (idError L s.id) ++
    finding s (str "BWOP002") s.semantics.validate ++
    finding s (str "BWOP009") (s.keyContract.validate L) ++
    finding s (str "BWOP003") s.resultContract.validate ++
    finding s (str "BWOP004") (s.partitionContract.validate L) ++
    finding s (str "BWOP005") s.schedulerPolicy.validate ++
    finding s (str "BWOP006") (s.deduplicationPolicy.validate L) ++
    finding s (str "BWOP007") (s.retryPolicy.validate L) ++
    finding s (str "BWOP008") s.fallbackPolicy.validate ++
    s.extensions.flatMap (fun e => finding s (str "BWOP010") (e.validate L)) ++
    finding s (str "BWOP016") (if s.scalarSymbol.isZero then none
      else (s.scalarSymbol.validate L).map fun e => str "scalar " ++ e) ++
    finding s (str "BWOP016") (if s.batchSymbol.isZero then none
      else (s.batchSymbol.validate L).map fun e => str "batch " ++ e) ++
    s.validateCrossField

/-! ## The canonical text -/

/-- `strconv.FormatBool` -/
def formatBool (b : Bool) : GoString := if b then str "true" else str "false"

def symbolOrDash (s : Symbol) : GoString := if s.isZero then str "-" else s.string

def joinDimensions (dims : List GoString) : GoString := joinStrings (sortStrings dims) (str ",")

def joinClassifications (cs : List RetryClassification) : GoString :=
  joinStrings (sortStrings (cs.map Enumeration.text)) (str ",")

/-- A line of a canonical text, without its end. -/
def line (kv : GoString × GoString) : GoString := kv.1 ++ str "=" ++ kv.2

def Spec.headLines (s : Spec) : List (GoString × GoString) :=
  [(str "kind", Enumeration.text s.semantics.kind),
    (str "effect", Enumeration.text s.semantics.effect),
    (str "idempotency", Enumeration.text s.semantics.idempotency),
    (str "ordering", Enumeration.text s.semantics.ordering),
    (str "atomicity", Enumeration.text s.semantics.atomicity),
    (str "retry_allowed", formatBool s.semantics.retryAllowed),
    (str "dedup_allowed", formatBool s.semantics.deduplicationAllowed),
    (str "cross_scope_allowed", formatBool s.semantics.crossScopeAllowed),
    (str "freshness_dependent", formatBool s.semantics.freshnessDependent),
    (str "scalar", symbolOrDash s.scalarSymbol),
    (str "batch", symbolOrDash s.batchSymbol),
    (str "key_comparable", formatBool s.keyContract.comparable),
    (str "key_canonicalizer", symbolOrDash s.keyContract.canonicalKeySymbol)]

def ResultContract.lines (r : ResultContract) : List (GoString × GoString) :=
  [(str "result_mode", Enumeration.text r.mode),
    (str "result_missing", Enumeration.text r.missing),
    (str "result_error", Enumeration.text r.errorMode),
    (str "result_duplicate", Enumeration.text r.duplicate),
    (str "result_unexpected", Enumeration.text r.unexpected),
    (str "result_order_significant", formatBool r.orderSignificant),
    (str "result_unknown_representable", formatBool r.unknownRepresentable)]

def PartitionContract.lines (p : PartitionContract) : List (GoString × GoString) :=
  [(str "partition_scope", Enumeration.text p.scope),
    (str "partition_required", joinDimensions p.required),
    (str "partition_optional", joinDimensions p.optional),
    (str "partition_cross_root_scope", formatBool p.crossRootScope),
    (str "partition_receiver_policy", Enumeration.text p.receiverPolicy),
    (str "partition_missing_dimension", Enumeration.text p.missingDimension),
    (str "partition_max_active", formatInt p.maxActivePartitions),
    (str "partition_public", formatBool p.publicContextIndep)]

def SchedulerParams.lines (sc : SchedulerParams) : List (GoString × GoString) :=
  [(str "sched_mode", Enumeration.text sc.mode),
    (str "sched_min", formatInt sc.minBatchSize),
    (str "sched_max", formatInt sc.maxBatchSize),
    (str "sched_weight", formatInt sc.maxBatchWeight),
    (str "sched_payload", formatInt sc.maxPayloadBytes),
    (str "sched_wait", L.durationString sc.maxWait),
    (str "sched_deadline_margin", L.durationString sc.deadlineMargin),
    (str "sched_concurrency", formatInt sc.maxConcurrency),
    (str "sched_queue_items", formatInt sc.queueItems),
    (str "sched_queue_bytes", formatInt sc.queueBytes),
    (str "sched_active_partitions", formatInt sc.activePartitions),
    (str "sched_waiters_per_key", formatInt sc.waitersPerKey),
    (str "sched_fairness", Enumeration.text sc.fairness),
    (str "sched_priority", formatBool sc.prioritySupport),
    (str "sched_overflow", Enumeration.text sc.overflow)]

def DeduplicationParams.lines (d : DeduplicationParams) : List (GoString × GoString) :=
  [(str "dedup_mode", Enumeration.text d.mode),
    (str "dedup_inflight", formatBool d.inFlight),
    (str "dedup_scope_memo", formatBool d.scopeMemoization),
    (str "dedup_negative_memo", formatBool d.negativeMemoization),
    (str "dedup_error_memo", formatBool d.errorMemoization),
    (str "dedup_max_items", formatInt d.maxItems),
    (str "dedup_max_bytes", formatInt d.maxBytes),
    (str "dedup_canonicalizer", symbolOrDash d.canonicalizer)]

def RetryParams.lines (rt : RetryParams) : List (GoString × GoString) :=
  [(str "retry_enabled", formatBool rt.enabled),
    (str "retry_max_attempts", formatInt rt.maxAttempts),
    (str "retry_initial_backoff", L.durationString rt.initialBackoff),
    (str "retry_max_backoff", L.durationString rt.maxBackoff),
    (str "retry_jitter", Enumeration.text rt.jitter),
    (str "retry_classes", joinClassifications rt.retryable),
    (str "retry_respect_after", formatBool rt.respectRetryAfter),
    (str "retry_partial", formatBool rt.partialItemRetry),
    (str "retry_unknown_outcome", Enumeration.text rt.unknownOutcome),
    (str "retry_idempotency_key", symbolOrDash rt.idempotencyKey)]

def FallbackParams.lines (fb : FallbackParams) : List (GoString × GoString) :=
  [(str "fallback_mode", Enumeration.text fb.mode),
    (str "fallback_max_concurrency", formatInt fb.maxScalarConcurrency),
    (str "fallback_on_overflow", formatBool fb.onQueueOverflow),
    (str "fallback_on_unavailable", formatBool fb.onProviderUnavailable),
    (str "fallback_on_unsupported_partition", formatBool fb.onUnsupportedPartition)]

/-- `sort.Slice` by namespace -/
def sortExtensions (exts : List Extension) : List Extension :=
  exts.insertionSort fun a b => a.namespaceName ≤ b.namespaceName

def extensionLines (exts : List Extension) : List (GoString × GoString) :=
  (sortExtensions exts).map fun e => (str "ext:" ++ e.namespaceName, L.base64 e.data)

/-- The lines after the identifier that every spec has. -/
def Spec.fixedLines (s : Spec) : List (GoString × GoString) :=
  s.headLines ++ s.resultContract.lines ++ s.partitionContract.lines ++ s.schedulerPolicy.lines L ++
    s.deduplicationPolicy.lines ++ s.retryPolicy.lines L ++ s.fallbackPolicy.lines

def Spec.lines (s : Spec) : List (GoString × GoString) :=
  (str "id", s.id) :: (s.fixedLines L ++ extensionLines L s.extensions)

/-- `Spec.Canonical` -/
def Spec.canonical (s : Spec) : GoString := Words.terminate 10 ((s.lines L).map line)

/-! ## The catalog -/

/-- `CatalogBuilder.Add`: the specs so far with the findings about duplicates. -/
def addSpec (b : List Spec × List Diagnostic) (spec : Spec) : List Spec × List Diagnostic :=
  match b.1.find? fun s => s.id = spec.id with
  | some prev =>
    (b.1, b.2 ++ [⟨str "BWOP017", str "duplicate operation id " ++ L.quote spec.id, operationSource, spec.source, [],
      if prev.source = {} then [] else [(str "previous declaration", prev.source)]⟩])
  | none => (b.1 ++ [spec], b.2)

/-- `CatalogBuilder.Build` and `Catalog.List` -/
def catalogList (specs : List Spec) : List Spec := specs.insertionSort fun a b => a.id ≤ b.id

end

end BatchWeaver.Operation
