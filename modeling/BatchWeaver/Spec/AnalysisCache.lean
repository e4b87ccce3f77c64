import BatchWeaver.Lib.Run
import BatchWeaver.Spec.Prover

/-!
# The analysis cache of the workspace daemon

`handleAnalysis` of `internal/daemon` and the package `internal/analysiscache`: a request digests the sources of
the workspace, builds a key from the digest, and gets the payload from the memory tier, from another request that
is computing it, from the disk tier, or by running the analysis.

Files may change at any moment. The walk of `SourceDigest` therefore takes one step for each directory it lists and
each file it reads, the analysis takes one step for each file it reads (`Program`), and `server` is the system of
all interleavings of requests and changes. The mutex of the cache makes each critical section one step.

Left out are the counters of `Stats`, `validKey` (true of every key that `Key` makes) and the conversion between
snapshots and payloads. Which files the disk limit removes is left open (`evict`), as is whether the operating
system lets an entry be read or written.
-/

namespace BatchWeaver.Daemon

/-! ## The workspace -/

/-- A file name: not empty, without a slash or a zero byte. -/
def Name := {s : GoString // s ≠ [] ∧ 47 ∉ s ∧ 0 ∉ s}

instance : DecidableEq Name := inferInstanceAs (DecidableEq (Subtype _))

/-- A path below the root of the workspace. -/
abbrev RelPath := List Name

/-- `filepath.ToSlash` of a relative path -/
def slash (p : RelPath) : GoString := joinStrings (p.map Subtype.val) (str "/")

inductive Node
  | file (data : GoString)
  | dir
  /-- a symbolic link, and what reading through it gives -/
  | symlink (through : Option GoString)
deriving DecidableEq

/-- The files of a workspace; what is not in its root is in a directory. -/
structure Workspace where
  nodes : Table RelPath Node
  closed : ∀ p n, (nodes.lookup (p ++ [n])).isSome = true → p ≠ [] → nodes.lookup p = some .dir

/-- `os.ReadFile` -/
def Workspace.readFile (w : Workspace) (p : RelPath) : Option GoString :=
  match w.nodes.lookup p with
  | some (.file data) => some data
  | some (.symlink through) => through
  | _ => none

/-- The entry's name, if it stands directly in the directory `d`. -/
def childOf (d : RelPath) (e : Sigma fun _ : RelPath => Node) : Option (Name × Node) :=
  match e.1.getLast? with
  | some n => if e.1 = d ++ [n] then some (n, e.2) else none
  | none => none

/-- `os.ReadDir`: the entries of a directory, by name; none if it is not a directory. -/
def Workspace.readDir (w : Workspace) (d : RelPath) : Option (List (Name × Node)) :=
  if d = [] ∨ w.nodes.lookup d = some .dir then
    some ((w.nodes.entries.filterMap (childOf d)).insertionSort fun a b => a.1.val ≤ b.1.val)
  else none

/-- `filepath.Ext` of a file name -/
def ext (name : GoString) : GoString :=
  if 46 ∈ name then 46 :: (name.reverse.takeWhile fun b => b ≠ 46).reverse else []

/-- `relevantSource` -/
def relevantSource (name : GoString) : Bool :=
  decide (toLower (ext name) ∈
    [str ".go", str ".mod", str ".sum", str ".work", str ".yaml", str ".yml", str ".json"])

def skippedDir (name : GoString) : Bool :=
  decide (name ∈ [str ".git", str ".batchweaver", str "vendor", str "node_modules"])

/-! ## Requests -/

/-- `analysis.BuildContext` -/
structure BuildContext where
  goos : GoString
  goarch : GoString
  cgoEnabled : Bool
  tags : List GoString
  tests : Bool

/-- `AnalysisParams`; the overlay is a map from paths to contents. Whether the answer is stamped with the time
(`Reproducible`) is left out. -/
structure AnalysisParams where
  patterns : List GoString
  buildContext : BuildContext
  toolVersion : GoString
  overlay : Table GoString GoString

/-- An analysis is a function of the contents it reads: it ends, or reads a file and goes on with what it found. -/
inductive Program
  | stop (result : Except GoString GoString)
  | look (p : RelPath) (next : Option GoString → Program)

/-- What an analysis is told besides the files. -/
structure Input where
  patterns : List GoString
  buildContext : BuildContext
  toolVersion : GoString

inductive DigestError
  /-- `ErrUnsafePath` for an overlay path -/
  | unsafeOverlay (path : GoString)
  /-- `ErrUnsafePath` for a symbolic link -/
  | symlink (name : GoString)
  /-- an error of the operating system -/
  | io

/-- `Config`, normalized -/
structure Config where
  maxEntries : ℕ
  maxBytes : ℕ

/-- `normalizedConfig` -/
def normalizedConfig (config : Config) : Config :=
  ⟨if config.maxEntries = 0 then 32 else config.maxEntries,
    if config.maxBytes = 0 then 128 * 2 ^ 20 else config.maxBytes⟩

/-- The process a daemon runs in. -/
structure Env where
  /-- the canonical root of the workspace -/
  root : GoString
  /-- `runtime.Version()` -/
  goVersion : GoString
  /-- the defaults of GOOS and GOARCH -/
  goos : GoString
  goarch : GoString
  config : Config
  /-- what `EvalSymlinks`, `Abs`, `Rel` and `Lstat` make of an overlay path: its slash path below the root -/
  resolve : Workspace → GoString → Except DigestError GoString
  /-- `analysis.Analyze` -/
  analyze : Input → Program

/-- `withDefaults` -/
def BuildContext.withDefaults (E : Env) (bc : BuildContext) : BuildContext :=
  ⟨if bc.goos = [] then E.goos else bc.goos, if bc.goarch = [] then E.goarch else bc.goarch, bc.cgoEnabled, bc.tags,
    bc.tests⟩

/-- The patterns of a request, as `handleAnalysis` sets them. -/
def AnalysisParams.sortedPatterns (params : AnalysisParams) : List GoString :=
  sortStrings (if params.patterns = [] then [str "./..."] else params.patterns)

/-- The analysis that a request starts. -/
def AnalysisParams.program (E : Env) (params : AnalysisParams) : Program :=
  E.analyze ⟨params.sortedPatterns, params.buildContext.withDefaults E, params.toolVersion⟩

/-- A file below the root, by its absolute path. -/
def Env.absPath (E : Env) (p : RelPath) : GoString := E.root ++ str "/" ++ slash p

/-- What an analysis finds at a path: the overlay's content, or the file's. -/
def view (E : Env) (overlay : Table GoString GoString) (w : Workspace) (p : RelPath) : Option GoString :=
  match overlay.lookup (E.absPath p) with
  | some content => some content
  | none => w.readFile p

/-! ## The digest -/

/-- What the walk of `SourceDigest` has still to do. -/
inductive Visit
  /-- an overlay path to resolve -/
  | override (path content : GoString)
  /-- a directory to list -/
  | enter (dir : RelPath)
  | readFile (p : RelPath)
  /-- a symbolic link -/
  | reject (name : GoString)

structure Walk where
  todo : List Visit
  overrides : Table GoString GoString
  sources : List (GoString × GoString)

/-- The walk at its start; the overlay map is run through in some order. -/
def startWalk (overlay : Table GoString GoString) : Walk :=
  ⟨(overlay.entries.map fun e => .override e.1 e.2) ++ [.enter []], ∅, []⟩

/-- The callback of `WalkDir` for one entry of the directory `d`, up to reading it. -/
def visitEntry (overrides : Table GoString GoString) (d : RelPath) (entry : Name × Node) : List Visit :=
  let path := d ++ [entry.1]
  match entry.2 with
  | .dir => if skippedDir entry.1.val then [] else [.enter path]
  | .symlink _ => [.reject entry.1.val]
  | .file _ =>
    if !relevantSource entry.1.val then []
    else if (overrides.lookup (slash path)).isSome then []
    else [.readFile path]

/-- One step of the walk, in the workspace as it is now. -/
def Walk.step (E : Env) (w : Workspace) (k : Walk) : Except DigestError Walk :=
  match k.todo with
  | [] => .ok k
  | .override path content :: todo =>
    match E.resolve w path with
    | .error err => .error err
    | .ok rel => .ok ⟨todo, k.overrides.insert rel content, k.sources⟩
  | .enter d :: todo =>
    match w.readDir d with
    | none => .error .io
    | some entries => .ok ⟨entries.flatMap (visitEntry k.overrides d) ++ todo, k.overrides, k.sources⟩
  | .readFile p :: todo =>
    match w.readFile p with
    | none => .error .io
    | some data => .ok ⟨todo, k.overrides, k.sources ++ [(slash p, data)]⟩
  | .reject name :: _ => .error (.symlink name)

/-- The sources of a finished walk, by path. -/
def Walk.collected (k : Walk) : List (GoString × GoString) :=
  (k.sources ++ k.overrides.entries.map fun e => (e.1, e.2)).insertionSort fun a b => a.1 ≤ b.1

section

variable (H : Sha256)

/-- The end of `SourceDigest`. -/
def digestOf (sources : List (GoString × GoString)) : GoString :=
  str "sha256:" ++ hexEncode (H.sum (sources.flatMap fun s => s.1 ++ 0 :: H.sum s.2))

/-- `fmt.Sprint` of a boolean -/
def sprint (b : Bool) : GoString := if b then str "true" else str "false"

/-- The parts that `Key` hashes, for the key input that `handleAnalysis` builds. -/
def keyParts (E : Env) (params : AnalysisParams) (digest : GoString) : List GoString :=
  let bc := params.buildContext.withDefaults E
  [str "batchweaver.analysis-cache/v1alpha1", hexEncode (H.sum E.root), params.toolVersion, E.goVersion, bc.goos,
    bc.goarch, sprint bc.cgoEnabled, sprint bc.tests, sprint true, joinStrings (sortStrings bc.tags) (str ","),
    joinStrings (sortStrings params.sortedPatterns) [0], digest, str "batchweaver.analysis/v1alpha1",
    Prover.schemaVersion, str "batchweaver.transform/v1alpha1", str "1"]

/-- `Key` -/
def keyOf (E : Env) (params : AnalysisParams) (digest : GoString) : GoString :=
  str "sha256:" ++ hashParts H (keyParts H E params digest)

/-! ## The two tiers -/

/-- An entry of the memory tier. -/
structure Entry where
  key : GoString
  value : GoString

/-- The memory tier holds too much. -/
def overLimit (config : Config) (items : List Entry) : Bool :=
  decide (items.length > config.maxEntries ∨ (items.map fun e => e.value.length).sum > config.maxBytes)

/-- The eviction loop of `insertLocked`, from the back of the list. -/
def evictBack (config : Config) (items : List Entry) : List Entry :=
  if _h : overLimit config items = true ∧ items ≠ [] then evictBack config items.dropLast else items
termination_by items.length
decreasing_by
  have := List.length_pos_iff.2 _h.2
  rw [List.length_dropLast]
  omega

/-- `insertLocked`; the list is in the order of use, last used first. -/
def insertLocked (config : Config) (items : List Entry) (key value : GoString) : List Entry :=
  if value.length > config.maxBytes then items
  else if items.any fun e => e.key = key then ⟨key, value⟩ :: items.filter fun e => e.key ≠ key
  else evictBack config (⟨key, value⟩ :: items)

/-- `envelope` -/
structure Envelope where
  schema : GoString
  key : GoString
  digest : GoString
  payload : GoString

/-- The envelope that `writeDisk` writes. -/
def envelope (key value : GoString) : Envelope :=
  ⟨str "batchweaver.analysis-cache/v1alpha1", key, hashBytes H value, value⟩

/-- `loadDisk`, of a file that can be read: the payload, unless the envelope is not what it should be. -/
def openEnvelope (key : GoString) (stored : Envelope) : Option GoString :=
  if stored.schema ≠ str "batchweaver.analysis-cache/v1alpha1" ∨ stored.key ≠ key ∨
      stored.digest ≠ hashBytes H stored.payload then none
  else some stored.payload

/-! ## The daemon -/

/-- `Result`: where a payload came from; it was a hit unless it was computed. -/
inductive Source
  | memory
  | disk
  | compute
  | shared
deriving DecidableEq

inductive RequestError
  | source (err : DigestError)
  | analysis (err : GoString)
  | canceled

/-- Where a request is. `seen` is what the analysis has read. -/
inductive Phase
  | walking (walk : Walk)
  /-- before the first critical section of `GetOrCompute` -/
  | keyed (digest : GoString)
  /-- waiting for the request that computes the same key -/
  | waiting (digest : GoString) (leader : ℕ)
  /-- before `loadDisk` -/
  | loading (digest : GoString)
  | loaded (digest value : GoString)
  | computing (digest : GoString) (seen : List (RelPath × Option GoString)) (rest : Program)
  | computed (digest : GoString) (seen : List (RelPath × Option GoString)) (value : GoString)
  /-- before `writeDisk` -/
  | inserted (digest : GoString) (seen : List (RelPath × Option GoString)) (value : GoString)
  /-- before the last critical section -/
  | finishing (digest : GoString) (result : Except RequestError GoString) (source : Source)
  | done (digest : GoString) (result : Except RequestError (GoString × Source))
  /-- `SourceDigest` has failed -/
  | failed (err : DigestError)

structure Call where
  params : AnalysisParams
  phase : Phase

structure Server where
  workspace : Workspace
  calls : List Call
  items : List Entry
  /-- the request that computes a key -/
  inflight : Table GoString ℕ
  disk : Table GoString Envelope

inductive Event
  | request (params : AnalysisParams)
  /-- files of the workspace change -/
  | change (w : Workspace)
  /-- a step of the walk, or its end -/
  | walk (i : ℕ)
  | lookup (i : ℕ)
  /-- a waiting request takes the outcome of its leader -/
  | wake (i : ℕ)
  | cancel (i : ℕ)
  | load (i : ℕ) (readable : Bool)
  /-- the analysis reads a file, or ends -/
  | look (i : ℕ)
  | insert (i : ℕ)
  | persist (i : ℕ) (written : Bool)
  | finish (i : ℕ)
  /-- the disk limit removes an entry -/
  | evict (key : GoString)

variable (E : Env)

/-- `SourceDigest`: one step, or the key when the walk is over. -/
def stepWalk (w : Workspace) (k : Walk) : Phase :=
  match k.todo with
  | [] => .keyed (digestOf H k.collected)
  | _ :: _ =>
    match k.step E w with
    | .error err => .failed err
    | .ok k' => .walking k'

/-- The first critical section of `GetOrCompute`. -/
def stepLookup (s : Server) (i : ℕ) (params : AnalysisParams) (digest : GoString) : Server × Phase :=
  let key := keyOf H E params digest
  match s.items.find? fun e => e.key = key with
  | some e =>
    (⟨s.workspace, s.calls, e :: s.items.filter fun e => e.key ≠ key, s.inflight, s.disk⟩,
      .done digest (.ok (e.value, .memory)))
  | none =>
    match s.inflight.lookup key with
    | some leader => (s, .waiting digest leader)
    | none => (⟨s.workspace, s.calls, s.items, s.inflight.insert key i, s.disk⟩, .loading digest)

/-- `loadDisk` and what follows: a payload, or the start of the analysis. -/
def stepLoad (s : Server) (params : AnalysisParams) (digest : GoString) (readable : Bool) : Server × Phase :=
  let key := keyOf H E params digest
  let compute : Phase := .computing digest [] (params.program E)
  match s.disk.lookup key with
  | none => (s, compute)
  | some stored =>
    if !readable then (s, compute)
    else
      match openEnvelope H key stored with
      | some value => (s, .loaded digest value)
      | none => (⟨s.workspace, s.calls, s.items, s.inflight, s.disk.erase key⟩, compute)

/-- A waiting request, when the outcome of its leader is there. -/
def stepWake (s : Server) (digest : GoString) (leader : ℕ) : Phase :=
  match s.calls[leader]? with
  | some ⟨_, .done _ (.ok r)⟩ => .done digest (.ok (r.1, .shared))
  | some ⟨_, .done _ (.error err)⟩ => .done digest (.error err)
  | _ => .waiting digest leader

/-- The analysis reads a file, or ends. -/
def stepLook (w : Workspace) (params : AnalysisParams) (digest : GoString)
    (seen : List (RelPath × Option GoString)) : Program → Phase
  | .stop (.ok value) => .computed digest seen value
  | .stop (.error err) => .finishing digest (.error (.analysis err)) .compute
  | .look p next =>
    let found := view E params.overlay w p
    .computing digest (seen ++ [(p, found)]) (next found)

/-- The outcome of a request. -/
def outcome (result : Except RequestError GoString) (source : Source) : Except RequestError (GoString × Source) :=
  match result with
  | .ok value => .ok (value, source)
  | .error err => .error err

/-- A step of the request `i`, which is `call`: the server without that request's new phase, and the phase. -/
def stepCall (s : Server) (i : ℕ) (call : Call) : Event → Option (Server × Phase)
  | .walk _ =>
    match call.phase with
    | .walking k => some (s, stepWalk H E s.workspace k)
    | _ => none
  | .lookup _ =>
    match call.phase with
    | .keyed digest => some (stepLookup H E s i call.params digest)
    | _ => none
  | .wake _ =>
    match call.phase with
    | .waiting digest leader => some (s, stepWake s digest leader)
    | _ => none
  | .cancel _ =>
    match call.phase with
    | .waiting digest _ => some (s, .done digest (.error .canceled))
    | .computing digest _ _ => some (s, .finishing digest (.error .canceled) .compute)
    | _ => none
  | .load _ readable =>
    match call.phase with
    | .loading digest => some (stepLoad H E s call.params digest readable)
    | _ => none
  | .look _ =>
    match call.phase with
    | .computing digest seen rest => some (s, stepLook E s.workspace call.params digest seen rest)
    | _ => none
  | .insert _ =>
    match call.phase with
    | .loaded digest value =>
      some (⟨s.workspace, s.calls, insertLocked E.config s.items (keyOf H E call.params digest) value, s.inflight,
        s.disk⟩, .finishing digest (.ok value) .disk)
    | .computed digest seen value =>
      some (⟨s.workspace, s.calls, insertLocked E.config s.items (keyOf H E call.params digest) value, s.inflight,
        s.disk⟩, .inserted digest seen value)
    | _ => none
  | .persist _ written =>
    match call.phase with
    | .inserted digest _ value =>
      let key := keyOf H E call.params digest
      let disk := if written then s.disk.insert key (envelope H key value) else s.disk
      some (⟨s.workspace, s.calls, s.items, s.inflight, disk⟩, .finishing digest (.ok value) .compute)
    | _ => none
  | .finish _ =>
    match call.phase with
    | .finishing digest result source =>
      some (⟨s.workspace, s.calls, s.items, s.inflight.erase (keyOf H E call.params digest), s.disk⟩,
        .done digest (outcome result source))
    | _ => none
  | _ => none

/-- The request that takes a step. -/
def Event.actor : Event → Option ℕ
  | .walk i | .lookup i | .wake i | .cancel i | .load i _ | .look i | .insert i | .persist i _ | .finish i => some i
  | _ => none

/-- A step of a request, if it is where it takes this step. -/
def stepActor (s : Server) (e : Event) (i : ℕ) : Option Server :=
  match s.calls[i]? with
  | none => none
  | some call =>
    match stepCall H E s i call e with
    | none => none
    | some (s', phase) =>
      some ⟨s'.workspace, s'.calls.set i ⟨call.params, phase⟩, s'.items, s'.inflight, s'.disk⟩

/-- One event. -/
def step (s : Server) (e : Event) : Option Server :=
  match e with
  | .request params =>
    some ⟨s.workspace, s.calls ++ [⟨params, .walking (startWalk params.overlay)⟩], s.items, s.inflight, s.disk⟩
  | .change w => some ⟨w, s.calls, s.items, s.inflight, s.disk⟩
  | .evict key => some ⟨s.workspace, s.calls, s.items, s.inflight, s.disk.erase key⟩
  | e =>
    match e.actor with
    | none => none
    | some i => stepActor H E s e i

/-- A daemon with an empty cache. -/
def server (w : Workspace) : System Server Event where
  init := ⟨w, [], [], ∅, ∅⟩
  ok _ s e := (step H E s e).isSome = true
  next s e := (step H E s e).getD s

end

end BatchWeaver.Daemon
