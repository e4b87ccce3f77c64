import BatchWeaver.Lib.Table
import BatchWeaver.Spec.Strings

/-!
# Plans on disk, materialization and recovery

`store.go`, `materialize.go` and the file plans of `plan.go` in `internal/transform`. A plan lists
files with the digests of their contents before and after; the contents themselves are only in
memory. `materialize` writes the contents after a check of all files, `revert` puts the originals back
from a backup, `recover` reads the state of every backup.

The disk is the source tree together with the state directory. A source file is found at its cleaned
path below the root, so that two listed paths can name one file. The state directory is kept apart: no
listed path leads into it. Plans and manifests are stored as values: what `json.MarshalIndent` writes
is what `json.Unmarshal` reads. Every write is atomic and succeeds; a write that fails stops
`Materialize`, which is a stop after a prefix of its writes (`materializeWrites`).

Of a plan, only the identity, the digest and the files are read here.
-/

namespace BatchWeaver.Transform

variable (H : Sha256)

/-! ## Paths -/

/-- The elements of an absolute path. -/
abbrev Path := List GoString

/-- One element of a path under `filepath.Clean`. -/
def cleanStep (acc : Path) (elem : GoString) : Path :=
  if elem = [] ∨ elem = str "." then acc
  else if elem = str ".." then acc.dropLast
  else acc ++ [elem]

/-- `filepath.Join(root, filepath.FromSlash(path))` -/
def target (root : Path) (path : GoString) : Path := (path.splitOn 47).foldl cleanStep root

/-- `digestFileName` -/
def digestFileName (digest : GoString) : GoString := trimPrefix digest (str "sha256:") ++ str ".go"

/-! ## Plans -/

structure FilePlan where
  path : GoString
  originalDigest : GoString
  transformedDigest : GoString
  created : Bool := false
  transformed : GoString := []
  original : GoString := []
  deriving DecidableEq

structure Plan where
  id : GoString
  digest : GoString
  files : List FilePlan
  deriving DecidableEq

structure PendingEdit where
  start : ℕ
  stop : ℕ
  repl : GoString

/-- The splicing loop of `applyEdits`: what it wrote and where it stands in `src`. -/
def splice (src : GoString) (edits : List PendingEdit) : GoString × ℕ :=
  edits.foldl (fun acc e => (acc.1 ++ (src.take e.start).drop acc.2 ++ e.repl, e.stop)) ([], 0)

/-- `applyEdits`; `none` if two edits overlap. -/
def applyEdits (src : GoString) (edits : List PendingEdit) : Option GoString :=
  let es := edits.insertionSort fun a b => a.start ≤ b.start
  if (es.zip es.tail).any fun p => decide (p.2.start < p.1.stop) then none
  else
    let out := splice src es
    some (out.1 ++ src.drop out.2)

/-- The file plan of a modified file. -/
def modifiedFile (rel src formatted : GoString) : FilePlan :=
  { path := rel, originalDigest := hashBytes H src, transformedDigest := hashBytes H formatted,
    transformed := formatted, original := src }

/-- The file plan of a generated file. -/
def createdFile (rel content : GoString) : FilePlan :=
  { path := rel, originalDigest := hashBytes H [], transformedDigest := hashBytes H content,
    created := true, transformed := content, original := [] }

/-- `buildFilePlans`, with `format.Source` as a parameter. A file that is not loaded, whose edits overlap
or that does not format is left out. -/
def buildFilePlans (format : GoString → Option GoString) (byFile : GoString → Option GoString)
    (edits : Table GoString (List PendingEdit)) (created : Table GoString GoString) : List FilePlan :=
  let modified := (sortStrings edits.keys).filterMap fun rel =>
    (byFile rel).bind fun src =>
      ((applyEdits src ((edits.lookup rel).getD [])).bind format).map (modifiedFile H rel src)
  let generated := (sortStrings created.keys).map fun rel =>
    createdFile H rel ((created.lookup rel).getD [])
  (modified ++ generated).insertionSort fun a b => a.path ≤ b.path

/-! ## The backup manifest -/

inductive MaterializationState where
  | writing
  | committed
  | reverted
  | revertConflict
  | recoveryReq
  deriving DecidableEq

structure BackupFile where
  path : GoString
  originalDigest : GoString
  transformedDigest : GoString
  backupObject : GoString
  committed : Bool := false
  created : Bool
  deriving DecidableEq

structure BackupManifest where
  schemaVersion : GoString
  materializationID : GoString
  planID : GoString
  workspace : GoString
  tool : GoString
  state : MaterializationState
  files : List BackupFile
  deriving DecidableEq

def backupManifestSchema : GoString := str "batchweaver.backup/v1alpha1"

/-! ## The disk -/

structure Disk where
  /-- the source tree -/
  files : Path → Option GoString
  /-- `cache/transform/<plan>/plan.json` -/
  plans : GoString → Option Plan
  /-- `cache/transform/<plan>/files/<name>` -/
  planFiles : GoString × GoString → Option GoString
  /-- `backups/<materialization>/manifest.json` -/
  manifests : Table GoString BackupManifest
  /-- `backups/<materialization>/files/<object>` -/
  objects : GoString × GoString → Option GoString

/-- An atomic write: a temporary file, then a rename. -/
inductive Write where
  | manifest (matID : GoString) (m : BackupManifest)
  | backup (matID object data : GoString)
  | target (path : Path) (data : GoString)
  deriving DecidableEq

def Disk.apply (d : Disk) : Write → Disk
  | .manifest matID m => { d with manifests := d.manifests.insert matID m }
  | .backup matID object data =>
    { d with objects := Function.update d.objects (matID, object) (some data) }
  | .target path data => { d with files := Function.update d.files path (some data) }

def Disk.applyAll (d : Disk) (ws : List Write) : Disk := ws.foldl Disk.apply d

/-! ## Saving and loading plans -/

/-- What `plan.json` keeps of a file plan. -/
def FilePlan.json (fp : FilePlan) : FilePlan := { fp with transformed := [], original := [] }

def savePlan (d : Disk) (plan : Plan) : Disk :=
  let planFiles := plan.files.foldl
    (fun m fp => Function.update m (plan.id, digestFileName fp.transformedDigest) (some fp.transformed))
    d.planFiles
  { d with
    planFiles := planFiles
    plans := Function.update d.plans plan.id (some { plan with files := plan.files.map FilePlan.json }) }

inductive LoadError where
  | load (planID : GoString)
  | missing (planID path : GoString)
  | corrupt (planID path : GoString)
  deriving DecidableEq

def LoadError.error : LoadError → GoString
  | .load planID => str "load plan " ++ planID
  | .missing planID path => str "plan " ++ planID ++ str ": missing transformed file " ++ path
  | .corrupt planID path =>
    str "plan " ++ planID ++ str ": transformed file " ++ path ++ str " is corrupt"

/-- One file of `LoadPlan`. The original is whatever the tree holds now, and stays as it was decoded if
there is no such file. -/
def loadFile (d : Disk) (root : Path) (planID : GoString) (fp : FilePlan) : Except LoadError FilePlan :=
  match d.planFiles (planID, digestFileName fp.transformedDigest) with
  | none => .error (.missing planID fp.path)
  | some b =>
    if hashBytes H b ≠ fp.transformedDigest then .error (.corrupt planID fp.path)
    else .ok { fp with transformed := b, original := (d.files (target root fp.path)).getD fp.original }

def loadPlan (d : Disk) (root : Path) (planID : GoString) : Except LoadError Plan :=
  match d.plans planID with
  | none => .error (.load planID)
  | some plan => (plan.files.mapM (loadFile H d root planID)).map fun fs => { plan with files := fs }

/-! ## Materialize -/

inductive MaterializeError where
  | generatedExists (path : GoString)
  | read (path : GoString)
  | changed (path : GoString)
  deriving DecidableEq

def MaterializeError.error : MaterializeError → GoString
  | .generatedExists path => str "BW3701: generated file " ++ path ++ str " already exists"
  | .read path => str "materialize: read " ++ path
  | .changed path => str "BW3701: materialization precondition changed for " ++ path

/-- The precondition of one file. -/
def checkFile (d : Disk) (root : Path) (fp : FilePlan) : Except MaterializeError Unit :=
  if fp.created then
    if (d.files (target root fp.path)).isSome then .error (.generatedExists fp.path) else .ok ()
  else
    match d.files (target root fp.path) with
    | none => .error (.read fp.path)
    | some cur => if hashBytes H cur ≠ fp.originalDigest then .error (.changed fp.path) else .ok ()

def backupEntry (fp : FilePlan) : BackupFile :=
  { path := fp.path, originalDigest := fp.originalDigest, transformedDigest := fp.transformedDigest,
    backupObject := digestFileName fp.originalDigest, created := fp.created }

def committedEntry (fp : FilePlan) : BackupFile := { backupEntry fp with committed := true }

def materializationID (plan : Plan) : GoString := shortID H (str "bwmat") [plan.id, plan.digest]

def newManifest (tool : GoString) (plan : Plan) (state : MaterializationState)
    (files : List BackupFile) : BackupManifest :=
  { schemaVersion := backupManifestSchema, materializationID := materializationID H plan,
    planID := plan.id, workspace := str ".", tool := tool, state := state, files := files }

/-- The writes for one file: the backup of an existing one, then the file. -/
def fileWrites (root : Path) (matID : GoString) (fp : FilePlan) : List Write :=
  (if fp.created then [] else [.backup matID (digestFileName fp.originalDigest) fp.original]) ++
    [.target (target root fp.path) fp.transformed]

/-- The commit loop, with the entries of the files behind it in `done`. -/
def commitLoop (root : Path) (tool : GoString) (plan : Plan) : List BackupFile → List FilePlan → List Write
  | _, [] => []
  | done, fp :: rest =>
    let done' := done ++ [committedEntry fp]
    fileWrites root (materializationID H plan) fp ++
      .manifest (materializationID H plan) (newManifest H tool plan .writing (done' ++ rest.map backupEntry)) ::
        commitLoop root tool plan done' rest

/-- All writes of `Materialize`, in order. -/
def materializeWrites (root : Path) (tool : GoString) (plan : Plan) : List Write :=
  .manifest (materializationID H plan) (newManifest H tool plan .writing (plan.files.map backupEntry)) ::
    (commitLoop H root tool plan [] plan.files ++ [.manifest (materializationID H plan)
        (newManifest H tool plan .committed (plan.files.map committedEntry))])

structure MaterializeResult where
  materializationID : GoString
  filesChanged : ℕ

def materialize (d : Disk) (root : Path) (tool : GoString) (plan : Plan) :
    Except MaterializeError (Disk × MaterializeResult) := do
  plan.files.forM (checkFile H d root)
  return (d.applyAll (materializeWrites H root tool plan), ⟨materializationID H plan, plan.files.length⟩)

/-! ## Revert -/

structure RevertResult where
  filesRestored : ℕ := 0
  conflicts : List GoString := []
  deriving DecidableEq

def RevertResult.conflict (r : RevertResult) (path : GoString) : RevertResult :=
  { r with conflicts := r.conflicts ++ [path] }

def RevertResult.restored (r : RevertResult) : RevertResult :=
  { r with filesRestored := r.filesRestored + 1 }

/-- One file of `Revert`. -/
def revertFile (root : Path) (matID : GoString) (acc : Disk × RevertResult) (bf : BackupFile) :
    Disk × RevertResult :=
  if !bf.committed then acc
  else
    let path := target root bf.path
    match acc.1.files path with
    | none => (acc.1, acc.2.conflict bf.path)
    | some cur =>
      if hashBytes H cur ≠ bf.transformedDigest then (acc.1, acc.2.conflict bf.path)
      else if bf.created then
        ({ acc.1 with files := Function.update acc.1.files path none }, acc.2.restored)
      else
        match acc.1.objects (matID, bf.backupObject) with
        | none => (acc.1, acc.2.conflict bf.path)
        | some orig =>
          if hashBytes H orig ≠ bf.originalDigest then (acc.1, acc.2.conflict bf.path)
          else (acc.1.apply (.target path orig), acc.2.restored)

/-- `Revert`; `none` if there is no manifest. -/
def revert (d : Disk) (root : Path) (matID : GoString) : Option (Disk × RevertResult) :=
  (d.manifests.lookup matID).map fun m =>
    let out := m.files.foldl (revertFile H root matID) (d, {})
    let state := if out.2.conflicts ≠ [] then MaterializationState.revertConflict else .reverted
    (out.1.apply (.manifest matID { m with state := state }), out.2)

/-! ## Recover -/

structure RecoverStatus where
  materializationID : GoString
  state : MaterializationState
  committedFiles : ℕ
  totalFiles : ℕ

def recoverStatus (m : BackupManifest) : RecoverStatus :=
  let committed := m.files.countP fun f => f.committed
  let state :=
    if m.state = .writing ∧ committed < m.files.length then MaterializationState.recoveryReq else m.state
  ⟨m.materializationID, state, committed, m.files.length⟩

/-- `Recover`, over the backups in the order of their names. -/
def recover (d : Disk) : List RecoverStatus :=
  (sortStrings d.manifests.keys).filterMap fun id => (d.manifests.lookup id).map recoverStatus

end BatchWeaver.Transform
