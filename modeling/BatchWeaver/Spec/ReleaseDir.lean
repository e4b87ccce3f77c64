import BatchWeaver.Spec.Materialize

/-!
# The release directory

Cleaning an output directory (`internal/release/util.go`), with the path functions of `path/filepath` that it uses.
-/

namespace BatchWeaver.Assurance

open Transform (Path target)

/-! ## Paths -/

/-- `filepath.IsAbs` -/
def isAbs (path : GoString) : Bool := hasPrefix path (str "/")

/-- `filepath.Abs` in a working directory -/
def absPath (cwd : Path) (path : GoString) : Path := target (if isAbs path then [] else cwd) path

/-- An absolute path as it is written. -/
def pathText (p : Path) : GoString := str "/" ++ joinStrings p (str "/")

/-! ## Cleaning an output directory -/

section

variable {E : Type}

/-- What the operating system answers: the working directory, the error of `RemoveAll` with what it left
behind, and the error of `MkdirAll`. -/
structure OS (E : Type) where
  getwd : Except E Path
  removeFails : Path → Option (E × (Path → Bool))
  mkdirFails : Path → Option E

inductive OutputError (E : Type) where
  | os (err : E)
  | refused (text : GoString)

/-- What a call leaves: the files, the path it gave to `RemoveAll`, and its result. -/
structure Cleaned (E : Type) where
  files : Path → Option GoString
  removed : Option Path
  result : Except (OutputError E) Path

/-- `filepath.Abs` -/
def OS.abs (os : OS E) (path : GoString) : Except E Path :=
  if isAbs path then .ok (absPath [] path) else os.getwd.map fun cwd => absPath cwd path

/-- `os.RemoveAll` -/
def OS.removeAll (os : OS E) (files : Path → Option GoString) (p : Path) : Path → Option GoString :=
  fun q =>
    if p <+: q ∧ (os.removeFails p).all (fun e => !e.2 q) then none else files q

/-- The guard of both functions. -/
def broad (abs rootAbs : Path) : Bool := abs = rootAbs ∨ abs = rootAbs.dropLast ∨ abs = []

/-- Both functions up to `RemoveAll`; `refusal` is the text in front of the path. -/
def removeOutput (os : OS E) (refusal root output : GoString) (files : Path → Option GoString) : Cleaned E :=
  match os.abs output with
  | .error err => ⟨files, none, .error (.os err)⟩
  | .ok abs =>
    match os.abs root with
    | .error err => ⟨files, none, .error (.os err)⟩
    | .ok rootAbs =>
      if broad abs rootAbs then ⟨files, none, .error (.refused (refusal ++ pathText abs))⟩
      else
        ⟨os.removeAll files abs, some abs, match os.removeFails abs with
          | some e => .error (.os e.1)
          | none => .ok abs⟩

def cleanOutput (os : OS E) (root output : GoString) (files : Path → Option GoString) : Cleaned E :=
  let c := removeOutput os (str "BW9001: refusing unsafe output directory ") root output files
  match c.result with
  | .error _ => c
  | .ok abs =>
    match os.mkdirFails abs with
    | some err => { c with result := .error (.os err) }
    | none => c

/-- `Clean`; its result has no value. -/
def cleanDir (os : OS E) (root output : GoString) (files : Path → Option GoString) : Cleaned E :=
  removeOutput os (str "refusing unsafe output directory ") root output files

end

end BatchWeaver.Assurance
