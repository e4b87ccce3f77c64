import BatchWeaver.Lib.Run
import BatchWeaver.Lib.Table
import BatchWeaver.Spec.Strings

/-!
# Editor buffers

The proxy between an editor and gopls: positions and the document store (`internal/lsp/documents`), the
dispatch of incoming messages (`internal/lsp/jsonrpc`) and the handler of editor messages
(`internal/lsp/proxy`).

A handler runs on a goroutine of its own. It changes the store in one step, under the store's lock, and then
writes to gopls one message at a time, under the writer's lock; between those steps any other goroutine may run.
`session` is the system of all such runs.

JSON decoding, `URIToPath` and the list of BatchWeaver's own commands are parameters (`Env`). What handlers answer
to the editor and the diagnostics they publish are left out: neither touches the store or what gopls is sent.
-/

namespace BatchWeaver.Lsp

/-! ## Positions -/

/-- `protocol.Position`: a line and an offset in UTF-16 code units, both from zero. -/
structure Position where
  line : ℕ
  character : ℕ

/-- `protocol.Range` -/
structure Range where
  start : Position
  stop : Position

def inBounds (low high : ℕ) (b : UInt8) : Bool := decide (low ≤ b.toNat ∧ b.toNat ≤ high)

/-- The low six bits of a continuation byte. -/
def tailBits (b : UInt8) : ℕ := b.toNat % 64

/-- `utf8.RuneError` -/
def runeError : ℕ := 0xFFFD

/-- The bounds of the second byte of a rune, by its first one. -/
def secondBounds (b : UInt8) : ℕ × ℕ :=
  if b.toNat = 0xE0 then (0xA0, 0xBF)
  else if b.toNat = 0xED then (0x80, 0x9F)
  else if b.toNat = 0xF0 then (0x90, 0xBF)
  else if b.toNat = 0xF4 then (0x80, 0x8F)
  else (0x80, 0xBF)

/-- A rune of two bytes, the first one being `b`. -/
def decodeTwo (b : UInt8) : GoString → ℕ × ℕ
  | c :: _ =>
    if inBounds 0x80 0xBF c then (b.toNat % 32 * 64 + tailBits c, 2) else (runeError, 1)
  | _ => (runeError, 1)

def decodeThree (b : UInt8) : GoString → ℕ × ℕ
  | c :: d :: _ =>
    if inBounds (secondBounds b).1 (secondBounds b).2 c && inBounds 0x80 0xBF d then
      (b.toNat % 16 * 4096 + tailBits c * 64 + tailBits d, 3)
    else (runeError, 1)
  | _ => (runeError, 1)

def decodeFour (b : UInt8) : GoString → ℕ × ℕ
  | c :: d :: e :: _ =>
    if inBounds (secondBounds b).1 (secondBounds b).2 c && inBounds 0x80 0xBF d && inBounds 0x80 0xBF e then
      (b.toNat % 8 * 262144 + tailBits c * 4096 + tailBits d * 64 + tailBits e, 4)
    else (runeError, 1)
  | _ => (runeError, 1)

/-- `utf8.DecodeRune`: the first rune and its size; an invalid byte is a rune error of size one. -/
def decodeRune : GoString → ℕ × ℕ
  | [] => (runeError, 0)
  | b :: rest =>
    if b.toNat < 0x80 then (b.toNat, 1)
    else if inBounds 0xC2 0xDF b then decodeTwo b rest
    else if inBounds 0xE0 0xEF b then decodeThree b rest
    else if inBounds 0xF0 0xF4 b then decodeFour b rest
    else (runeError, 1)

lemma decodeRune_size_pos (b : UInt8) (rest : GoString) : 0 < (decodeRune (b :: rest)).2 := by
  rw [decodeRune]
  split
  · exact Nat.one_pos
  split
  · unfold decodeTwo
    split
    · split <;> simp
    · exact Nat.one_pos
  split
  · unfold decodeThree
    split
    · split <;> simp
    · exact Nat.one_pos
  split
  · unfold decodeFour
    split
    · split <;> simp
    · exact Nat.one_pos
  · exact Nat.one_pos

/-- The loop of `utf16OffsetToByte`, at byte `byteIdx` of a segment with `seg` still ahead. -/
def utf16Loop (u16 : ℕ) (seg : GoString) (units byteIdx : ℕ) : ℕ :=
  match seg with
  | [] => byteIdx
  | b :: rest =>
    let rune := decodeRune (b :: rest)
    let w := if rune.1 > 0xFFFF then 2 else 1
    if units + w > u16 then byteIdx
    else if units + w = u16 then byteIdx + rune.2
    else utf16Loop u16 ((b :: rest).drop rune.2) (units + w) (byteIdx + rune.2)
termination_by seg.length
decreasing_by
  have := decodeRune_size_pos b rest
  simp only [List.length_drop, List.length_cons]
  omega

/-- `utf16OffsetToByte` -/
def utf16OffsetToByte (seg : GoString) (u16 : ℕ) : ℕ := if u16 = 0 then 0 else utf16Loop u16 seg 0 0

/-- `Mapper` -/
structure Mapper where
  content : GoString
  lineStarts : List ℕ

/-- `NewMapper` -/
def newMapper (content : GoString) : Mapper :=
  ⟨content, 0 :: (content.zipIdx.filter fun b => b.1 = 10).map fun b => b.2 + 1⟩

/-- A line without its terminator, `\n` or `\r\n`. -/
def trimTerminator (seg : GoString) : GoString :=
  if seg.getLast? = some 10 then
    let line := seg.dropLast
    if line.getLast? = some 13 then line.dropLast else line
  else seg

/-- `lineBytes` -/
def Mapper.lineBytes (m : Mapper) (line : ℕ) : GoString :=
  match m.lineStarts[line]? with
  | none => []
  | some start =>
    let stop := (m.lineStarts[line + 1]?).getD m.content.length
    trimTerminator ((m.content.take stop).drop start)

/-- `PositionToOffset` -/
def Mapper.positionToOffset (m : Mapper) (pos : Position) : ℕ :=
  match m.lineStarts[pos.line]? with
  | none => m.content.length
  | some start => start + utf16OffsetToByte (m.lineBytes pos.line) pos.character

/-- `RangeToByteRange` -/
def Mapper.rangeToByteRange (m : Mapper) (r : Range) : ℕ × ℕ :=
  (m.positionToOffset r.start, m.positionToOffset r.stop)

/-! ## File URIs -/

/-- The bytes that `net/url` writes as they are in a path. -/
def keptInPath (c : UInt8) : Bool := isLower c || isUpper c || isDigit c || (str "-_.~$&+,/:;=@").contains c

/-- `escape` of `net/url` on a path -/
def escapePath (p : GoString) : GoString := p.flatMap fun c =>
  if keptInPath c then [c] else [37, upperByte (hexDigit (c.toNat / 16)), upperByte (hexDigit (c.toNat % 16))]

/-- `unhex` of `net/url` -/
def unhex (c : UInt8) : Option ℕ := (List.range 16).find? fun n => hexDigit n = lowerByte c

/-- `url.PathUnescape` -/
def pathUnescape : GoString → Option GoString
  | [] => some []
  | c :: s =>
    if c ≠ 37 then (pathUnescape s).map (c :: ·)
    else match s with
      | a :: b :: t => do return UInt8.ofNat (16 * (← unhex a) + (← unhex b)) :: (← pathUnescape t)
      | _ => none

/-- What `url.Parse` finds in a `file` URI: the host, which `host` takes from the authority, and the path. `none` is an
error or another scheme. -/
def parseFile (host : GoString → Option GoString) (uri : GoString) : Option (GoString × GoString) := do
  let u := uri.takeWhile (· ≠ 35)
  guard (u.all (fun c => decide (32 ≤ c.toNat ∧ c ≠ 127)) ∧ toLower (u.take 5) = str "file:")
  let _ ← pathUnescape (uri.drop (u.length + 1))
  let rest := (u.drop 5).takeWhile (· ≠ 63)
  if rest.take 2 = str "//" then
    let authority := (rest.drop 2).takeWhile (· ≠ 47)
    return (← host authority, ← pathUnescape ((rest.drop 2).drop authority.length))
  else if rest.head? = some 47 then return ([], ← pathUnescape rest)
  else return ([], [])

/-- `URIToPath` outside Windows; `clean` is `filepath.Clean`. -/
def uriToPath (host : GoString → Option GoString) (clean : GoString → GoString) (uri : GoString) : Option GoString := do
  let u ← parseFile host uri
  let p ← pathUnescape u.2
  if u.1 = [] then some (clean p) else none

/-- `PathToURI` of an absolute path -/
def pathToURI (path : GoString) : GoString := str "file://" ++ escapePath path

/-! ## The document store -/

/-- `documents.Document`; the version is an `int32`. -/
structure Document where
  uri : GoString
  path : GoString
  languageID : GoString
  version : ℤ
  content : GoString

/-- `documents.Store` -/
abbrev Store := Table GoString Document

/-- `protocol.TextDocumentItem` -/
structure TextDocumentItem where
  uri : GoString
  languageID : GoString
  version : ℤ
  text : GoString

/-- `protocol.VersionedTextDocumentIdentifier` -/
structure VersionedIdentifier where
  uri : GoString
  version : ℤ

/-- `protocol.TextDocumentContentChangeEvent`: without a range, the text replaces the whole content. -/
structure ContentChange where
  range : Option Range
  text : GoString

inductive StoreError
  /-- what `URIToPath` says of the URI -/
  | uri (uri : GoString)
  /-- `documents: change to unopened document %q` -/
  | unopened (uri : GoString)
  /-- `documents: out-of-order version %d < %d for %q` -/
  | outOfOrder (version current : ℤ) (uri : GoString)
  /-- `documents: invalid change range for %q` -/
  | invalidRange (uri : GoString)

/-- `Store.Open` -/
def Store.opened (uriToPath : GoString → Option GoString) (s : Store) (item : TextDocumentItem) :
    Except StoreError (Document × Store) :=
  match uriToPath item.uri with
  | none => .error (.uri item.uri)
  | some path =>
    let d : Document := ⟨item.uri, path, item.languageID, item.version, item.text⟩
    .ok (d, s.insert item.uri d)

/-- One turn of the loop of `Store.Change`. -/
def applyChange (content : GoString) (ch : ContentChange) : Option GoString :=
  match ch.range with
  | none => some ch.text
  | some r =>
    let bytes := (newMapper content).rangeToByteRange r
    if bytes.1 > bytes.2 ∨ bytes.2 > content.length then none
    else some (content.take bytes.1 ++ ch.text ++ content.drop bytes.2)

/-- The loop of `Store.Change`. -/
def applyChanges : GoString → List ContentChange → Option GoString
  | content, [] => some content
  | content, ch :: changes =>
    match applyChange content ch with
    | none => none
    | some content => applyChanges content changes

/-- `Store.Change` -/
def Store.change (s : Store) (id : VersionedIdentifier) (changes : List ContentChange) :
    Except StoreError (Document × Store) :=
  match s.lookup id.uri with
  | none => .error (.unopened id.uri)
  | some d =>
    if id.version < d.version then .error (.outOfOrder id.version d.version id.uri)
    else
      match applyChanges d.content changes with
      | none => .error (.invalidRange id.uri)
      | some content =>
        let d' : Document := ⟨d.uri, d.path, d.languageID, id.version, content⟩
        .ok (d', s.insert id.uri d')

/-- `Store.Close` -/
def Store.close (s : Store) (uri : GoString) : Bool × Store := ((s.lookup uri).isSome, s.erase uri)

/-! ## Messages -/

/-- `jsonrpc.ID`, where it is present -/
inductive ID
  | number (n : ℤ)
  | string (s : GoString)
deriving DecidableEq

/-- `wireMessage`; a response carries its result elsewhere. -/
structure WireMessage where
  id : Option ID
  method : GoString
  params : GoString

/-- `jsonrpc.Request` -/
structure Request where
  id : Option ID
  method : GoString
  params : GoString
deriving DecidableEq

/-- `IsNotification` -/
def Request.isNotification (req : Request) : Bool := req.id.isNone

/-- What `Conn.dispatch` does with a message. -/
inductive Dispatched
  /-- a response is handed to the call that waits for it -/
  | response (id : ID)
  /-- `handleCancel` -/
  | cancel (params : GoString)
  /-- the handler is started on a goroutine of its own -/
  | handle (req : Request)

/-- `Conn.dispatch`, of a connection with a handler -/
def dispatch (msg : WireMessage) : Dispatched :=
  match msg.method, msg.id with
  | [], some id => .response id
  | method, id =>
    if method = str "$/cancelRequest" then .cancel msg.params
    else .handle ⟨id, method, msg.params⟩

/-- What the proxy does not decide itself. -/
structure Env where
  uriToPath : GoString → Option GoString
  /-- `json.Unmarshal` into `DidOpenTextDocumentParams` -/
  unmarshalDidOpen : GoString → Option TextDocumentItem
  /-- into `DidChangeTextDocumentParams` -/
  unmarshalDidChange : GoString → Option (VersionedIdentifier × List ContentChange)
  /-- into `DidCloseTextDocumentParams` -/
  unmarshalDidClose : GoString → Option GoString
  /-- `isBatchWeaverCommand` -/
  isBatchWeaverCommand : GoString → Bool

/-! ## The proxy -/

/-- A failed `Open` or `Change` leaves the store as it was. -/
def keep (s : Store) (r : Except StoreError (Document × Store)) : Store :=
  match r with
  | .ok changed => changed.2
  | .error _ => s

/-- `trackDocument` -/
def trackDocument (E : Env) (s : Store) (req : Request) : Store :=
  if req.method = str "textDocument/didOpen" then
    match E.unmarshalDidOpen req.params with
    | some item => keep s (s.opened E.uriToPath item)
    | none => s
  else if req.method = str "textDocument/didChange" then
    match E.unmarshalDidChange req.params with
    | some pm => keep s (s.change pm.1 pm.2)
    | none => s
  else if req.method = str "textDocument/didClose" then
    match E.unmarshalDidClose req.params with
    | some uri => (s.close uri).2
    | none => s
  else s

/-- A message to gopls. -/
inductive Sent
  | notify (method params : GoString)
  | call (method params : GoString)
deriving DecidableEq

/-- What `handleFromClient` writes to gopls after `trackDocument`. -/
def handleFromClient (E : Env) (req : Request) : List Sent :=
  if req.method = str "initialize" then [.call (str "initialize") req.params]
  else if req.method = str "workspace/executeCommand" then
    if E.isBatchWeaverCommand req.params then [] else [.call req.method req.params]
  else if req.method = str "textDocument/hover" ∨ req.method = str "textDocument/codeAction" ∨
      req.method = str "textDocument/codeLens" ∨ req.method = str "shutdown" then
    [.call req.method req.params]
  else if req.method = str "exit" then [.notify (str "exit") []]
  else if req.isNotification then [.notify req.method req.params]
  else [.call req.method req.params]

/-- A handler goroutine: before `trackDocument`, or with what it has still to write. -/
inductive Handler
  | start (req : Request)
  | writing (rest : List Sent)
deriving DecidableEq

/-- `unread` has arrived and is not dispatched yet; `handlers` are in the order of their dispatch. -/
structure Session where
  unread : List WireMessage
  handlers : List Handler
  store : Store
  sent : List Sent

inductive Event
  | arrive (msg : WireMessage)
  /-- `Serve` reads a message and dispatches it -/
  | read
  | track (i : ℕ)
  | write (i : ℕ)

def read (s : Session) : Session :=
  match s.unread with
  | [] => s
  | msg :: unread =>
    match dispatch msg with
    | .handle req => ⟨unread, s.handlers ++ [.start req], s.store, s.sent⟩
    | _ => ⟨unread, s.handlers, s.store, s.sent⟩

def track (E : Env) (s : Session) (i : ℕ) : Session :=
  match s.handlers[i]? with
  | some (.start req) =>
    ⟨s.unread, s.handlers.set i (.writing (handleFromClient E req)), trackDocument E s.store req, s.sent⟩
  | _ => s

def write (s : Session) (i : ℕ) : Session :=
  match s.handlers[i]? with
  | some (.writing (m :: rest)) => ⟨s.unread, s.handlers.set i (.writing rest), s.store, s.sent ++ [m]⟩
  | _ => s

def Handler.atStart : Handler → Bool
  | .start _ => true
  | .writing _ => false

def Handler.atWrite : Handler → Bool
  | .start _ => false
  | .writing rest => !rest.isEmpty

/-- An event may happen: a goroutine is where it takes this step. -/
def enabled (s : Session) : Event → Bool
  | .arrive _ => true
  | .read => !s.unread.isEmpty
  | .track i => (s.handlers[i]?).any Handler.atStart
  | .write i => (s.handlers[i]?).any Handler.atWrite

/-- The connection from the editor, with every interleaving of its handlers. -/
def session (E : Env) : System Session Event where
  init := ⟨[], [], ∅, []⟩
  ok _ s e := enabled s e = true
  next s e :=
    match e with
    | .arrive msg => ⟨s.unread ++ [msg], s.handlers, s.store, s.sent⟩
    | .read => read s
    | .track i => track E s i
    | .write i => write s i

/-- Every message is dispatched and every handler has finished. -/
def Session.Done (s : Session) : Prop := s.unread = [] ∧ ∀ h ∈ s.handlers, h = .writing []

/-- The messages of a run, in the order in which they arrived. -/
def arrivals (es : List Event) : List WireMessage :=
  es.filterMap fun
    | .arrive msg => some msg
    | _ => none

end BatchWeaver.Lsp
