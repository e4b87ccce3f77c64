import Mathlib.Data.List.TakeWhile
import BatchWeaver.Spec.Documents

/-!
# Editor buffers are mirrored

* `forwarded_perm`: however the handlers interleave, what they write to gopls is neither lost nor doubled.
* `paced_serial`: if the editor sends a message only when nothing is under way, the handlers act in the order of
  arrival.
* `buffers_mirrored`: then the store has the content of every open buffer, and gopls is told in order.
* `edits_swapped`: two edits in flight may change places; the store then loses the first one.
* `file_uri_round`: a path comes back from its file URI unless it has a percent sign.
-/

namespace BatchWeaver.Lsp

open List
open Function (update update_apply update_eq_self)

variable {E : Env}

/-- The request whose handler a message starts. -/
def handled (msg : WireMessage) : Option Request :=
  match dispatch msg with
  | .handle req => some req
  | _ => none

variable {v : GoString → Option ℤ} {s : Session} {msg : WireMessage} {b : Buffers} {msgs : List WireMessage}
  {ns : List Notification} {i : ℕ}

lemma read_cons {unread} (h : s.unread = msg :: unread) :
    read s = ⟨unread, s.handlers ++ (handled msg).toList.map Handler.start, s.store, s.sent⟩ := by
  unfold read handled
  rw [h]
  cases hd : dispatch msg <;> simp [hd]

lemma arrivals_other (es : List Event) {e} (h : ∀ msg, e ≠ .arrive msg) : arrivals (es ++ [e]) = arrivals es := by
  refine System.filterMap_snoc_none ?_
  cases e with
  | arrive msg => exact absurd rfl (h msg)
  | _ => rfl

lemma enabled_track (h : enabled s (.track i) = true) : ∃ req, s.handlers[i]? = some (.start req) := by
  rw [enabled] at h
  cases hget : s.handlers[i]? with
  | none => simp [hget] at h
  | some handler =>
    rw [hget] at h
    cases handler with
    | start req => exact ⟨req, rfl⟩
    | writing rest => cases h

lemma enabled_write (h : enabled s (.write i) = true) : ∃ m rest, s.handlers[i]? = some (.writing (m :: rest)) := by
  rw [enabled] at h
  cases hget : s.handlers[i]? with
  | none => simp [hget] at h
  | some handler =>
    rw [hget] at h
    cases handler with
    | start req => cases h
    | writing rest =>
      cases rest with
      | nil => cases h
      | cons m rest => exact ⟨m, rest, rfl⟩

/-! ## Nothing is lost or doubled -/

/-- What the handlers of some messages write. -/
def writes (E : Env) (msgs : List WireMessage) : List Sent := (msgs.filterMap handled).flatMap (handleFromClient E)

/-! ## One message at a time -/

/-- The store after the handlers of some messages, one after the other. -/
def serialStore (E : Env) (msgs : List WireMessage) : Store := (msgs.filterMap handled).foldl (trackDocument E) ∅

lemma serialStore_snoc (msgs : List WireMessage) (msg : WireMessage) :
    serialStore E (msgs ++ [msg]) = (handled msg).toList.foldl (trackDocument E) (serialStore E msgs) := by
  unfold serialStore
  rw [filterMap_append, foldl_append]
  cases h : handled msg <;> simp [h]

lemma writes_snoc (msgs : List WireMessage) (msg : WireMessage) :
    writes E (msgs ++ [msg]) = writes E msgs ++ (handled msg).toList.flatMap (handleFromClient E) := by
  unfold writes
  rw [filterMap_append, flatMap_append]
  cases h : handled msg <;> simp [h]

/-- The editor sends a message only when nothing is under way. -/
def Paced (_ : List Event) (s : Session) (e : Event) : Prop := ∀ msg, e = .arrive msg → s.Done

/-- Where a paced run can be: at most the last message is under way. -/
inductive Phase (E : Env) (msgs : List WireMessage) (s : Session) : Prop
  | idle (hdone : s.Done) (hstore : s.store = serialStore E msgs) (hsent : s.sent = writes E msgs)
  | arrived (past : List WireMessage) (msg : WireMessage) (hmsgs : msgs = past ++ [msg]) (hunread : s.unread = [msg])
      (hdone : ∀ h ∈ s.handlers, h = .writing []) (hstore : s.store = serialStore E past)
      (hsent : s.sent = writes E past)
  | started (past : List WireMessage) (msg : WireMessage) (req : Request) (hs : List Handler)
      (hmsgs : msgs = past ++ [msg]) (hreq : handled msg = some req) (hunread : s.unread = [])
      (hhandlers : s.handlers = hs ++ [.start req]) (hdone : ∀ h ∈ hs, h = .writing [])
      (hstore : s.store = serialStore E past) (hsent : s.sent = writes E past)
  | writing (rest : List Sent) (hs : List Handler) (hunread : s.unread = [])
      (hhandlers : s.handlers = hs ++ [.writing rest]) (hdone : ∀ h ∈ hs, h = .writing [])
      (hstore : s.store = serialStore E msgs) (hsent : s.sent ++ rest = writes E msgs)

lemma Phase.serial (h : Phase E msgs s) (hdone : s.Done) : s.store = serialStore E msgs ∧ s.sent = writes E msgs := by
  cases h with
  | idle _ hstore hsent => exact ⟨hstore, hsent⟩
  | arrived past msg _ hunread =>
    have hnil := hdone.1
    rw [hunread] at hnil
    cases hnil
  | started past msg req hs _ _ _ hhandlers =>
    have hlast := hdone.2 (.start req) (by rw [hhandlers]; simp)
    cases hlast
  | writing rest hs _ hhandlers _ hstore hsent =>
    have hlast := hdone.2 (.writing rest) (by rw [hhandlers]; simp)
    injection hlast with hrest
    rw [hrest, append_nil] at hsent
    exact ⟨hstore, hsent⟩

lemma active_last {hs : List Handler} {last h} (hdone : ∀ h ∈ hs, h = .writing [])
    (hget : (hs ++ [last])[i]? = some h) (hactive : h ≠ .writing []) : i = hs.length ∧ h = last := by
  rcases Nat.lt_trichotomy i hs.length with hlt | heq | hgt
  · rw [getElem?_append_left hlt] at hget
    exact absurd (hdone h (mem_of_getElem? hget)) hactive
  · subst heq
    rw [getElem?_concat_length] at hget
    exact ⟨rfl, (Option.some.inj hget).symm⟩
  · rw [getElem?_eq_none (by simp; omega)] at hget
    cases hget

lemma set_last (hs : List Handler) (last h : Handler) : (hs ++ [last]).set hs.length h = hs ++ [h] := by
  rw [set_append_right _ _ le_rfl, Nat.sub_self]
  rfl

/-- One event of a paced run. -/
lemma phase_step {es e} (hok : enabled s e = true) (hpaced : Paced es s e)
    (h : Phase E (arrivals es) s) : Phase E (arrivals (es ++ [e])) ((session E).next s e) := by
  cases e with
  | arrive msg =>
    have hdone := hpaced msg rfl
    obtain ⟨hstore, hsent⟩ := h.serial hdone
    refine .arrived (arrivals es) msg (System.filterMap_snoc_some rfl) ?_ hdone.2 hstore hsent
    change s.unread ++ [msg] = [msg]
    rw [hdone.1]
    rfl
  | read =>
    rw [arrivals_other es (by intro msg; exact nofun)]
    have hne : s.unread ≠ [] := by
      intro hnil
      have hread : (!s.unread.isEmpty) = true := hok
      rw [hnil] at hread
      cases hread
    cases h with
    | idle hdone => exact absurd hdone.1 hne
    | started _ _ _ _ _ _ hunread | writing _ _ hunread => exact absurd hunread hne
    | arrived past msg hmsgs hunread hdone hstore hsent =>
      change Phase E (arrivals es) (read s)
      rw [hmsgs, read_cons hunread]
      cases hreq : handled msg with
      | none =>
        refine .idle ⟨rfl, by simpa using hdone⟩ ?_ ?_
        · rw [serialStore_snoc, hreq]
          exact hstore
        · rw [writes_snoc, hreq, hsent]
          simp
      | some req => exact .started past msg req s.handlers rfl hreq rfl rfl hdone hstore hsent
  | track i =>
    rw [arrivals_other es (by intro msg; exact nofun)]
    obtain ⟨req, hget⟩ := enabled_track hok
    have hactive : Handler.start req ≠ .writing [] := nofun
    cases h with
    | idle hdone => exact absurd (hdone.2 _ (mem_of_getElem? hget)) hactive
    | arrived past msg hmsgs hunread hdone => exact absurd (hdone _ (mem_of_getElem? hget)) hactive
    | writing rest hs hunread hhandlers hdone =>
      rw [hhandlers] at hget
      have hlast := (active_last hdone hget hactive).2
      cases hlast
    | started past msg req' hs hmsgs hreq hunread hhandlers hdone hstore hsent =>
      have hget' := hget
      rw [hhandlers] at hget'
      obtain ⟨hi, hlast⟩ := active_last hdone hget' hactive
      cases hlast
      change Phase E (arrivals es) (track E s i)
      simp only [track, hget, hmsgs]
      refine .writing (handleFromClient E req) hs hunread ?_ hdone ?_ ?_
      · rw [hhandlers, hi, set_last]
      · rw [serialStore_snoc, hreq, ← hstore]
        rfl
      · rw [writes_snoc, hreq, ← hsent]
        simp
  | write i =>
    rw [arrivals_other es (by intro msg; exact nofun)]
    obtain ⟨m, rest, hget⟩ := enabled_write hok
    have hactive : Handler.writing (m :: rest) ≠ .writing [] := by simp
    cases h with
    | idle hdone => exact absurd (hdone.2 _ (mem_of_getElem? hget)) hactive
    | arrived past msg hmsgs hunread hdone => exact absurd (hdone _ (mem_of_getElem? hget)) hactive
    | started past msg req hs hmsgs hreq hunread hhandlers hdone =>
      rw [hhandlers] at hget
      have hlast := (active_last hdone hget hactive).2
      cases hlast
    | writing rest' hs hunread hhandlers hdone hstore hsent =>
      have hget' := hget
      rw [hhandlers] at hget'
      obtain ⟨hi, hlast⟩ := active_last hdone hget' hactive
      injection hlast with hlast
      change Phase E (arrivals es) (write s i)
      simp only [write, hget]
      refine .writing rest hs hunread ?_ hdone hstore ?_
      · change s.handlers.set i _ = _
        rw [hhandlers, hi, set_last]
      rw [← hlast] at hsent
      rw [← hsent, append_assoc]
      rfl

/-- **Paced handlers act in the order of arrival.** -/
theorem paced_serial {es : List Event} (h : ((session E).only Paced).Reach es s) (hdone : s.Done) :
    s.store = serialStore E (arrivals es) ∧ s.sent = writes E (arrivals es) := by
  have hphase : Phase E (arrivals es) s := by
    refine h.invariant (I := fun es s => Phase E (arrivals es) s) ?_ ?_
    · exact .idle ⟨rfl, nofun⟩ rfl rfl
    · intro es s e _ hok hphase
      exact phase_step hok.1 hok.2 hphase
  exact hphase.serial hdone

/-! ## What the editor shows -/

/-- A notification about a document. -/
inductive Notification
  | didOpen (item : TextDocumentItem)
  | didChange (id : VersionedIdentifier) (changes : List ContentChange)
  | didClose (uri : GoString)

/-- A message is this notification. -/
def Decodes (E : Env) (msg : WireMessage) : Notification → Prop
  | .didOpen item => msg.id = none ∧ msg.method = str "textDocument/didOpen" ∧
      E.unmarshalDidOpen msg.params = some item
  | .didChange id changes => msg.id = none ∧ msg.method = str "textDocument/didChange" ∧
      E.unmarshalDidChange msg.params = some (id, changes)
  | .didClose uri => msg.id = none ∧ msg.method = str "textDocument/didClose" ∧
      E.unmarshalDidClose msg.params = some uri

/-- The contents of the open buffers, by URI. -/
abbrev Buffers := GoString → Option GoString

/-- A notification, in the editor. A change with an invalid range is no change. -/
def Buffers.apply (b : Buffers) : Notification → Buffers
  | .didOpen item => update b item.uri (some item.text)
  | .didChange id changes =>
    update b id.uri ((b id.uri).map fun content => (applyChanges content changes).getD content)
  | .didClose uri => update b uri none

/-- The buffers after some notifications. -/
def mirror (ns : List Notification) : Buffers := ns.foldl Buffers.apply fun _ => none

/-- The versions of a document's notifications increase strictly until it is closed or opened again; `v` has the
last ones so far. -/
def Increasing : (GoString → Option ℤ) → List Notification → Prop
  | _, [] => True
  | v, .didOpen item :: ns => Increasing (update v item.uri (some item.version)) ns
  | v, .didChange id _ :: ns =>
    (∀ k, v id.uri = some k → k < id.version) ∧ Increasing (update v id.uri (some id.version)) ns
  | v, .didClose uri :: ns => Increasing (update v uri none) ns

/-- The store has the contents `b`, and no version above `v`. -/
structure Agrees (s : Store) (b : Buffers) (v : GoString → Option ℤ) : Prop where
  content : ∀ uri, (s.lookup uri).map Document.content = b uri
  version : ∀ uri d, s.lookup uri = some d → ∃ k, v uri = some k ∧ d.version ≤ k

lemma Agrees.insert {s} (h : Agrees s b v) (uri : GoString) {d k} (hk : d.version ≤ k) :
    Agrees (s.insert uri d) (update b uri (some d.content)) (update v uri (some k)) := by
  constructor
  · intro uri'
    rw [Table.lookup_insert_if, update_apply]
    split
    · rfl
    · exact h.content uri'
  intro uri' d' hd'
  rw [Table.lookup_insert_if] at hd'
  rw [update_apply]
  split
  · rename_i heq
    rw [if_pos heq] at hd'
    rw [← Option.some.inj hd']
    exact ⟨k, rfl, hk⟩
  rename_i hne
  rw [if_neg hne] at hd'
  exact h.version uri' d' hd'

lemma Agrees.erase {s} (h : Agrees s b v) (uri : GoString) :
    Agrees (s.erase uri) (update b uri none) (update v uri none) := by
  constructor
  · intro uri'
    rw [Table.lookup_erase_if, update_apply]
    split
    · rfl
    · exact h.content uri'
  intro uri' d' hd'
  rw [Table.lookup_erase_if] at hd'
  rw [update_apply]
  split
  · rename_i heq
    rw [if_pos heq] at hd'
    cases hd'
  rename_i hne
  rw [if_neg hne] at hd'
  exact h.version uri' d' hd'

/-- A higher last version does no harm. -/
lemma Agrees.raise {s} (h : Agrees s b v) {uri k}
    (hk : ∀ k', v uri = some k' → k' < k) : Agrees s b (update v uri (some k)) := by
  refine ⟨h.content, fun uri' d hd => ?_⟩
  obtain ⟨k', hk', hle⟩ := h.version uri' d hd
  rw [update_apply]
  split
  · rename_i heq
    subst heq
    exact ⟨k, rfl, le_trans hle (hk k' hk').le⟩
  · exact ⟨k', hk', hle⟩

/-- **A change is mirrored** if its version is higher than the last one. -/
theorem Agrees.change {s : Store} (h : Agrees s b v) (id : VersionedIdentifier) (changes : List ContentChange)
    (hk : ∀ k, v id.uri = some k → k < id.version) :
    Agrees (keep s (s.change id changes)) (b.apply (.didChange id changes)) (update v id.uri (some id.version)) := by
  rw [Buffers.apply]
  unfold Store.change
  have hb := h.content id.uri
  cases hd : s.lookup id.uri with
  | none =>
    rw [hd] at hb
    rw [← hb, Option.map_none, Option.map_none]
    have hsame : update b id.uri none = b := by
      rw [show (none : Option GoString) = b id.uri from hb, update_eq_self]
    rw [hsame]
    exact h.raise hk
  | some d =>
    rw [hd] at hb
    obtain ⟨k, hvk, hle⟩ := h.version id.uri d hd
    have hnewer : ¬id.version < d.version := by
      have := hk k hvk
      omega
    simp only [if_neg hnewer]
    rw [← hb, Option.map_some, Option.map_some]
    cases hc : applyChanges d.content changes with
    | none =>
      have hsame : update b id.uri (some d.content) = b := by
        rw [show some d.content = b id.uri from hb, update_eq_self]
      rw [Option.getD_none, hsame]
      exact h.raise hk
    | some content => exact h.insert id.uri le_rfl

/-- The request that a document notification starts. -/
lemma handled_document (hid : msg.id = none)
    (hmethod : msg.method = str "textDocument/didOpen" ∨ msg.method = str "textDocument/didChange" ∨
      msg.method = str "textDocument/didClose") : handled msg = some ⟨none, msg.method, msg.params⟩ ∧
      handleFromClient E ⟨none, msg.method, msg.params⟩ = [.notify msg.method msg.params] := by
  obtain ⟨id, method, params⟩ := msg
  subst hid
  rcases hmethod with rfl | rfl | rfl
  · exact ⟨rfl, rfl⟩
  · exact ⟨rfl, rfl⟩
  · exact ⟨rfl, rfl⟩

lemma Decodes.document {n} (h : Decodes E msg n) : msg.id = none ∧
    (msg.method = str "textDocument/didOpen" ∨ msg.method = str "textDocument/didChange" ∨
      msg.method = str "textDocument/didClose") := by
  cases n with
  | didOpen item => exact ⟨h.1, .inl h.2.1⟩
  | didChange id changes => exact ⟨h.1, .inr (.inl h.2.1)⟩
  | didClose uri => exact ⟨h.1, .inr (.inr h.2.1)⟩

/-- The versions after a notification. -/
def Notification.versions (v : GoString → Option ℤ) : Notification → GoString → Option ℤ
  | .didOpen item => update v item.uri (some item.version)
  | .didChange id _ => update v id.uri (some id.version)
  | .didClose uri => update v uri none

/-- One notification. -/
lemma Agrees.track {s} (h : Agrees s b v) {n} (hdecodes : Decodes E msg n)
    (hver : Increasing v (n :: ns)) (hfile : ∀ item, n = .didOpen item → (E.uriToPath item.uri).isSome = true) :
    Agrees (trackDocument E s ⟨none, msg.method, msg.params⟩) (b.apply n) (n.versions v) ∧
      Increasing (n.versions v) ns := by
  cases n with
  | didOpen item =>
    obtain ⟨-, hmethod, hparams⟩ := hdecodes
    refine ⟨?_, hver⟩
    obtain ⟨path, hpath⟩ := Option.isSome_iff_exists.1 (hfile item rfl)
    unfold trackDocument
    rw [if_pos hmethod, hparams]
    simp only [Store.opened, hpath, keep]
    exact h.insert item.uri le_rfl
  | didChange id changes =>
    obtain ⟨-, hmethod, hparams⟩ := hdecodes
    refine ⟨?_, hver.2⟩
    unfold trackDocument
    have hne : str "textDocument/didChange" ≠ str "textDocument/didOpen" := by decide
    rw [hmethod, if_neg hne, if_pos rfl, hparams]
    exact h.change id changes hver.1
  | didClose uri =>
    obtain ⟨-, hmethod, hparams⟩ := hdecodes
    refine ⟨?_, hver⟩
    unfold trackDocument
    have hopen : str "textDocument/didClose" ≠ str "textDocument/didOpen" := by decide
    have hchange : str "textDocument/didClose" ≠ str "textDocument/didChange" := by decide
    rw [hmethod, if_neg hopen, if_neg hchange, if_pos rfl, hparams]
    exact h.erase uri

/-- All notifications, by induction over them. -/
lemma agrees_foldl (hns : Forall₂ (Decodes E) msgs ns) :
    ∀ {s : Store} {b : Buffers} {v : GoString → Option ℤ}, Agrees s b v → Increasing v ns →
      (∀ item, .didOpen item ∈ ns → (E.uriToPath item.uri).isSome = true) →
      ∃ v', Agrees ((msgs.filterMap handled).foldl (trackDocument E) s) (ns.foldl Buffers.apply b) v' := by
  induction hns with
  | nil => exact fun h _ _ => ⟨_, h⟩
  | @cons msg n msgs ns hdecodes _ ih =>
    intro s b v h hver hfile
    have hdoc := hdecodes.document
    obtain ⟨hagrees, hver'⟩ := h.track hdecodes hver fun item hn => hfile item (by simp [hn])
    rw [filterMap_cons_some (handled_document (E := E) hdoc.1 hdoc.2).1, foldl_cons, foldl_cons]
    exact ih hagrees hver' fun item hitem => hfile item (mem_cons_of_mem _ hitem)

lemma writes_documents (hns : Forall₂ (Decodes E) msgs ns) :
    writes E msgs = msgs.map fun msg => .notify msg.method msg.params := by
  induction hns with
  | nil => rfl
  | cons hdecodes _ ih =>
    have hdoc := hdecodes.document
    obtain ⟨hhandled, hwrites⟩ := handled_document hdoc.1 hdoc.2
    unfold writes at ih ⊢
    rw [filterMap_cons_some hhandled, flatMap_cons, ih, hwrites]
    rfl

/-- **Editor buffers are mirrored** if the editor sends a notification only when nothing is under way: the store has
exactly the contents of the open buffers, and gopls gets the notifications in the order of arrival. -/
theorem buffers_mirrored (E : Env) (es : List Event) (s : Session) (h : ((session E).only Paced).Reach es s)
    (hdone : s.Done) (ns : List Notification) (hns : Forall₂ (Decodes E) (arrivals es) ns)
    (hver : Increasing (fun _ => none) ns) (hfile : ∀ item, .didOpen item ∈ ns → (E.uriToPath item.uri).isSome = true) :
    (∀ uri, (s.store.lookup uri).map Document.content = mirror ns uri) ∧
      s.sent = (arrivals es).map fun msg => .notify msg.method msg.params := by
  obtain ⟨hstore, hsent⟩ := paced_serial h hdone
  have hempty : Agrees ∅ (fun _ => none) fun _ => none := ⟨fun _ => rfl, nofun⟩
  obtain ⟨v, hagrees⟩ := agrees_foldl hns hempty hver hfile
  constructor
  · intro uri
    rw [hstore]
    exact hagrees.content uri
  · rw [hsent, writes_documents hns]

/-- A document `u` with the text `ab`, and two edits that insert `x` and `y` at its start. -/
def demoEnv : Env where
  uriToPath := some
  unmarshalDidOpen p := if p = [0] then some ⟨str "u", str "go", 1, str "ab"⟩ else none
  unmarshalDidChange p :=
    if p = [1] then some (⟨str "u", 2⟩, [⟨some ⟨⟨0, 0⟩, ⟨0, 0⟩⟩, str "x"⟩])
    else if p = [2] then some (⟨str "u", 3⟩, [⟨some ⟨⟨0, 0⟩, ⟨0, 0⟩⟩, str "y"⟩])
    else none
  unmarshalDidClose _ := none
  isBatchWeaverCommand _ := false

def demoOpen : WireMessage := ⟨none, str "textDocument/didOpen", [0]⟩

def demoEdit (k : UInt8) : WireMessage := ⟨none, str "textDocument/didChange", [k]⟩

def demoNotifications : List Notification := [.didOpen ⟨str "u", str "go", 1, str "ab"⟩,
    .didChange ⟨str "u", 2⟩ [⟨some ⟨⟨0, 0⟩, ⟨0, 0⟩⟩, str "x"⟩],
    .didChange ⟨str "u", 3⟩ [⟨some ⟨⟨0, 0⟩, ⟨0, 0⟩⟩, str "y"⟩]]

/-- Each message is read, tracked and forwarded before the next one arrives. -/
def pacedEvents : List Event :=
  [.arrive demoOpen, .read, .track 0, .write 0, .arrive (demoEdit 1), .read, .track 1, .write 1,
    .arrive (demoEdit 2), .read, .track 2, .write 2]

/-- The two edits are in flight together, and the second handler is faster. -/
def swappedEvents : List Event :=
  [.arrive demoOpen, .read, .track 0, .write 0, .arrive (demoEdit 1), .arrive (demoEdit 2), .read, .read,
    .track 2, .write 2, .track 1, .write 1]

instance (s : Session) : Decidable s.Done := inferInstanceAs (Decidable (_ ∧ _))

instance (E : Env) (es : List Event) (s : Session) (e : Event) : Decidable ((session E).ok es s e) :=
  inferInstanceAs (Decidable (enabled s e = true))

instance (es : List Event) (s : Session) (e : Event) : Decidable (Paced es s e) :=
  match e with
  | .arrive msg => decidable_of_iff s.Done ⟨fun h _ _ => h, fun h => h msg rfl⟩
  | .read => .isTrue nofun
  | .track _ => .isTrue nofun
  | .write _ => .isTrue nofun

lemma demo_decodes : Forall₂ (Decodes demoEnv) [demoOpen, demoEdit 1, demoEdit 2] demoNotifications :=
  .cons ⟨rfl, rfl, rfl⟩ (.cons ⟨rfl, rfl, rfl⟩ (.cons ⟨rfl, rfl, rfl⟩ .nil))

lemma demo_increasing : Increasing (fun _ => none) demoNotifications := by
  refine ⟨fun k hk => ?_, fun k hk => ?_, trivial⟩
  · have hk1 : (1 : ℤ) = k := by simpa using hk
    rw [← hk1]
    decide
  have hk2 : (2 : ℤ) = k := by simpa using hk
  rw [← hk2]
  decide

theorem buffers_mirrored_paced : ∃ s, ((session demoEnv).only Paced).Reach pacedEvents s ∧
    (s.store.lookup (str "u")).map Document.content = some (str "yxab") ∧
    s.sent = [demoOpen, demoEdit 1, demoEdit 2].map fun msg => .notify msg.method msg.params := by
  have hrun : ((session demoEnv).only Paced).Reach pacedEvents _ := System.reach_of_allowed (by decide)
  obtain ⟨hcontent, hsent⟩ := buffers_mirrored demoEnv pacedEvents _ hrun (by decide) demoNotifications
    demo_decodes demo_increasing fun _ _ => rfl
  refine ⟨_, hrun, ?_, hsent⟩
  rw [hcontent]
  decide

/-- **Edits in flight together may change places**: the newer version comes first, the older one is dropped, and
gopls gets them in the wrong order too. -/
theorem edits_swapped : ∃ s, (session demoEnv).Reach swappedEvents s ∧ s.Done ∧
    arrivals swappedEvents = [demoOpen, demoEdit 1, demoEdit 2] ∧
    Forall₂ (Decodes demoEnv) (arrivals swappedEvents) demoNotifications ∧
    Increasing (fun _ => none) demoNotifications ∧ (s.store.lookup (str "u")).map Document.content = some (str "yab") ∧
    mirror demoNotifications (str "u") = some (str "yxab") ∧
    s.sent = [demoOpen, demoEdit 2, demoEdit 1].map fun msg => .notify msg.method msg.params := by
  have hrun : (session demoEnv).Reach swappedEvents _ := System.reach_of_allowed (by decide)
  exact ⟨_, hrun, by decide, rfl, demo_decodes, demo_increasing, by decide, by decide, by decide⟩

/-! ## File URIs -/

variable {host : GoString → Option GoString} {p q : GoString} {c : UInt8}

lemma pathUnescape_cons (h : c ≠ 37) : pathUnescape (c :: p) = (pathUnescape p).map (c :: ·) := by
  rw [pathUnescape.eq_def]
  exact if_pos h

lemma pathUnescape_escape (p : GoString) : pathUnescape (escapePath p) = some p := by
  induction p with
  | nil => rfl
  | cons c p ih =>
    rw [escapePath, flatMap_cons, ← escapePath]
    split
    · next hk =>
      rw [singleton_append, pathUnescape_cons (by rintro rfl; exact absurd hk (by decide)), ih, Option.map_some]
    · have hdigit : ∀ n < 16, unhex (upperByte (hexDigit n)) = some n := by decide
      have hc := c.toNat_lt
      simp [pathUnescape, ih, hdigit (c.toNat / 16) (by omega), hdigit (c.toNat % 16) (by omega), -UInt8.ofNat_add,
        Nat.div_add_mod]

/-- A byte that ends no path and is valid in a URI. -/
def plainByte (c : UInt8) : Bool := decide (c ≠ 35 ∧ c ≠ 63 ∧ 32 ≤ c.toNat ∧ c ≠ 127)

lemma escapePath_plain (h : c ∈ escapePath p) : plainByte c = true := by
  obtain ⟨b, -, hb⟩ := mem_flatMap.1 h
  have hall : ∀ n < 256, (escapePath [UInt8.ofNat n]).all plainByte = true := by decide +kernel
  exact all_eq_true.1 (hall b.toNat b.toNat_lt) c (by simpa [escapePath] using hb)

lemma parseFile_pathToURI (hhost : host [] = some []) (p : GoString) :
    parseFile host (pathToURI (47 :: p)) = some ([], 47 :: p) := by
  set u := pathToURI (47 :: p)
  have hplain : ∀ c ∈ u, c ≠ 35 ∧ c ≠ 63 ∧ 32 ≤ c.toNat ∧ c ≠ 127 := by
    have hscheme : (str "file://").all plainByte = true := by decide
    exact fun c hc => of_decide_eq_true ((mem_append.1 hc).elim (all_eq_true.1 hscheme c) escapePath_plain)
  have hfragment : u.takeWhile (· ≠ 35) = u := takeWhile_eq_self_iff.2 fun c hc => decide_eq_true (hplain c hc).1
  have hquery : (u.drop 5).takeWhile (· ≠ 63) = str "//" ++ escapePath (47 :: p) :=
    takeWhile_eq_self_iff.2 fun c hc => decide_eq_true (hplain c (mem_of_mem_drop hc)).2.1
  have hctl : u.all (fun c => decide (32 ≤ c.toNat ∧ c ≠ 127)) = true :=
    all_eq_true.2 fun c hc => decide_eq_true (hplain c hc).2.2
  have hscheme : toLower (u.take 5) = str "file:" := rfl
  have htwo : (str "//" ++ escapePath (47 :: p)).take 2 = str "//" := rfl
  have hrest : (str "//" ++ escapePath (47 :: p)).drop 2 = escapePath (47 :: p) := rfl
  have hauthority : (escapePath (47 :: p)).takeWhile (· ≠ 47) = [] := rfl
  simp only [parseFile, hfragment, hctl, hscheme, hquery, drop_eq_nil_of_le (Nat.le_succ _), htwo, hrest, hauthority,
    hhost, length_nil, drop_zero, pathUnescape_escape]
  rfl

lemma pathUnescape_plain (h : 37 ∉ p) : pathUnescape p = some p := by
  induction p with
  | nil => rfl
  | cons c p ih =>
    obtain ⟨hc, hp⟩ := not_or.1 (mt mem_cons.2 h)
    rw [pathUnescape_cons (Ne.symm hc), ih hp, Option.map_some]

/-- Decoding makes a text with an escape shorter. -/
lemma pathUnescape_length (h : pathUnescape p = some q) : q.length ≤ p.length ∧ (37 ∈ p → q.length < p.length) := by
  fun_induction pathUnescape p generalizing q with
  | case1 => simp_all
  | case2 c s hc ih =>
    obtain ⟨r, hr, rfl⟩ := Option.map_eq_some_iff.1 h
    have := ih hr
    simp_all [eq_comm]
  | case3 c hc a b t ih =>
    simp only [Option.bind_eq_bind, Option.bind_eq_some_iff] at h
    obtain ⟨_, -, _, -, r, hr, hq⟩ := h
    have := ih hr
    cases hq
    simp only [length_cons]
    omega
  | case4 => simp_all

/-- **A path comes back from its URI exactly if it has no percent sign.** -/
theorem file_uri_round (clean : GoString → GoString) (hhost : host [] = some [])
    (hlen : ∀ q, q ≠ [] → (clean q).length ≤ q.length) (hclean : clean (47 :: p) = 47 :: p) :
    uriToPath host clean (pathToURI (47 :: p)) = some (47 :: p) ↔ 37 ∉ p := by
  rw [uriToPath, parseFile_pathToURI hhost p, Option.bind_eq_bind, Option.bind_some, pathUnescape_cons (by decide)]
  constructor
  · intro h hp
    cases hq : pathUnescape p with
    | none => simp [hq] at h
    | some q =>
      have hlt := (pathUnescape_length hq).2 hp
      have := hlen (47 :: q) (by simp)
      simp_all
      omega
  · intro h
    simp [pathUnescape_plain h, hclean]

theorem file_uri_round_space : uriToPath some id (pathToURI (str "/a b?#")) = some (str "/a b?#") :=
  (file_uri_round (p := str "a b?#") id rfl (fun _ _ => le_rfl) rfl).2 (by decide)

/-- `url.Parse` has decoded the path, and `URIToPath` decodes it again. -/
theorem percent_decoded_twice : uriToPath some id (pathToURI (str "/a%20b")) = some (str "/a b") ∧
    str "/a b" ≠ str "/a%20b" := by decide

end BatchWeaver.Lsp
