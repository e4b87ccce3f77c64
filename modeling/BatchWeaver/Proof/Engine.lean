import BatchWeaver.Proof.Calls
import BatchWeaver.Proof.Dedup
import BatchWeaver.Spec.Engine

/-!
# The layers of an engine

A run of an engine is, for each of its operations, a run of the operation with its calls, so one of
the exchange between callers and coordinator, so one of the coordinator.

* `net_coord`, `bound_net`, `engine_bound`: the three refinements; `engine_coord`: their composition.
* `Agrees`, `reach_agrees`: a submission is the request of a call of `Do`, with the call's partition
  and key.
-/

namespace BatchWeaver

open Function (update update_of_ne update_self)

/-! ## One operation -/

section Bound

variable {K V E : Type}

/-- The exchange with the coordinator refines the coordinator. -/
lemma net_coord [Inhabited K] [Inhabited V] (cfg : BindingConfig K) :
    (net (V := V) (E := E) cfg).Refines (coordinator cfg) Net.coord NetEvent.move where
  init := rfl
  hidden := fun _ _ _ hr _ hm => ((net_refines hr).2.next_none hm).2
  shown := fun _ _ _ _ hr hok hm =>
    ⟨(net_refines hr).2.legal (net_refines hr).1 hok hm, ((net_refines hr).2.next_move (net_refines hr).1 hok hm).2⟩

/-- The part of an event that the exchange with the coordinator takes. -/
def BoundEvent.exchange : BoundEvent K V E → Option (NetEvent K V E)
  | .track _ part key weight bytes deadline => some (.call part key weight bytes deadline)
  | .net e => some e
  | _ => none

namespace Bound

variable (b : Bound K V E)

@[simp] theorem net_memoTableFor (scope : ScopeID) : (b.memoTableFor scope).1.net = b.net := by
  unfold memoTableFor
  split <;> rfl

@[simp] theorem dos_memoTableFor (scope : ScopeID) : (b.memoTableFor scope).1.dos = b.dos := by
  unfold memoTableFor
  split <;> rfl

lemma setStage_of_lookup {id d} (h : b.dos.lookup id = some d)
    (stage : DoStage V E) : b.setStage id stage = b.setDo id { d with stage := stage } := by
  unfold setStage
  rw [h]

end Bound

section Steps

variable [Inhabited V] (cfg : OpConfig K) (b : Bound K V E)

section

variable (id : DoId) (d : DoCall K V E)

/-- The stages of a call, as far as it asks for no memo table, fills none and gets no waiter. -/
inductive Goes : BoundEvent K V E → DoStage V E → DoStage V E → Prop
  | opened : Goes (.checkOpen id true) .opening .accepting
  | closed : Goes (.checkOpen id false) .opening (.returned (.refused .closed))
  | accepted : Goes (.accept id none) .accepting .cloning
  | aside (err : ScopeError) : Goes (.accept id (some err)) .accepting (.returned (.done .fallback))
  | refused (err : ScopeError) : Goes (.accept id (some err)) .accepting (.returned (.refused err))
  | looks : cfg.memoEnabled = true → Goes (.clone id true) .cloning .looking
  | cloned : Goes (.clone id true) .cloning .entering
  | panics : Goes (.clone id false) .cloning (.returned .keyPanic)
  | hit (t : TableRef) (r : Result V E) : (b.tables t).get cfg d.part d.key = some r →
      Goes (.get id) (.getting t) (.returned (.done (finishMemo r)))
  | miss (t : TableRef) : Goes (.get id) (.getting t) .entering
  | recursive (r : DoReturn V E) : r = .recursive ∨ r = .done .fallback → Goes (.recursive id) .entering (.returned r)
  | keyPanic : Goes (.keyPanic id) .entering (.returned .keyPanic)
  | finish (w : WaiterId) (call : Call K V E) (r : Return V E) : d.waiter = some w → b.net.calls w = some call →
      call.stage = .returned r → Goes (.finish id) .calling (.ofReturn cfg r)

/-- A call asks for a memo table, to look up or to store. -/
inductive Fetches : BoundEvent K V E → DoStage V E → (TableRef → DoStage V E) → Prop
  | lookup : Fetches (.lookup id) .looking .getting
  | store (value : V) (found : Bool) : Fetches (.store id) (.storing value found) (.putting · value found)

end

/-- **What an event does to an operation.** -/
inductive BoundStep : BoundEvent K V E → Bound K V E → Prop
  | start {id scope part key} : b.dos.lookup id = none →
      BoundStep (.start id scope part key) (b.setDo id ⟨scope, part, key, none, .opening⟩)
  | stage {e id d st stage} : b.dos.lookup id = some d → d.stage = st → Goes cfg b id d e st stage →
      BoundStep e (b.setDo id { d with stage := stage })
  | table {e id d st stage} : b.dos.lookup id = some d → d.stage = st → Fetches id e st stage →
      BoundStep e ((b.memoTableFor d.scope).1.setDo id { d with stage := stage (b.memoTableFor d.scope).2 })
  | put {id d t value found} : b.dos.lookup id = some d → d.stage = .putting t value found → BoundStep (.put id)
      ({ b with tables := update b.tables t ((b.tables t).put cfg d.part d.key value found) }.setDo id
        { d with stage := .returned (.done (if found then .value value else .missing)) })
  | track {id d weight bytes deadline} : b.dos.lookup id = some d → d.stage = .entering →
      BoundStep (.track id d.part d.key weight bytes deadline)
        { b.setDo id { d with waiter := some (b.net.coord.requestSeq + 1), stage := .calling } with
          net := b.net.next cfg.toBindingConfig (.call d.part d.key weight bytes deadline) }
  | net {e} : BoundStep (.net e) { b with net := b.net.next cfg.toBindingConfig e }
  | dropMemo {scope} : BoundStep (.dropMemo scope) (b.dropMemo scope)

variable {cfg b} {b' : Bound K V E} {e : BoundEvent K V E}

omit [Inhabited V] in
lemma stage_any {id} {p : DoStage V E → Bool} (h : (b.stage id).any p = true) :
    ∃ d, b.dos.lookup id = some d ∧ p d.stage = true := by
  unfold Bound.stage at h
  cases hl : b.dos.lookup id with
  | none =>
    rw [hl] at h
    cases h
  | some d =>
    rw [hl] at h
    exact ⟨d, rfl, h⟩

lemma boundStep_of_ok (hok : b.Ok cfg e) : BoundStep cfg b e (b.next cfg e) := by
  have hset : ∀ {id d st stage}, b.dos.lookup id = some d → d.stage = st → Goes cfg b id d e st stage →
      BoundStep cfg b e (b.setStage id stage) := by
    intro id d st stage hd hs hg
    rw [b.setStage_of_lookup hd]
    exact .stage hd hs hg
  have hgo : ∀ {id st stage}, b.stage id = some st → (∀ d, Goes cfg b id d e st stage) →
      BoundStep cfg b e (b.setStage id stage) := by
    intro id st stage hst hg
    obtain ⟨d, hd, hs⟩ := Option.map_eq_some_iff.1 hst
    exact hset hd hs (hg d)
  cases e with
  | start id scope part key => exact .start hok
  | checkOpen id isOpen => exact hgo hok fun _ => by cases isOpen <;> constructor
  | accept id err =>
    unfold Bound.next
    dsimp only
    split
    · exact hgo hok fun _ => .accepted
    · split
      · exact hgo hok fun _ => .aside _
      · exact hgo hok fun _ => .refused _
  | clone id ok =>
    cases ok with
    | false => exact hgo hok fun _ => .panics
    | true =>
      refine hgo hok fun _ => ?_
      split
      · exact .looks ‹_›
      · exact .cloned
  | lookup id =>
    obtain ⟨d, hd, hs⟩ := Option.map_eq_some_iff.1 hok
    show BoundStep cfg b _ (b.lookup id)
    unfold Bound.lookup
    rw [hd]
    dsimp only
    rw [Bound.setStage_of_lookup _ (by rw [Bound.dos_memoTableFor]; exact hd)]
    exact .table hd hs .lookup
  | get id =>
    obtain ⟨d, hd, hs⟩ := stage_any hok
    show BoundStep cfg b _ (b.get cfg id)
    unfold Bound.get
    rw [hd]
    dsimp only
    cases hst : d.stage with
    | getting t =>
      dsimp only
      split
      · exact hset hd hst (.hit t _ ‹_›)
      · exact hset hd hst (.miss t)
    | _ => rw [hst] at hs; cases hs
  | recursive id =>
    refine hgo hok fun _ => .recursive _ ?_
    split
    · exact .inr rfl
    · exact .inl rfl
  | keyPanic id => exact hgo hok fun _ => .keyPanic
  | track id part key weight bytes deadline =>
    obtain ⟨d, hd, hs⟩ := Option.map_eq_some_iff.1 hok.1
    simp only [Prod.mk.injEq] at hs
    obtain ⟨rfl, rfl, hs⟩ := hs
    unfold Bound.next
    dsimp only
    rw [hd]
    exact .track hd hs
  | net e => exact .net
  | finish id =>
    obtain ⟨r, hr⟩ := Option.isSome_iff_exists.1 hok
    unfold Bound.next
    dsimp only
    rw [hr]
    unfold Bound.outcome at hr
    split at hr
    · cases hr
    rename_i d hd
    split at hr
    · split at hr
      · rename_i hst _ r' hw
        cases hr
        obtain ⟨call, hc, hs⟩ := Option.map_eq_some_iff.1 hw
        obtain ⟨w, hdw, hc⟩ := Option.bind_eq_some_iff.1 hc
        exact hset hd hst (.finish w call _ hdw hc hs)
      · cases hr
    · cases hr
  | store id =>
    obtain ⟨d, hd, hs⟩ := stage_any hok
    show BoundStep cfg b _ (b.store id)
    unfold Bound.store
    rw [hd]
    dsimp only
    cases hst : d.stage with
    | storing value found =>
      dsimp only
      rw [Bound.setStage_of_lookup _ (by rw [Bound.dos_memoTableFor]; exact hd)]
      exact .table hd hst (.store value found)
    | _ => rw [hst] at hs; cases hs
  | put id =>
    obtain ⟨d, hd, hs⟩ := stage_any hok
    show BoundStep cfg b _ (b.put cfg id)
    unfold Bound.put
    rw [hd]
    dsimp only
    cases hst : d.stage with
    | putting t value found =>
      dsimp only
      rw [Bound.setStage_of_lookup]
      · exact .put hd hst
      · exact hd
    | _ => rw [hst] at hs; cases hs
  | dropMemo scope => exact .dropMemo

lemma BoundStep.net_eq (hs : BoundStep cfg b e b') (he : e.exchange = none) : b'.net = b.net := by
  cases hs with
  | table _ _ _ => exact b.net_memoTableFor _
  | track _ _ | net => cases he
  | _ => rfl

/-- A call starts, or was there before; it gets its waiter when it is tracked. -/
lemma BoundStep.origin (hs : BoundStep cfg b e b') {id d'} (h : b'.dos.lookup id = some d') :
    (e = .start id d'.scope d'.part d'.key ∧ d'.waiter = none) ∨
    ∃ d w st, b.dos.lookup id = some d ∧ d' = ⟨d.scope, d.part, d.key, w, st⟩ ∧ (w = d.waiter ∨
      w = some (b.net.coord.requestSeq + 1) ∧ ∃ weight bytes dl, e = .track id d.part d.key weight bytes dl) := by
  cases hs with
  | start _ =>
    rcases Table.of_lookup_insert h with ⟨rfl, rfl⟩ | ⟨-, h⟩
    · exact .inl ⟨rfl, rfl⟩
    · exact .inr ⟨_, _, _, h, rfl, .inl rfl⟩
  | stage hd _ _ | put hd _ =>
    rcases Table.of_lookup_insert h with ⟨rfl, rfl⟩ | ⟨-, h⟩
    · exact .inr ⟨_, _, _, hd, rfl, .inl rfl⟩
    · exact .inr ⟨_, _, _, h, rfl, .inl rfl⟩
  | table hd _ _ =>
    rcases Table.of_lookup_insert h with ⟨rfl, rfl⟩ | ⟨-, h⟩
    · exact .inr ⟨_, _, _, hd, rfl, .inl rfl⟩
    · rw [Bound.dos_memoTableFor] at h
      exact .inr ⟨_, _, _, h, rfl, .inl rfl⟩
  | track hd _ =>
    rcases Table.of_lookup_insert h with ⟨rfl, rfl⟩ | ⟨-, h⟩
    · exact .inr ⟨_, _, _, hd, rfl, .inr ⟨rfl, _, _, _, rfl⟩⟩
    · exact .inr ⟨_, _, _, h, rfl, .inl rfl⟩
  | net | dropMemo => exact .inr ⟨_, _, _, h, rfl, .inl rfl⟩

end Steps

/-- A bound operation refines the exchange with its coordinator. -/
lemma bound_net [Inhabited K] [Inhabited V] (cfg : OpConfig K) :
    (bound (V := V) (E := E) cfg).Refines (net cfg.toBindingConfig) Bound.net BoundEvent.exchange where
  init := rfl
  hidden := fun _ _ _ _ hok he => (boundStep_of_ok hok).net_eq he
  shown := by
    intro es b e d _ hok he
    cases e with
    | track _ _ _ _ _ _ | net _ =>
      cases he
      exact ⟨hok.2, rfl⟩
    | _ => cases he

/-! ## Calls of `Do` and their submissions -/

/-- The request of a call in the exchange. -/
def Net.reqOf (s : Net K V E) (w : WaiterId) : Option (SubmitReq K) := (s.calls w).map Call.req

lemma Net.reqOf_setCall (s : Net K V E) {f : Call K V E → Call K V E} (hf : ∀ call, (f call).req = call.req)
    (v w : WaiterId) : (s.setCall v f).reqOf w = s.reqOf w := by
  unfold Net.reqOf Net.setCall
  dsimp only
  by_cases he : w = v
  · subst he
    rw [update_self, Option.map_map]
    exact congrArg (Option.map · (s.calls w)) (funext hf)
  · rw [update_of_ne he]

variable {cfg : BindingConfig K} {s : Net K V E}

/-- A call keeps its request. -/
lemma Net.reqOf_next [Inhabited V] {ms} (h : NetOK cfg ms s) {w req} (hw : s.reqOf w = some req)
    (e : NetEvent K V E) : (s.next cfg e).reqOf w = some req := by
  have hstage : ∀ (s' : Net K V E) v stage, s'.reqOf w = some req → (s'.setStage v stage).reqOf w = some req := by
    intro s' v stage hs'
    exact (s'.reqOf_setCall (f := fun call => { call with stage := stage }) (fun _ => rfl) v w).trans hs'
  cases e with
  | call part key weight bytes deadline =>
    obtain ⟨call, hc, -⟩ := Option.map_eq_some_iff.1 hw
    have hne : w ≠ s.coord.requestSeq + 1 := by
      intro he
      have hle := (h.calls w call hc).old
      rw [he] at hle
      exact Nat.not_succ_le_self _ hle
    show (update s.calls _ _ w).map Call.req = _
    rw [update_of_ne hne]
    exact hw
  | expire v =>
    exact (s.reqOf_setCall (f := fun call => { call with ctxDone := true }) (fun _ => rfl) v w).trans hw
  | select v _ | post v =>
    unfold Net.next
    dsimp only
    split
    · exact hstage s v _ hw
    · exact hw
  | reveal | outside _ => exact hw
  | turn t =>
    -- only the calls matter, not what the coordinator does
    show ((s.receive t.event).calls w).map Call.req = some req
    unfold Net.receive
    split
    · exact hstage s _ .waitAdmit hw
    · exact hw
    · exact hw

/-- What was submitted is the request of a call. -/
lemma net_submitted [Inhabited K] [Inhabited V] {es}
    (h : (net cfg).Reach es s) : ∀ req ∈ submitted (moves es), s.reqOf req.waiter = some req := by
  refine h.invariant (I := fun es s => ∀ req ∈ submitted (moves es), s.reqOf req.waiter = some req) nofun ?_
  intro es s e hr hok ih req hreq
  have hN := (net_refines hr).2
  refine Net.reqOf_next hN ?_ e
  rw [moves_append] at hreq
  cases hm : e.move with
  | none =>
    rw [hm, Option.toList_none, List.append_nil] at hreq
    exact ih req hreq
  | some m =>
    rw [hm, Option.toList_some, submitted_append] at hreq
    rcases List.mem_append.1 hreq with hreq | hreq
    · exact ih req hreq
    obtain ⟨now, dl, now', ctxErr, rfl⟩ := submission_eq_some (Option.mem_toList.1 hreq)
    cases e with
    | turn t =>
      cases hm
      obtain ⟨call, hc, he⟩ := Option.map_eq_some_iff.1 hok.2.2
      unfold Net.reqOf
      rw [hc]
      exact congrArg (fun x => some x.1) he
    | call part key weight bytes deadline => cases hm
    | outside m =>
      cases hm
      cases hok
    | _ => cases hm

/-- **A call of `Do` and its request agree.** -/
def Agrees (b : Bound K V E) : Prop := ∀ id d w, b.dos.lookup id = some d → d.waiter = some w →
    ∃ req, b.net.reqOf w = some req ∧ req.part = d.part ∧ req.key = d.key

/-- A call keeps its request, whatever the operation does. -/
lemma Bound.reqOf_next [Inhabited K] [Inhabited V] {cfg es e} {b : Bound K V E} (hr : (bound cfg).Reach es b)
    (hok : b.Ok cfg e) {w req} (hw : b.net.reqOf w = some req) : (b.next cfg e).net.reqOf w = some req := by
  rcases (bound_net cfg).next_cases hr hok with heq | ⟨ne, -, heq⟩ <;> change (b.next cfg e).net = _ at heq <;> rw [heq]
  · exact hw
  · exact Net.reqOf_next (net_refines ((bound_net cfg).reach hr)).2 hw ne

lemma reach_agrees [Inhabited K] [Inhabited V] {cfg es}
    {b : Bound K V E} (h : (bound cfg).Reach es b) : Agrees b := by
  refine h.invariant (I := fun _ b => Agrees b) (fun _ _ _ hd => by cases hd) ?_
  intro es b e hr hok ih id d' w hd' hw
  rcases (boundStep_of_ok hok).origin hd' with ⟨-, hnone⟩ | ⟨d, w', st, hd, rfl, hw' | ⟨hw', weight, bytes, dl, rfl⟩⟩
  · rw [hnone] at hw
    cases hw
  · obtain ⟨req, h1, h2⟩ := ih id d w hd (hw'.symm.trans hw)
    exact ⟨req, b.reqOf_next hr hok h1, h2⟩
  · -- the request is made of the call
    obtain rfl : b.net.coord.requestSeq + 1 = w := Option.some.inj (hw'.symm.trans hw)
    refine ⟨(Net.newCall cfg.toBindingConfig (b.net.coord.requestSeq + 1) d.part d.key weight bytes
      dl : Call K V E).req, ?_, rfl, rfl⟩
    show (update b.net.calls _ _ _).map Call.req = _
    rw [update_self]
    rfl

end Bound

/-! ## Engines -/

section Engine

variable {O : Type} [DecidableEq O] {K V : O → Type} {E : Type} [∀ o, Inhabited (K o)]
  [∀ o, Inhabited (V o)] {cfg : (o : O) → OpConfig (K o)}

variable {s : Engine O K V E} {e : EngineEvent O K V E}

omit [∀ o, Inhabited (K o)] in
/-- An event that is none of an operation leaves it as it was. -/
lemma bound_next_none {o} (he : e.at o = none) : (s.next cfg e).bound o = s.bound o := by
  cases e with
  | engine _ | flush _ _ _ => rfl
  | op o' e =>
    have ho : o ≠ o' := by
      rintro rfl
      simp [EngineEvent.at] at he
    exact update_of_ne ho _ _
  | newScope _ _ | close _ _ _ | expire _ =>
    unfold Engine.next
    dsimp only
    split <;> rfl
  | send _ _ _ _ _ _ | drop _ _ _ =>
    unfold Engine.next
    dsimp only
    split
    · rfl
    · exact update_of_ne (fun ho => by simp [EngineEvent.at, ho] at he) _ _
  | answer id o' k =>
    unfold Engine.next
    dsimp only
    split
    · rfl
    · split <;> rfl

omit [∀ o, Inhabited (K o)] in
/-- An event of an operation is one of its own events. -/
lemma bound_next_some {o} (hok : s.Ok cfg e) {d} (he : e.at o = some d) :
    (s.bound o).Ok (cfg o) d ∧ (s.next cfg e).bound o = (s.bound o).next (cfg o) d := by
  cases e with
  | op o' e =>
    by_cases ho : o' = o
    · subst ho
      obtain rfl : e = d := by simpa [EngineEvent.at] using he
      exact ⟨hok.1, update_self _ _ _⟩
    · simp [EngineEvent.at, ho] at he
  | send id o' now now' reply ctxErr =>
    obtain ⟨rfl, he⟩ := Option.ite_none_right_eq_some.1 he
    cases he
    obtain ⟨sw, hsw, -⟩ := Option.map_eq_some_iff.1 hok.1
    refine ⟨⟨rfl, hok.2⟩, ?_⟩
    unfold Engine.next
    dsimp only
    rw [hsw]
    exact update_self _ _ _
  | drop id o' scope =>
    obtain ⟨rfl, he⟩ := Option.ite_none_right_eq_some.1 he
    cases he
    obtain ⟨sw, hsw, -⟩ := Option.map_eq_some_iff.1 hok
    refine ⟨trivial, ?_⟩
    unfold Engine.next
    dsimp only
    rw [hsw]
    exact update_self _ _ _
  | _ => cases he

/-- An engine refines each of its operations. -/
lemma engine_bound (cfg : (o : O) → OpConfig (K o)) (o : O) : (engine (V := V) (E := E) cfg).Refines
    (bound (cfg o)) (fun s => s.bound o) (EngineEvent.at o) where
  init := rfl
  hidden := fun _ _ _ _ _ he => bound_next_none he
  shown := fun _ _ _ _ _ hok he => bound_next_some hok he

/-- The moves of an operation's coordinator in an event. -/
def EngineEvent.move (o : O) (e : EngineEvent O K V E) : Option (Move (K o) (V o) E) :=
  ((e.at o).bind BoundEvent.exchange).bind NetEvent.move

/-- **A run of an engine is a run of each coordinator.** -/
theorem engine_coord (cfg : (o : O) → OpConfig (K o)) (o : O) : (engine (V := V) (E := E) cfg).Refines
    (coordinator (cfg o).toBindingConfig) (fun s => (s.bound o).net.coord) (EngineEvent.move o) :=
  ((engine_bound cfg o).comp (bound_net (cfg o))).comp (net_coord (cfg o).toBindingConfig)

end Engine

/-! ## Flush and Close -/

section Sweep

variable {O E : Type} {sw : Sweep O E}

section

variable (todo : List O)
include todo

lemma Sweep.proceed_scope : (sw.proceed todo).scope = sw.scope := by
  unfold Sweep.proceed
  split <;> rfl

lemma Sweep.proceed_closing : (sw.proceed todo).closing = sw.closing := by
  unfold Sweep.proceed
  split <;> rfl

lemma Sweep.proceed_ops : (sw.proceed todo).ops = sw.ops := by
  unfold Sweep.proceed
  split <;> rfl

lemma Sweep.proceed_todo : (sw.proceed todo).todo = todo := by
  unfold Sweep.proceed
  split <;> rfl

/-- The loop is over or visits the next operation. -/
lemma Sweep.proceed_stage : todo = [] ∧ (sw.proceed todo).stage = .returned sw.err ∨
    (sw.proceed todo).stage = .sending := by
  cases todo with
  | nil => exact .inl ⟨rfl, rfl⟩
  | cons o rest => exact .inr rfl

end

end Sweep

/-! ## A small engine -/

section Demo

/-- The small binding as an operation without a fallback. -/
def demoOp (mode : FlushMode) (memo : Bool) : OpConfig ℕ := { demo mode with
    hasFallback := false
    requireScope := true
    memoEnabled := memo
    memoNegative := false
    memoMaxItems := 10
    memoMaxBytes := 0
    estimateBytes := fun _ => 8
    partitionEncodedHash := fun p => p.length.toUInt64 }

/-- An engine with one operation. -/
abbrev DemoEngine := Engine Unit (fun _ => ℕ) (fun _ => ℕ) ℕ

abbrev DemoEvent := EngineEvent Unit (fun _ => ℕ) (fun _ => ℕ) ℕ

def demoEngine (memo : Bool) : System DemoEngine DemoEvent := engine fun _ => demoOp .manual memo

instance (memo : Bool) (es : List DemoEvent) (s : DemoEngine) (e : DemoEvent) :
    Decidable ((demoEngine memo).ok es s e) :=
  inferInstanceAs (Decidable (s.Ok (fun _ => demoOp .manual memo) e))

def demoNet (e : NetEvent ℕ ℕ ℕ) : DemoEvent := .op () (.net e)

/-- A call of `Do` without memo table, until it is about to submit. -/
def demoEnter (id : DoId) (scope : ScopeID) (part : GoString) (key : ℕ) : List DemoEvent :=
  [.op () (.start id scope ⟨part⟩ key), .op () (.checkOpen id true), .op () (.accept id none),
    .op () (.clone id true), .op () (.track id ⟨part⟩ key 1 1 none)]

/-- The coordinator receives a submission, and its reply is seen. -/
def demoArrive (part : GoString) (key : ℕ) (w : WaiterId) : List DemoEvent :=
  [demoNet (.turn ⟨.submit 0 (demoReq part key w) none, 0, fun _ => none⟩), demoNet .reveal]

/-- A provider call returns. -/
def demoReturn (id : BatchId) (os : List (Outcome ℕ (GoError ℕ))) : DemoEvent :=
  demoNet (.turn ⟨.complete (fun _ => 0) ⟨id, ⟨os⟩, none, false, ""⟩, 0, fun _ => none⟩)

end Demo

end BatchWeaver
