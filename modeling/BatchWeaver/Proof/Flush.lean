import BatchWeaver.Proof.Barrier
import BatchWeaver.Proof.Engine

/-!
# Flush of a scope

`Scope.Flush`, and with it `bridge.Flush`, sends a flush request to each operation of the scope, one
after the other, and waits for the reply. The coordinator replies when everything that was queued has
been dispatched; the batches may still be in flight.

* `Coord.Stopped`: a coordinator whose loop has returned has nothing queued or in flight.
* `SweepStep`: what an event does to a call of `Flush` or `Close`.
* `flush_completes`: if no batch that goes back to the flush is in flight when its reply is taken, then
  every request admitted before the flush is resolved when the call returns without an error.
* `flush_overtakes`: a call that returns while a request is in flight.
-/

namespace BatchWeaver

open List

/-! ## The coordinator -/

variable {reply : ControlId}

section Coord

variable {K V E : Type}

/-- If the loop has returned, nothing is queued or in flight, and nothing will be. -/
def Coord.Stopped (c : Coord K V E) : Prop := c.done = true → c.closing = true ∧ ∀ pk, (c.part pk).indexed = []

section Acts

variable [Inhabited V] {cfg : BindingConfig K} {es : List (Move K V E)}
  {jn : JoinRule K V E} {g g' : Held K} {c c' : Coord K V E}

lemma Coord.Stopped.act (h : c.Stopped) (hok : CoordOK cfg es g c) (ha : Act cfg es jn g c g' c') : c'.Stopped := by
  intro hd
  obtain ⟨-, hcl, -, hdone⟩ := ha.flags hok
  have hold : c.closing = true ∧ ∀ pk, (c.part pk).indexed = [] := by
    rcases hdone with heq | ⟨hc, hdr⟩
    · exact h (heq.symm.trans hd)
    · exact ⟨hc, ((drained_iff hok.struct).1 hdr).2⟩
  refine ⟨hcl hold.1, fun pk => ?_⟩
  rcases ha.still hok with hs | ⟨req, rest, it, -, hc, -⟩ | ⟨now, req, rest, -, hc, -⟩
  · refine eq_nil_iff_forall_not_mem.2 fun it hit => ?_
    have hin := hs.indexed pk it hit
    rw [hold.2 pk] at hin
    cases hin
  · rw [hold.1] at hc
    cases hc
  · rw [hold.1] at hc
    cases hc

lemma move_out (hok : CoordOK cfg es {} c) {m} (hl : m.Legal cfg es c) : c.out <+: (c.move cfg m).out :=
  ((move_acts hok hl joinsOnly_true).keeps (I := fun g₁ c₁ => CoordOK cfg (es ++ [m]) g₁ c₁ ∧ c.out <+: c₁.out)
    (fun _ _ _ _ ha hI => ⟨hI.1.act ha, hI.2.trans (ha.out_prefix hI.1.waiter.nodup)⟩)
    ⟨hok.mono m, prefix_rfl⟩).2

end Acts

variable [Inhabited K] [Inhabited V] {cfg : BindingConfig K} {es : List (Move K V E)} {c : Coord K V E}

section

variable (h : (coordinator cfg).Reach es c)
include h

lemma reach_stopped : c.Stopped := reach_always (J := fun _ _ c => c.Stopped) nofun (fun _ _ _ _ hJ => hJ)
    (fun _ _ _ _ _ hok ha hJ => hJ.act hok ha) h

/-- When the loop has returned, every admitted caller is settled. -/
lemma stopped_settled (hd : c.done = true) {w} (hw : Effect.reply w none ∈ c.out) :
    c.results w ≠ [] ∨ Canceled es w := by
  have hD := reach_delivery h
  obtain ⟨it, hit⟩ := (hD.admitted w).1 hw
  refine hD.settled (reach_ok h) (fun pk hin => ?_) hit
  rw [(reach_stopped h hd).2 pk] at hin
  cases hin

/-- When a flush was answered and no batch that goes back to it is in flight, every caller admitted
before it is settled. -/
lemma flush_settled {now now' ctxErr} (hl : Move.Legal cfg es c (.turn (flushTurn now now' reply ctxErr))) {es' c'}
    (hs : (coordinator cfg).Steps (es ++ [.turn (flushTurn now now' reply ctxErr)]) (c.move cfg (.turn (flushTurn now now' reply ctxErr))) es' c')
    (hr : Effect.barrier reply none ∈ c'.out) (hf : c'.anyInflight c.submitSeq = false) {w}
    (hw : Effect.reply w none ∈ c.out) : c'.results w ≠ [] ∨ Canceled es' w := by
  have hr' := (reach_move h hl).trans hs
  obtain ⟨it, hit⟩ := ((reach_delivery h).admitted w).1 hw
  have hp := control_passed h hl hs (ne_nil_of_mem hit)
  have hno := not_indexed_of_seq (reach_ok hr') rfl (reach_seq hr') hf hp.seq (hp.dispatched hr)
  exact (reach_delivery hr').settled (reach_ok hr') hno (hp.waiters w hit)

end

end Coord

/-! ## What callers see -/

section Net

variable {K V E : Type} {cfg : BindingConfig K} {s : Net K V E}

lemma coordinator_next [Inhabited V] [Inhabited K] (c : Coord K V E) (m : Move K V E) :
    (coordinator cfg).next c m = c.move cfg m := rfl

lemma Net.shown_receive (e : Event K V E) : (s.receive e).shown = s.shown := by
  unfold Net.receive
  split <;> rfl

variable {e : NetEvent K V E}

/-- An event shows more of the effects, or it is a turn of the coordinator that starts when all
effects have been shown. -/
lemma Net.next_cases [Inhabited V] (hok : s.Ok cfg e) :
    ((s.next cfg e).coord.out = s.coord.out ∧ (s.next cfg e).coord.done = s.coord.done ∧
      s.shown ≤ (s.next cfg e).shown) ∨
    (s.coord.done = false ∧ s.shown = s.coord.out.length ∧ (s.next cfg e).shown = s.shown ∧
      ∃ t, e.move = some (.turn t) ∧ (s.next cfg e).coord = s.coord.move cfg (.turn t)) := by
  cases e with
  | call _ _ _ _ _ | expire _ => exact .inl ⟨rfl, rfl, le_rfl⟩
  | select _ _ | post _ =>
    left
    unfold Net.next
    dsimp only
    split <;> exact ⟨rfl, rfl, le_rfl⟩
  | reveal => exact .inl ⟨rfl, rfl, Nat.le_succ _⟩
  | turn t => exact .inr ⟨hok.1, hok.2.1, Net.shown_receive _, t, rfl, rfl⟩
  | outside m =>
    left
    cases m with
    | turn t => cases hok
    | _ => exact ⟨rfl, rfl, le_rfl⟩

lemma Net.closed_next [Inhabited V] (hok : s.Ok cfg e) (hc : s.closed = true) : (s.next cfg e).closed = true := by
  unfold Net.closed at hc ⊢
  rw [Bool.and_eq_true, decide_eq_true_eq] at hc ⊢
  rcases Net.next_cases hok with ⟨ho, hd, hsh⟩ | ⟨hd, -⟩
  · rw [ho, hd]
    exact ⟨hc.1, hc.2.trans hsh⟩
  · rw [hc.1] at hd
    cases hd

variable {es : List (NetEvent K V E)}

lemma Net.out_next [Inhabited K] [Inhabited V] (hr : (net cfg).Reach es s)
    (hok : s.Ok cfg e) : s.coord.out <+: (s.next cfg e).coord.out := by
  rcases Net.next_cases hok with ⟨ho, -⟩ | ⟨-, -, -, t, ht, hm⟩
  · rw [ho]
  · rw [hm]
    exact move_out (reach_ok (net_refines hr).1) ((net_coord cfg).shown es s e _ hr hok ht).1

/-- Effects that were seen stay seen. -/
lemma Net.visible_next [Inhabited K] [Inhabited V] (hr : (net cfg).Reach es s)
    (hok : s.Ok cfg e) : s.visible <+: (s.next cfg e).visible := by
  unfold Net.visible
  rcases Net.next_cases hok with ⟨ho, -, hsh⟩ | ⟨-, hall, hsh, -⟩
  · rw [ho]
    exact take_prefix_take_left hsh
  · obtain ⟨effs, heffs⟩ := Net.out_next hr hok
    rw [hsh, ← heffs, hall, take_left, take_length]

lemma Net.result_isSome {w} : (s.result w).isSome = true ↔
    ∃ eff ∈ s.visible, (Effect.resultFor w eff).isSome = true := by
  unfold Net.result
  rw [isSome_findSome?, any_eq_true]

lemma Net.result_of_results {w} (hall : s.coord.out.length ≤ s.shown)
    (h : s.coord.results w ≠ []) : (s.result w).isSome = true := by
  rw [Net.result_isSome]
  obtain ⟨r, hr⟩ := exists_mem_of_ne_nil _ h
  obtain ⟨eff, he, hw⟩ := mem_filterMap.1 hr
  refine ⟨eff, ?_, by rw [hw]; rfl⟩
  unfold Net.visible
  rw [take_of_length_le hall]
  exact he

lemma Net.mem_of_barrierReply {id err} (h : s.barrierReply id = some err) : Effect.barrier id err ∈ s.coord.out := by
  obtain ⟨eff, he, hr⟩ := exists_of_findSome?_eq_some h
  have hin := mem_of_mem_take he
  unfold Effect.barrierFor at hr
  split at hr
  · split at hr
    · rename_i hid
      cases hr
      rw [hid] at hin
      exact hin
    · cases hr
  · cases hr

end Net

/-! ## Calls of Flush -/

section Engine

variable {O : Type} {K V : O → Type} {E : Type} {id : SweepId} {o : O} {sw : Sweep O E} {now now' : Time}
  {ctxErr : CtxErrs E} {S : System (Engine O K V E) (EngineEvent O K V E)}
  {es₀ : List (EngineEvent O K V E)}

/-- The coordinator of an operation has admitted the request. -/
def Engine.Admitted (s : Engine O K V E) (o : O) (w : WaiterId) : Prop :=
  Effect.reply w none ∈ (s.bound o).net.coord.out

/-- The result of the request has been sent, or its cancellation has been handled. -/
def Engine.Resolved [DecidableEq O] (s : Engine O K V E) (es : List (EngineEvent O K V E)) (o : O)
    (w : WaiterId) : Prop :=
  ((s.bound o).net.result w).isSome = true ∨ Canceled (es.filterMap (EngineEvent.move o)) w

/-- In `s₀` the coordinator of `o` receives the flush request of the call `id`; the run goes on to `s`. -/
def HandledAt (S : System (Engine O K V E) (EngineEvent O K V E)) (id : SweepId) (o : O)
    (es₀ : List (EngineEvent O K V E)) (s₀ : Engine O K V E) (es : List (EngineEvent O K V E))
    (s : Engine O K V E) : Prop :=
  ∃ now now' reply ctxErr, S.Reach es₀ s₀ ∧ S.ok es₀ s₀ (.send id o now now' reply ctxErr) ∧
    S.Steps (es₀ ++ [.send id o now now' reply ctxErr]) (S.next s₀ (.send id o now now' reply ctxErr)) es s

def SweepStage.mark : SweepStage E → Option ℕ
  | .waiting _ seq => some seq
  | _ => none

/-- A call of `Flush` waits for the reply of a coordinator that had numbered its items up to this. -/
def Engine.mark (s : Engine O K V E) (id : SweepId) : Option ℕ :=
  (s.sweeps.lookup id).bind fun sw => if sw.closing then none else sw.stage.mark

/-- The call that takes the reply of an operation. -/
def EngineEvent.takes : EngineEvent O K V E → Option (SweepId × O)
  | .answer id o .value => some (id, o)
  | _ => none

/-- A call of `Flush` takes the reply of a coordinator between two turns of its loop, when it has no
batch in flight with an item that was queued before the flush. -/
def Awaited (_ : List (EngineEvent O K V E)) (s : Engine O K V E) (e : EngineEvent O K V E) : Prop :=
  ∀ q ∈ e.takes, ∀ n ∈ s.mark q.1, (s.bound q.2).net.shown = (s.bound q.2).net.coord.out.length ∧
      (s.bound q.2).net.coord.anyInflight n = false

instance (es : List (EngineEvent O K V E)) (s : Engine O K V E) (e : EngineEvent O K V E) :
    Decidable (Awaited es s e) :=
  inferInstanceAs (Decidable (∀ q ∈ e.takes, ∀ n ∈ s.mark q.1, _ ∧ _))

/-- **What an event does to a call of `Flush` or `Close`.** -/
inductive SweepStep (s : Engine O K V E) (id : SweepId) (sw : Sweep O E) : EngineEvent O K V E → Sweep O E → Prop
  | same (e : EngineEvent O K V E) : SweepStep s id sw e sw
  | expire (e : EngineEvent O K V E) : SweepStep s id sw e { sw with ctxDone := true }
  | send (o : O) (now now' : Time) (reply : ControlId) (ctxErr : ControlId → Option (GoError E)) :
      sw.todo.head? = some o → sw.stage = .sending →
      SweepStep s id sw (.send id o now now' reply ctxErr)
        { sw with stage := .waiting reply (s.bound o).net.coord.submitSeq }
  | answer (o : O) (k : Case) (err : Option (SweepError E)) : sw.todo.head? = some o →
      s.control o sw k = some err → SweepStep s id sw (.answer id o k) (sw.flushed err)
  | drop (o : O) (scope : ScopeID) : sw.stage = .dropping →
      SweepStep s id sw (.drop id o scope) (sw.proceed sw.todo.tail)

variable {e : EngineEvent O K V E}

variable {s₀ : Engine O K V E}

lemma HandledAt.step {es₀ es s} (h : HandledAt S id o es₀ s₀ es s)
    (hok : S.ok es s e) : HandledAt S id o es₀ s₀ (es ++ [e]) (S.next s e) := by
  obtain ⟨now, now', reply, ctxErr, h1, h2, h3⟩ := h
  exact ⟨now, now', reply, ctxErr, h1, h2, h3.step e hok⟩

/-- `op.flush` returns an error, or takes the reply, or finds the coordinator closed. -/
lemma control_cases {s : Engine O K V E} {k err} (h : s.control o sw k = some err) :
    (∀ r, sw.stage ≠ .returned r) ∧ ((∃ x, err = some x) ∨ (s.bound o).net.closed = true ∨
        k = .value ∧ ∃ reply n, sw.stage = .waiting reply n ∧ (s.bound o).net.barrierReply reply = some none) := by
  have hready : ∀ {b : Bool} {x : Option (SweepError E)}, (if b then some x else none) = some err →
      b = true ∧ x = err := by
    intro b x hb
    split at hb
    · rename_i ht
      exact ⟨ht, Option.some.inj hb⟩
    · cases hb
  unfold Engine.control at h
  cases hst : sw.stage with
  | sending =>
    refine ⟨nofun, ?_⟩
    rw [hst] at h
    cases k with
    | value => cases h
    | ctxDone => exact .inl ⟨_, (hready h).2.symm⟩
    | done => exact .inr (.inl (hready h).1)
  | waiting reply n =>
    refine ⟨nofun, ?_⟩
    rw [hst] at h
    cases k with
    | value =>
      obtain ⟨r, hr, rfl⟩ := Option.map_eq_some_iff.1 h
      cases r with
      | none => exact .inr (.inr ⟨rfl, reply, n, rfl, hr⟩)
      | some x => exact .inl ⟨_, rfl⟩
    | ctxDone => exact .inl ⟨_, (hready h).2.symm⟩
    | done => exact .inr (.inl (hready h).1)
  | _ =>
    rw [hst] at h
    cases k <;> cases h

lemma lookup_setSweep (s : Engine O K V E) (id i : SweepId) (sw : Sweep O E) :
    (s.setSweep id sw).sweeps.lookup i = if i = id then some sw else s.sweeps.lookup i :=
  Table.lookup_insert_if s.sweeps id i sw

variable [DecidableEq O] [∀ o, Inhabited (V o)] {cfg : (o : O) → OpConfig (K o)} {s : Engine O K V E}

/-- An event leaves the calls of `Flush` and `Close` alone, starts one, or takes one further. -/
lemma sweeps_next (hok : s.Ok cfg e) :
    (s.next cfg e).sweeps = s.sweeps ∨ ∃ id y, (s.next cfg e).sweeps = (s.setSweep id y).sweeps ∧
      ((s.sweeps.lookup id = none ∧ ∃ scope closing order, y = .start scope closing order) ∨
        ∃ x, s.sweeps.lookup id = some x ∧ SweepStep s id x e y) := by
  cases e with
  | newScope ctx nested =>
    left
    unfold Engine.next
    dsimp only
    split <;> rfl
  | engine _ | op _ _ => exact .inl rfl
  | flush id scope order => exact .inr ⟨id, _, rfl, .inl ⟨hok.1, scope, false, order, rfl⟩⟩
  | close id scope order =>
    unfold Engine.next
    dsimp only
    split
    · exact .inl rfl
    · exact .inr ⟨id, _, rfl, .inl ⟨hok.1, scope, true, order, rfl⟩⟩
  | expire id =>
    obtain ⟨x, hx⟩ := Option.isSome_iff_exists.1 hok
    unfold Engine.next
    dsimp only
    rw [hx]
    exact .inr ⟨id, _, rfl, .inr ⟨x, hx, .expire _⟩⟩
  | send id o now now' reply ctxErr =>
    obtain ⟨x, hx, hst⟩ := Option.map_eq_some_iff.1 hok.1
    have hstep : SweepStep s id x _ _ := .send o now now' reply ctxErr (congrArg (·.1) hst) (congrArg (·.2) hst)
    unfold Engine.next
    dsimp only
    rw [hx]
    exact .inr ⟨id, _, rfl, .inr ⟨x, hx, hstep⟩⟩
  | answer id o k =>
    obtain ⟨err, herr⟩ := Option.isSome_iff_exists.1 hok
    obtain ⟨x, hx, hc⟩ := Option.bind_eq_some_iff.1 herr
    split at hc
    · rename_i hhead
      unfold Engine.next
      dsimp only
      rw [hx]
      dsimp only
      rw [hc]
      exact .inr ⟨id, _, rfl, .inr ⟨x, hx, .answer o k err hhead hc⟩⟩
    · cases hc
  | drop id o scope =>
    obtain ⟨x, hx, hst⟩ := Option.map_eq_some_iff.1 hok
    unfold Engine.next
    dsimp only
    rw [hx]
    exact .inr ⟨id, _, rfl, .inr ⟨x, hx, .drop o scope (congrArg (·.2.2) hst)⟩⟩

/-- A call after an event: it starts, or it was there and has gone on. -/
lemma sweep_next (hok : s.Ok cfg e) {sw'} (hsw' : (s.next cfg e).sweeps.lookup id = some sw') :
    (∃ scope closing order, sw' = .start scope closing order) ∨
      ∃ sw, s.sweeps.lookup id = some sw ∧ SweepStep s id sw e sw' := by
  rcases sweeps_next hok with heq | ⟨i, y, heq, hy⟩
  · rw [heq] at hsw'
    exact .inr ⟨sw', hsw', .same e⟩
  rw [heq, lookup_setSweep] at hsw'
  split at hsw'
  · rename_i hid
    subst hid
    cases hsw'
    exact hy.imp_left (·.2)
  · exact .inr ⟨sw', hsw', .same e⟩

lemma sweepStep_next (hok : s.Ok cfg e) (hsw : s.sweeps.lookup id = some sw) :
    ∃ sw', (s.next cfg e).sweeps.lookup id = some sw' ∧ SweepStep s id sw e sw' := by
  rcases sweeps_next hok with heq | ⟨i, y, heq, hy⟩
  · rw [heq]
    exact ⟨sw, hsw, .same e⟩
  rw [heq, lookup_setSweep]
  split
  · rename_i hid
    subst hid
    rcases hy with ⟨hnone, -⟩ | ⟨x, hx, hstep⟩
    · rw [hsw] at hnone
      cases hnone
    · obtain rfl : x = sw := Option.some.inj (hx.symm.trans hsw)
      exact ⟨y, rfl, hstep⟩
  · exact ⟨sw, hsw, .same e⟩

omit [DecidableEq O] [∀ o, Inhabited (V o)] in
lemma SweepStep.closing {sw sw'} (h : SweepStep s id sw e sw') : sw'.closing = sw.closing ∧ sw'.ops = sw.ops := by
  have hproceed : ∀ todo, (sw.proceed todo).closing = sw.closing ∧ (sw.proceed todo).ops = sw.ops :=
    fun todo => ⟨Sweep.proceed_closing todo, Sweep.proceed_ops todo⟩
  cases h with
  | same | expire | send => exact ⟨rfl, rfl⟩
  | answer o k err _ _ =>
    unfold Sweep.flushed
    split
    · exact ⟨rfl, rfl⟩
    split
    · exact ⟨rfl, rfl⟩
    · exact hproceed _
  | drop => exact hproceed _

/-! ### What stays -/

section Stays

variable [∀ o, Inhabited (K o)] {es : List (EngineEvent O K V E)} {e : EngineEvent O K V E} {w : WaiterId}

section

variable (hr : (engine cfg).Reach es s) (hok : s.Ok cfg e)
include hr hok

/-- An event is none of an operation's messages, or one of them. -/
lemma net_next_cases (o : O) :
    ((s.next cfg e).bound o).net = (s.bound o).net ∨ ∃ ne, (s.bound o).net.Ok (cfg o).toBindingConfig ne ∧
        ((s.next cfg e).bound o).net = (s.bound o).net.next (cfg o).toBindingConfig ne :=
  ((engine_bound (V := V) (E := E) cfg o).comp (bound_net (cfg o))).next_cases hr hok

lemma closed_next (hc : (s.bound o).net.closed = true) : ((s.next cfg e).bound o).net.closed = true := by
  rcases net_next_cases hr hok o with heq | ⟨ne, hne, heq⟩
  · rw [heq]
    exact hc
  · rw [heq]
    exact Net.closed_next hne hc

lemma Engine.Resolved.next (h : s.Resolved es o w) : (s.next cfg e).Resolved (es ++ [e]) o w := by
  rcases h with h | h
  · left
    rcases net_next_cases hr hok o with heq | ⟨ne, hne, heq⟩
    · rw [heq]
      exact h
    rw [heq]
    rw [Net.result_isSome] at h ⊢
    obtain ⟨eff, he, hw⟩ := h
    have hnet := ((engine_bound cfg o).comp (bound_net (cfg o))).reach hr
    exact ⟨eff, (Net.visible_next hnet hne).subset he, hw⟩
  right
  cases hm : e.move o with
  | none =>
    rw [System.filterMap_snoc_none hm]
    exact h
  | some m =>
    rw [System.filterMap_snoc_some hm]
    exact h.mono m

lemma Engine.Admitted.next (h : s.Admitted o w) : (s.next cfg e).Admitted o w := by
  unfold Engine.Admitted at h ⊢
  rcases net_next_cases hr hok o with heq | ⟨ne, hne, heq⟩
  · rw [heq]
    exact h
  have hnet := ((engine_bound cfg o).comp (bound_net (cfg o))).reach hr
  rw [heq]
  exact (Net.out_next hnet hne).subset h

end

lemma Engine.Admitted.steps
    (h : s₀.Admitted o w) (hr : (engine cfg).Reach es₀ s₀) (hs : (engine cfg).Steps es₀ s₀ es s) : s.Admitted o w :=
  hs.invariant hr (I := fun _ s => s.Admitted o w) h fun _ _ _ hr hok hI => hI.next hr hok

/-- A closed coordinator has resolved what it admitted. -/
lemma closed_resolved (hr : (engine cfg).Reach es s) (hc : (s.bound o).net.closed = true)
    (hw : s.Admitted o w) : s.Resolved es o w := by
  unfold Net.closed at hc
  rw [Bool.and_eq_true, decide_eq_true_eq] at hc
  exact (stopped_settled ((engine_coord cfg o).reach hr) hc.1 hw).imp_left (Net.result_of_results hc.2)

end Stays

/-! ### A call waits -/

section Waits

variable [∀ o, Inhabited (K o)] {es : List (EngineEvent O K V E)}

/-- Where a call is after its request was handled by the coordinator of `o` in `s₀`. -/
inductive Waits (s₀ : Engine O K V E) (o : O) (es : List (EngineEvent O K V E)) (s : Engine O K V E)
    (reply : ControlId) (sw : Sweep O E) : Prop
  | close : sw.closing = true → Waits s₀ o es s reply sw
  | waiting : sw.stage = .waiting reply (s₀.bound o).net.coord.submitSeq → sw.todo.head? = some o →
      Waits s₀ o es s reply sw
  | failed (err : SweepError E) : sw.stage = .returned (some err) → Waits s₀ o es s reply sw
  | resolved : (∀ w, s₀.Admitted o w → s.Resolved es o w) → Waits s₀ o es s reply sw

omit [DecidableEq O] in
lemma Sweep.flushed_error (hc : sw.closing = false) (err : SweepError E) :
    (sw.flushed (some err)).stage = .returned (some err) := by
  unfold Sweep.flushed
  rw [hc]
  rfl

omit [∀ o, Inhabited (V o)] [∀ o, Inhabited (K o)] in
lemma move_send (id : SweepId) (o : O) (now now' : Time) (reply : ControlId) (ctxErr : CtxErrs E) :
    (EngineEvent.send id o now now' reply ctxErr : EngineEvent O K V E).move o =
      some (.turn (flushTurn now now' reply ctxErr)) := by
  unfold EngineEvent.move EngineEvent.at
  dsimp only
  rw [if_pos rfl]
  rfl

/-- The reply is there, and no batch that goes back to the flush is in flight. -/
lemma replied_resolved {e}
    (he : e = .send id o now now' reply ctxErr) (hr₀ : (engine cfg).Reach es₀ s₀) (hok₀ : s₀.Ok cfg e)
    (hs : (engine cfg).Steps (es₀ ++ [e]) (s₀.next cfg e) es s) (hrep : (s.bound o).net.barrierReply reply = some none)
    (hall : (s.bound o).net.shown = (s.bound o).net.coord.out.length)
    (hf : (s.bound o).net.coord.anyInflight (s₀.bound o).net.coord.submitSeq = false) {w}
    (hw : s₀.Admitted o w) : s.Resolved es o w := by
  have hmove := move_send (V := V) (K := K) id o now now' reply ctxErr
  rw [← he] at hmove
  obtain ⟨hl, hnext⟩ := (engine_coord cfg o).shown es₀ s₀ e _ hr₀ hok₀ hmove
  have hr := (engine_coord cfg o).reach hr₀
  have hsteps := (engine_coord cfg o).steps (hr₀.step e hok₀) hs
  rw [System.filterMap_snoc_some hmove, hnext, coordinator_next] at hsteps
  have hset := flush_settled hr hl hsteps (Net.mem_of_barrierReply hrep) hf hw
  exact hset.imp_left (Net.result_of_results hall.ge)

/-- **After its request was handled, a call waits until what was admitted before is resolved.** -/
theorem handled_waits {s₀ : Engine O K V E} {reply : ControlId} {e₀ : EngineEvent O K V E}
    (he : e₀ = .send id o now now' reply ctxErr) (hr₀ : ((engine cfg).only Awaited).Reach es₀ s₀)
    (hok₀ : s₀.Ok cfg e₀) (hs : ((engine cfg).only Awaited).Steps (es₀ ++ [e₀]) (s₀.next cfg e₀) es s) :
    ∃ sw, s.sweeps.lookup id = some sw ∧ Waits s₀ o es s reply sw := by
  have hr₁ : ((engine cfg).only Awaited).Reach (es₀ ++ [e₀]) (s₀.next cfg e₀) :=
    hr₀.step _ ⟨hok₀, by rw [he]; nofun⟩
  induction hs with
  | refl =>
    subst he
    obtain ⟨sw, hsw, hst⟩ := Option.map_eq_some_iff.1 hok₀.1
    refine ⟨{ sw with stage := .waiting reply (s₀.bound o).net.coord.submitSeq }, ?_, .waiting rfl (congrArg (·.1) hst)⟩
    unfold Engine.next
    dsimp only
    rw [hsw]
    exact AList.lookup_insert _
  | @step es s e hs hok ih =>
    obtain ⟨sw, hsw, hw⟩ := ih
    have hr := (hr₁.trans hs).of_only
    obtain ⟨sw', hsw', hstep⟩ := sweepStep_next hok.1 hsw
    have hclosing := hstep.closing.1
    refine ⟨sw', hsw', ?_⟩
    cases hw with
    | close hc => exact .close (hclosing.trans hc)
    | resolved hres => exact .resolved fun w hw => (hres w hw).next hr hok.1
    | failed err hst =>
      cases hstep with
      | same | expire => exact .failed err hst
      | send _ _ _ _ _ _ hs' | drop _ _ hs' => rw [hst] at hs'; cases hs'
      | answer o' k err' _ hc => exact absurd hst ((control_cases hc).1 _)
    | waiting hst hhead =>
      cases hstep with
      | same | expire => exact .waiting hst hhead
      | send _ _ _ _ _ _ hs' | drop _ _ hs' => rw [hst] at hs'; cases hs'
      | answer o' k err hhead' hc =>
        obtain rfl : o = o' := Option.some.inj (hhead.symm.trans hhead')
        cases hcl : sw.closing with
        | true => exact .close (hclosing.trans hcl)
        | false =>
          rcases (control_cases hc).2 with ⟨x, rfl⟩ | hclosed | ⟨rfl, r, n, hst', hrep⟩
          · exact .failed x (Sweep.flushed_error hcl x)
          · -- the coordinator has stopped; what it had admitted before the flush it has admitted
            refine .resolved fun w hw => (closed_resolved hr hclosed ?_).next hr hok.1
            exact (hw.next hr₀.of_only hok₀).steps hr₁.of_only hs.of_only
          rw [hst] at hst'
          cases hst'
          have hmark : s.mark id = some (s₀.bound o).net.coord.submitSeq := by
            unfold Engine.mark
            rw [hsw, Option.bind_some, hcl, hst]
            rfl
          obtain ⟨hall, hf⟩ := hok.2 (id, o) rfl _ hmark
          exact .resolved fun w hw => (replied_resolved he hr₀.of_only hok₀ hs.of_only hrep hall hf hw).next hr hok.1

end Waits

/-! ### A call visits every operation -/

section Visits

variable [∀ o, Inhabited (K o)] {es : List (EngineEvent O K V E)}

/-- The operation has handled the flush request of the call, or is closed. -/
def Visited (S : System (Engine O K V E) (EngineEvent O K V E)) (es : List (EngineEvent O K V E))
    (s : Engine O K V E) (id : SweepId) (o : O) : Prop :=
  (∃ es₀ s₀, HandledAt S id o es₀ s₀ es s) ∨ (s.bound o).net.closed = true

/-- **A call of `Flush` has visited the operations that are not left**, and has asked the one it
waits for. -/
structure FlushOK (S : System (Engine O K V E) (EngineEvent O K V E)) (es : List (EngineEvent O K V E))
    (s : Engine O K V E) (id : SweepId) (sw : Sweep O E) : Prop where
  visited : ∃ done, sw.ops = done ++ sw.todo ∧ ∀ o ∈ done, Visited S es s id o
  asked : ∀ reply n, sw.stage = .waiting reply n → ∀ o, sw.todo.head? = some o → ∃ es₀ s₀, HandledAt S id o es₀ s₀ es s
  ends : sw.stage = .returned none → sw.todo = []
  keeps : sw.stage ≠ .dropping

omit [DecidableEq O] [∀ o, Inhabited (V o)] [∀ o, Inhabited (K o)] in
/-- The loop goes on with what is left. -/
lemma FlushOK.proceed (done : List O) {todo} (hops : sw.ops = done ++ todo)
    (hdone : ∀ o ∈ done, Visited S es s id o) : FlushOK S es s id (sw.proceed todo) where
  visited := ⟨done, by rw [Sweep.proceed_ops, Sweep.proceed_todo]; exact hops, hdone⟩
  asked := by
    intro reply n hst
    rcases sw.proceed_stage todo with ⟨-, h⟩ | h
    · rw [h] at hst
      cases hst
    · rw [h] at hst
      cases hst
  ends := by
    intro hst
    rw [Sweep.proceed_todo]
    rcases sw.proceed_stage todo with ⟨h, -⟩ | h
    · exact h
    · rw [h] at hst
      cases hst
  keeps := by
    intro hst
    rcases sw.proceed_stage todo with ⟨-, h⟩ | h
    · rw [h] at hst
      cases hst
    · rw [h] at hst
      cases hst

/-- **Every event keeps it.** -/
theorem FlushOK.next {Q : List (EngineEvent O K V E) → Engine O K V E → EngineEvent O K V E → Prop}
    {sw sw' : Sweep O E} (h : FlushOK ((engine cfg).only Q) es s id sw)
    (hr : ((engine cfg).only Q).Reach es s) {e : EngineEvent O K V E}
    (hok : ((engine cfg).only Q).ok es s e) (hcl : sw.closing = false) (hstep : SweepStep s id sw e sw') :
    FlushOK ((engine cfg).only Q) (es ++ [e]) (s.next cfg e) id sw' := by
  have hvisited : ∀ {o}, Visited ((engine cfg).only Q) es s id o →
      Visited ((engine cfg).only Q) (es ++ [e]) (s.next cfg e) id o := by
    rintro o (⟨es₀, s₀, hh⟩ | hc)
    · exact .inl ⟨es₀, s₀, hh.step hok⟩
    · exact .inr (closed_next hr.of_only hok.1 hc)
  obtain ⟨done, hops, hdone⟩ := h.visited
  have hdone' : ∀ o ∈ done, Visited ((engine cfg).only Q) (es ++ [e]) (s.next cfg e) id o :=
    fun o ho => hvisited (hdone o ho)
  have hasked : ∀ reply n, sw.stage = .waiting reply n → ∀ o, sw.todo.head? = some o →
      ∃ es₀ s₀, HandledAt ((engine cfg).only Q) id o es₀ s₀ (es ++ [e]) (s.next cfg e) := by
    intro reply n hst o ho
    obtain ⟨es₀, s₀, hh⟩ := h.asked reply n hst o ho
    exact ⟨es₀, s₀, hh.step hok⟩
  cases hstep with
  | same | expire => exact ⟨⟨done, hops, hdone'⟩, hasked, h.ends, h.keeps⟩
  | send o now now' reply ctxErr ho hst =>
    refine ⟨⟨done, hops, hdone'⟩, fun _ _ _ o' ho' => ?_, nofun, nofun⟩
    obtain rfl : o = o' := Option.some.inj (ho.symm.trans ho')
    exact ⟨es, s, now, now', reply, ctxErr, hr, hok, System.Steps.refl⟩
  | drop o scope hst => exact absurd hst h.keeps
  | answer o k err ho hc =>
    unfold Sweep.flushed
    rw [if_neg (by rw [hcl]; nofun)]
    cases err with
    | some err => exact ⟨⟨done, hops, hdone'⟩, nofun, nofun, nofun⟩
    | none =>
      -- the operation is visited: its reply was taken, or it is closed
      obtain ⟨rest, htodo⟩ : ∃ rest, sw.todo = o :: rest := head?_eq_some_iff.1 ho
      refine FlushOK.proceed (done ++ [o]) ?_ fun o' ho' => ?_
      · rw [htodo, tail_cons, append_assoc, singleton_append, ← htodo]
        exact hops
      rcases mem_append.1 ho' with ho' | ho'
      · exact hdone' o' ho'
      rw [mem_singleton.1 ho']
      rcases (control_cases hc).2 with ⟨x, hx⟩ | hclosed | ⟨-, reply, n, hst, -⟩
      · cases hx
      · exact hvisited (.inr hclosed)
      · exact .inl (hasked reply n hst o ho)

lemma reach_flush {Q : List (EngineEvent O K V E) → Engine O K V E → EngineEvent O K V E → Prop}
    (h : ((engine cfg).only Q).Reach es s) (hsw : s.sweeps.lookup id = some sw) (hcl : sw.closing = false) :
    FlushOK ((engine cfg).only Q) es s id sw := by
  have hinv := h.invariant (I := fun es s => ∀ id sw, s.sweeps.lookup id = some sw → sw.closing = false →
    FlushOK ((engine cfg).only Q) es s id sw) (fun _ _ hsw => by cases hsw) ?_
  · exact hinv id sw hsw hcl
  intro es s e hr hok ih id sw' hsw' hcl'
  rcases sweep_next hok.1 hsw' with ⟨scope, closing, order, rfl⟩ | ⟨sw, hsw, hstep⟩
  · exact FlushOK.proceed [] rfl nofun
  · have hcl := hstep.closing.1.symm.trans hcl'
    exact (ih id sw hsw hcl).next hr hok hcl hstep

/-- **A flush that returns without an error was a completion barrier**, in every run in which replies
are taken only when no batch that goes back to the flush is in flight. Every operation of the scope has
handled the flush request or is closed, and each request that it had admitted by then is resolved. -/
theorem flush_completes (h : ((engine cfg).only Awaited).Reach es s) {id : SweepId} {sw : Sweep O E}
    (hsw : s.sweeps.lookup id = some sw) (hflush : sw.closing = false) (hret : sw.stage = .returned none)
    {o : O} (ho : o ∈ sw.ops) : ((∃ es₀ s₀, HandledAt ((engine cfg).only Awaited) id o es₀ s₀ es s) ∨
      (s.bound o).net.closed = true ∧ ∀ w, s.Admitted o w → s.Resolved es o w) ∧
    ∀ es₀ s₀, HandledAt ((engine cfg).only Awaited) id o es₀ s₀ es s → ∀ w, s₀.Admitted o w → s.Resolved es o w := by
  have hok := reach_flush h hsw hflush
  obtain ⟨done, hops, hdone⟩ := hok.visited
  rw [hok.ends hret, append_nil] at hops
  rw [hops] at ho
  refine ⟨(hdone o ho).imp_right fun hc => ⟨hc, fun w hw => closed_resolved h.of_only hc hw⟩, ?_⟩
  rintro es₀ s₀ ⟨now, now', reply, ctxErr, hr₀, hok₀, hs⟩ w hw
  obtain ⟨sw', hsw', hwait⟩ := handled_waits rfl hr₀ hok₀.1 hs
  obtain rfl : sw' = sw := Option.some.inj (hsw'.symm.trans hsw)
  cases hwait with
  | close hc =>
    rw [hflush] at hc
    cases hc
  | waiting hst _ | failed _ hst =>
    rw [hret] at hst
    cases hst
  | resolved hres => exact hres w hw

end Visits

end Engine

/-! ## Runs -/

/-- A checked run with a flush request in it. -/
lemma handledAt_of_allowed {O : Type} {K V : O → Type} {E : Type}
    {S : System (Engine O K V E) (EngineEvent O K V E)} {id} {o} {now now'}
    {ctxErr} {es₀ es}
    (h : S.Allowed [] S.init (es₀ ++ [.send id o now now' reply ctxErr] ++ es)) :
    HandledAt S id o es₀ (S.run S.init es₀) (es₀ ++ [.send id o now now' reply ctxErr] ++ es)
      (S.run S.init (es₀ ++ [.send id o now now' reply ctxErr] ++ es)) := by
  obtain ⟨h1, h2⟩ := System.allowed_append h
  obtain ⟨h3, h4, -⟩ := System.allowed_append h1
  refine ⟨now, now', reply, ctxErr, System.reach_of_allowed h3, h4, ?_⟩
  rw [System.run_append, System.run_append] at *
  exact System.steps_of_allowed h2 System.Steps.refl

/-- A request is queued and its scope is about to be flushed. -/
def demoQueued : List DemoEvent :=
  [.newScope none .isolateChild] ++ demoEnter 1 1 [1] 7 ++ demoArrive [1] 7 1 ++ [.flush 1 1 [()]]

def demoSend : DemoEvent := .send 1 () 0 0 1 fun _ => none

/-- The provider returns before the reply is taken. -/
def demoPatient : List DemoEvent :=
  demoQueued ++ [demoSend] ++ [demoNet .reveal, demoNet .reveal, demoReturn 1 [.success 2 5],
    demoNet .reveal, demoNet .reveal, .answer 1 () .value]

/-- The reply is taken as soon as it is there. -/
def demoHasty : List DemoEvent := demoQueued ++ [demoSend] ++ [demoNet .reveal, demoNet .reveal, .answer 1 () .value]

theorem flush_completes_demo :
    ((demoEngine false).run (demoEngine false).init demoPatient).Resolved demoPatient () 1 := by
  have ha : ((demoEngine false).only Awaited).Allowed [] (demoEngine false).init demoPatient := by
    decide
  have hsw : ((demoEngine false).run (demoEngine false).init demoPatient).sweeps.lookup 1 =
      some ⟨1, false, [()], [], false, none, .returned none⟩ := by decide
  have hw : ((demoEngine false).run (demoEngine false).init demoQueued).Admitted () 1 := by
    show _ ∈ _
    decide
  exact (flush_completes (System.reach_of_allowed ha) hsw rfl rfl (mem_singleton.2 rfl)).2 _ _
    (handledAt_of_allowed ha) 1 hw

/-- **A flush returns while a request admitted before it is in flight.** -/
theorem flush_overtakes : ∃ es₀ es : List DemoEvent, ∃ s₀ s : DemoEngine, (demoEngine false).Reach es s ∧
    (s.sweeps.lookup 1).map (fun sw => (sw.scope, sw.closing, sw.ops, sw.stage)) =
      some (1, false, [()], .returned none) ∧
    HandledAt (demoEngine false) 1 () es₀ s₀ es s ∧ s₀.Admitted () 1 ∧ ¬s.Resolved es () 1 ∧
    (s.bound ()).net.coord.anyInflight 1 = true := by
  have ha : (demoEngine false).Allowed [] (demoEngine false).init demoHasty := by decide
  refine ⟨demoQueued, demoHasty, _, _, System.reach_of_allowed ha, by decide,
    handledAt_of_allowed ha, ?_, ?_, by decide⟩
  · show _ ∈ _
    decide
  rintro (hres | hc)
  · revert hres
    decide
  revert hc
  unfold Canceled
  decide

end BatchWeaver
