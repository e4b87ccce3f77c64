import BatchWeaver.Proof.Flight

/-!
# The engine's cancellation

`handleEngineCancel` tells every waiter and cancels every batch, but leaves the queues and
the counters of the items as they are. What it finds queued is dispatched later or stays.

* `shutdown_drains`: if nothing is queued when the cancellation is handled, no batch is
  started afterwards, and once no batch is in flight the loop has returned.
* `shutdown_leaks`: with an item queued the loop does not return, or a batch is started for
  no one.
-/

namespace BatchWeaver

open List Coord

variable {K V E : Type} {cfg : BindingConfig K} {es : List (Move K V E)}

/-- The effect starts a provider call. -/
def Effect.starts : Effect K V E → Bool
  | .start .. => true
  | _ => false

/-- The coordinator takes no submission, has nothing queued, and has started no provider call
beyond those of `out`. -/
structure Emptied (out : List (Effect K V E)) (c : Coord K V E) : Prop where
  closing : c.closing = true
  pending : ∀ pk, (c.part pk).pending = []
  started : ∀ eff ∈ c.out, eff.starts = true → eff ∈ out

section Acts

variable [Inhabited V] {jn : JoinRule K V E} {g g' : Held K} {c c' : Coord K V E} {out : List (Effect K V E)}

lemma Emptied.act (h : Emptied out c) (hok : CoordOK cfg es g c) (ha : Act cfg es jn g c g' c') : Emptied out c' := by
  refine ⟨(ha.forward hok).closing h.closing, fun pk => ?_, fun eff he hs => ?_⟩
  · rcases ha.still hok with hs | ⟨req, rest, it, -, hc, -⟩ | ⟨now, req, rest, -, hc, -⟩
    · refine eq_nil_iff_forall_not_mem.2 fun it hit => ?_
      have hin := hs.pending pk it hit
      rw [h.pending pk] at hin
      cases hin
    · rw [h.closing] at hc; cases hc
    · rw [h.closing] at hc; cases hc
  obtain ⟨effs, hout, hem⟩ := ha.emits hok
  rw [hout, mem_append] at he
  refine h.started eff (he.resolve_right fun he => ?_) hs
  cases hem eff he with
  | start pk l reason a _ hsel hl hne _ _ =>
    -- a batch is made of queued items
    obtain ⟨it, hit⟩ := exists_mem_of_ne_nil _ hne
    have hin := hl it (hsel.perm.mem_iff.2 (mem_append_left _ hit))
    rw [h.pending pk] at hin
    cases hin
  | _ => cases hs

lemma Emptied.acts (h : Emptied out c) (hok : CoordOK cfg es g c) (ha : Acts cfg es jn g c g' c') : Emptied out c' :=
  (ha.keeps (I := fun g c => CoordOK cfg es g c ∧ Emptied out c)
    (fun _ _ _ _ ha hI => ⟨hI.1.act ha, hI.2.act hI.1 ha⟩) ⟨hok, h⟩).2

omit [Inhabited V] in
/-- Without a batch in flight nothing is left. -/
lemma Emptied.drained (h : Emptied out c) (hok : CoordOK cfg es {} c) (hf : c.inflight = ∅) : c.drained = true := by
  refine (drained_iff hok.struct).2 ⟨hf, fun pk => ?_⟩
  have hperm := hok.struct.perm pk
  have hno : c.flight pk = [] := by
    refine eq_nil_iff_forall_not_mem.2 fun it hit => ?_
    obtain ⟨id, b, hb, -⟩ := mem_flight.1 hit
    rw [hf] at hb
    cases hb
  rw [Held.queueOf_none rfl, h.pending pk, hno] at hperm
  exact hperm.eq_nil

/-- **A turn that leaves no batch in flight ends the loop.** -/
theorem Emptied.returns {t : Turn K V E} (h : Emptied out (c.handle cfg t.event))
    (hok : CoordOK cfg es {} (c.handle cfg t.event)) (hf : (c.turn cfg t).inflight = ∅) :
    (c.turn cfg t).done = true := by
  rcases turn_cases cfg c t with ht | ⟨-, ht⟩
  · rw [ht] at hf ⊢
    have hsched : Acts cfg es anyJoin {} (c.handle cfg t.event) {}
        ((c.handle cfg t.event).schedule cfg false t.now) := (schedule_acts hok rfl false t.now).acts
    have htry := hsched.trans (tryCompleteBarriers_act rfl t.ctxErr).one
    have hok₁ := hok.acts htry
    have h₁ := h.acts hok htry
    unfold finishTurn at hf ⊢
    dsimp only at hf ⊢
    split at hf
    · rename_i hcd
      rw [if_pos hcd]
    rename_i hcd
    refine absurd ?_ hcd
    rw [h₁.closing, h₁.drained hok₁ hf]
    rfl
  · rw [ht]

lemma handleEngineCancel_emptied (hok : CoordOK cfg es {} c) (he : c.engineDone = true)
    (hq : ∀ pk, (c.part pk).pending = []) : Emptied c.out c.handleEngineCancel := by
  have hclose : Act cfg es anyJoin {} c {} { c with closing := true } :=
    Act.sched (SchedAct.quiet { Quiet.refl cfg c with closing := fun _ => rfl })
  have h : Emptied c.out { c with closing := true } := ⟨rfl, hq, fun _ he _ => he⟩
  -- setting the flag twice is setting it once
  have hacts : Acts cfg es anyJoin {} { c with closing := true } {} c.handleEngineCancel :=
    handleEngineCancel_acts (hok.act hclose) rfl he
  exact h.acts (hok.act hclose) hacts

/-- A move keeps the loop from going on with nothing to do. -/
lemma Emptied.move {out : List (Effect K V E)} (h : Emptied out c) (hok : CoordOK cfg es {} c)
    {m : Move K V E} (hl : m.Legal cfg es c) (hret : c.inflight = ∅ → c.done = true) :
    Emptied out (c.move cfg m) ∧ ((c.move cfg m).inflight = ∅ → (c.move cfg m).done = true) := by
  refine ⟨h.acts (hok.mono m) (move_acts hok hl joinsOnly_true), ?_⟩
  cases m with
  | turn t =>
    have hacts := handle_acts hok hl.2 joinsOnly_true
    exact (h.acts (hok.mono _) hacts).returns ((hok.mono _).acts hacts)
  | _ => exact hret

end Acts

/-! ## Runs -/

section Runs

variable [Inhabited K] [Inhabited V] {c : Coord K V E}

/-- **Shutdown drains.** From the turn on that handles the engine's cancellation, if nothing was
queued then: no provider call is started, and as soon as no batch is in flight the coordinator
is drained and its loop has returned. -/
theorem shutdown_drains (h : (coordinator cfg).Reach es c) {now : Time} {ctxErr : ControlId → Option (GoError E)}
    (hl : Move.Legal cfg es c (.turn ⟨.engine, now, ctxErr⟩)) (hq : ∀ pk, (c.part pk).pending = [])
    {es' : List (Move K V E)} {c' : Coord K V E} (hs : (coordinator cfg).Steps (es ++ [.turn ⟨.engine, now, ctxErr⟩])
      (c.move cfg (.turn ⟨.engine, now, ctxErr⟩)) es' c') :
    (∀ eff ∈ c'.out, eff.starts = true → eff ∈ c.out) ∧ (c'.inflight = ∅ → c'.drained = true ∧ c'.done = true) := by
  have hok := reach_ok h
  have hr := reach_move h hl
  obtain ⟨hok₁, hacts⟩ := engine_acts hok hl.2 now ctxErr
  have h₁ := handleEngineCancel_emptied hok hl.2 hq
  have hret : (c.move cfg (.turn ⟨.engine, now, ctxErr⟩)).inflight = ∅ →
      (c.move cfg (.turn ⟨.engine, now, ctxErr⟩)).done = true :=
    Emptied.returns h₁ hok₁
  have hinv := hs.invariant hr (I := fun _ c' => Emptied c.out c' ∧ (c'.inflight = ∅ → c'.done = true))
    ⟨h₁.acts hok₁ hacts, hret⟩ fun es c m hr hl hI => hI.1.move (reach_ok hr) hl hI.2
  exact ⟨hinv.1.started, fun hf => ⟨hinv.1.drained (reach_ok (hr.trans hs)) hf, hinv.2 hf⟩⟩

/-- The engine is canceled while a batch is in flight; its completion ends the loop. -/
def demoShutdown : List (Move ℕ ℕ ℕ) := [demoSubmit [1] 1 1 none, demoControl .flush 7, .cancelEngine]

theorem shutdown_drains_demo :
    let c := demoRun .manual (demoShutdown ++ [demoTurn .engine, demoComplete 1 [.success 1 5]])
    c.drained = true ∧ c.done = true := by
  have hr : (coordinator (demo .manual)).Reach demoShutdown (demoRun .manual demoShutdown) :=
    System.reach_of_allowed (by decide)
  have hl : Move.Legal (demo .manual) demoShutdown (demoRun .manual demoShutdown) (demoTurn .engine) := by
    decide
  have hq : ∀ pk, ((demoRun .manual demoShutdown).part pk).pending = [] := by
    intro pk
    have hall : ∀ e ∈ (demoRun .manual demoShutdown).partitions.entries, e.2.pending = [] := by
      decide
    cases hp : (demoRun .manual demoShutdown).partitions.lookup pk with
    | none => rw [part_of_none _ hp]; rfl
    | some p => rw [part_eq_of_lookup _ hp]; exact hall ⟨pk, p⟩ (Table.mem_entries.2 hp)
  have hs : (coordinator (demo .manual)).Steps (demoShutdown ++ [demoTurn .engine])
      (demoRun .manual (demoShutdown ++ [demoTurn .engine]))
      (demoShutdown ++ [demoTurn .engine] ++ [demoComplete 1 [.success 1 5]])
      (demoRun .manual (demoShutdown ++ [demoTurn .engine, demoComplete 1 [.success 1 5]])) :=
    System.Steps.refl.step (demoComplete 1 [.success 1 5]) (show _ by decide)
  exact (shutdown_drains hr hl hq hs).2 (AList.ext (by decide))

/-- **The engine's cancellation leaves queued items behind.** In manual mode the queued item
keeps the loop from returning, now and at the next turn. In immediate mode the item that
waits for the slot is dispatched when the slot is free, though its only waiter was told that
the engine is closed. -/
theorem shutdown_leaks : (let es := [demoSubmit [1] 1 1 none, .cancelEngine, demoTurn .engine, demoTurn .engine]
      let c := demoRun .manual es
      (coordinator (demo .manual)).Reach es c ∧ c.inflight = ∅ ∧ (c.part [1]).live = 1 ∧
        c.drained = false ∧ c.done = false) ∧
    (let es := [demoSubmit [1] 1 1 none, demoSubmit [2] 2 2 none, .cancelEngine, demoTurn .engine]
      let es' := es ++ [demoComplete 1 [.success 1 5]]
      let c := demoRun .immediate es
      let c' := demoRun .immediate es'
      (coordinator (demo .immediate)).Reach es' c' ∧ (c.items 2).waiters = [2] ∧
        c.active 2 = false ∧ Effect.result 2 (.error .engineClosed) ∈ c.out ∧
        Effect.start 2 [2] .wait none ⟨[⟨2, 2, 0, 0, 1⟩]⟩ ∉ c.out ∧
        Effect.start 2 [2] .wait none ⟨[⟨2, 2, 0, 0, 1⟩]⟩ ∈ c'.out) :=
  ⟨⟨System.reach_of_allowed (show _ by decide), AList.ext (by decide), by decide, by decide, by decide⟩,
    ⟨System.reach_of_allowed (show _ by decide), by decide, by decide, by decide, by decide, by decide⟩⟩

end Runs

end BatchWeaver
