import BatchWeaver.Spec.Binding
import BatchWeaver.Proof.Progress

/-!
# Flush timers and adaptive settings

What the coordinator does without a further request: the timer `schedule` leaves behind, under the settings `Bind`
accepts and those an adaptive controller applies.

* `adaptive_tightens`: applied settings stay within the configured ones and delay no flush.
* `no_missed_wakeup`: with nothing in flight, the timer fires before any queue becomes due.
* `no_busy_timer`: with room for every batch, or nothing due, the timer fires later.
* `queued_work_moves`: with a time trigger, nothing stays queued without a timer or a batch in flight.

The zero wait means "no time-based flush" to `shouldDispatch` and to `computeNextTimer`, and the clamps make it out of a
negative wait (`negative_wait`), while `Validate` accepts it for most modes (`zero_wait`). When the provider is
saturated, the timer of a queue that is due is armed without a delay (`busy_timer`).
-/

namespace BatchWeaver

open List Coord

variable {K V E : Type} {cfg : BindingConfig K}

/-! ## What `Bind` accepts -/

section

variable {L : Library} {engine engine' : EngineView} {spec : Operation.Spec} {b : Binding K}

section

variable (h : b.bind L engine spec = .ok (cfg, engine'))
include h

lemma bind_config : spec.validate L = [] ∧ ∃ keys, cfg = newBindingConfig engine spec b keys := by
  unfold Binding.bind at h
  dsimp only at h
  split at h
  · cases h
  split at h
  · cases h
  rename_i hvalid
  split at h
  · cases h
  split at h
  · cases h
  rename_i keys _
  refine ⟨not_not.1 hvalid, keys, ?_⟩
  split at h
  · cases h
  split at h
  · cases h
  split at h
  · cases h
  split at h
  · cases h
  split at h
  · cases h
  · exact (congrArg Prod.fst (Except.ok.inj h)).symm

/-- The scheduler policy of a bound operation has passed its checks. -/
lemma bind_policy : spec.schedulerPolicy.validate = none := by
  have hvalid := (bind_config h).1
  unfold Operation.Spec.validate at hvalid
  simp only [append_eq_nil_iff] at hvalid
  have hfinding := hvalid.1.1.1.1.1.1.1.2
  unfold Operation.finding at hfinding
  simpa using hfinding

lemma bind_maxWait : 0 ≤ cfg.maxWait := by
  have hall := Operation.wrapFailed_none (bind_policy h)
  have hwait := hall _ (mem_of_getElem? (i := 5) rfl)
  obtain ⟨-, keys, rfl⟩ := bind_config h
  exact not_lt.1 (of_decide_eq_false hwait)

end

end

/-! ## Adaptive settings -/

section

variable {c : Coord K V E}

/-- With a positive upper bound a clamp stays in its interval. -/
lemma clampInt_mem {lo hi} (hlo : lo ≤ hi) (hhi : 0 < hi) (v : ℤ) : lo ≤ clampInt v lo hi ∧ clampInt v lo hi ≤ hi := by
  unfold clampInt
  dsimp only
  split <;> split <;> omega

/-- A batch size or a concurrency is raised to one and lowered to the configured one. -/
lemma setting_mem {v configured} (h : 1 ≤ configured) : 1 ≤ (if 0 < v then clampInt v 1 configured else configured) ∧
      (if 0 < v then clampInt v 1 configured else configured) ≤ configured := by
  split
  · exact clampInt_mem h (by omega) v
  · exact ⟨h, le_rfl⟩

/-- The wait after `ApplyAdaptiveSettings`: outside of two cases it is positive if the configured one is, and no
longer. -/
lemma adaptedWait {s} (hwait : 0 ≤ cfg.maxWait) (hpos : 0 < s.maxWait → 0 < cfg.maxWait) :
    (0 ≤ (applyAdaptiveSettings cfg s).maxWait ∧ (applyAdaptiveSettings cfg s).maxWait ≤ cfg.maxWait) ∧
      (0 ≤ s.maxWait → 0 < cfg.maxWait → 0 < (applyAdaptiveSettings cfg s).maxWait) := by
  unfold applyAdaptiveSettings clampInt
  dsimp only
  split
  · omega
  split
  · omega
  · split <;> split <;> omega

/-- The applied batch size is one only if the configured or the requested one is. -/
lemma adaptedSize_one {s} : (applyAdaptiveSettings cfg s).maxBatchSize = 1 ↔ cfg.maxBatchSize = 1 ∨ s.maxBatchSize = 1 := by
  have := cfg.maxBatchSize_pos
  unfold applyAdaptiveSettings clampInt
  dsimp only
  split
  · split <;> split <;> omega
  · omega

/-- A queue becomes due no later when the wait is shorter and not zero. -/
lemma flushTimes_sooner (c c' : Coord K V E) {p} (hitems : c'.items = c.items)
    (hdl : c'.earliestDeadline p = c.earliestDeadline p)
    (hwait : (cfg.flushMode = .fixedWindow ∨ cfg.flushMode = .deadlineAware) → 0 < c.effectiveMaxWait cfg →
      0 < c'.effectiveMaxWait cfg ∧ c'.effectiveMaxWait cfg ≤ c.effectiveMaxWait cfg)
    {d} (hd : d ∈ c.flushTimes cfg p) : ∃ d' ∈ c'.flushTimes cfg p, d' ≤ d := by
  unfold Coord.flushTimes at hd ⊢
  rcases mem_append.1 hd with hd | hd
  · unfold Coord.windowEnd at hd ⊢
    cases hq : p.pending with
    | nil =>
      rw [hq] at hd
      cases hd
    | cons it rest =>
      rw [hq] at hd
      dsimp only at hd ⊢
      split at hd
      · rename_i hm
        obtain ⟨hpos, hle⟩ := hwait hm.1 hm.2
        rw [if_pos ⟨hm.1, hpos⟩, mem_singleton.1 hd, hitems]
        exact ⟨_, mem_append_left _ (mem_singleton.2 rfl), add_le_add_right hle _⟩
      · cases hd
  · rw [← hdl] at hd
    exact ⟨d, mem_append_right _ hd, le_rfl⟩

variable [Inhabited V]

/-- What an adaptive controller may ask for: a wait only where one is configured, and a negative one only where no
flush waits, because of the mode or because a batch holds one item. -/
structure Tightening (cfg : BindingConfig K) (s : AdaptiveSettings) : Prop where
  pos : 0 < s.maxWait → 0 < cfg.maxWait
  neg : s.maxWait < 0 → 0 < cfg.maxWait → cfg.flushMode = .fixedWindow ∨ cfg.flushMode = .deadlineAware →
    cfg.maxBatchSize = 1 ∨ s.maxBatchSize = 1

/-- Tightening settings stay within the configured ones and delay no flush. -/
lemma adaptive_within {L : Library} {engine engine' : EngineView} {spec : Operation.Spec} {b : Binding K}
    (hbind : b.bind L engine spec = .ok (cfg, engine')) {s : AdaptiveSettings} (ht : Tightening cfg s) (c : Coord K V E) :
    let c' := c.move cfg (.adapt s)
    (0 ≤ c'.effectiveMaxWait cfg ∧ c'.effectiveMaxWait cfg ≤ cfg.maxWait) ∧
      (1 ≤ c'.effectiveMaxBatchSize cfg ∧ c'.effectiveMaxBatchSize cfg ≤ cfg.maxBatchSize) ∧
      (1 ≤ c'.effectiveMaxConcurrency cfg ∧ c'.effectiveMaxConcurrency cfg ≤ cfg.maxConcurrency) ∧
      ∀ (p : PartitionState) (now : Time), ((c.move cfg .clearAdaptive).shouldDispatch cfg p false now).isSome = true →
          (c'.shouldDispatch cfg p false now).isSome = true := by
  intro c'
  have hwait := adaptedWait (bind_maxWait hbind) ht.pos
  have hsize : 1 ≤ c'.effectiveMaxBatchSize cfg ∧ c'.effectiveMaxBatchSize cfg ≤ cfg.maxBatchSize :=
    setting_mem cfg.maxBatchSize_pos
  refine ⟨hwait.1, hsize, setting_mem cfg.maxConcurrency_pos, fun p now hdue => ?_⟩
  by_cases hp : p.pending = []
  · rw [shouldDispatch_nil hp] at hdue
    cases hdue
  rw [shouldDispatch_iff hp] at hdue ⊢
  rcases hdue with hcrowd | ⟨d, hd, hle⟩
  · left
    rcases hcrowd with hn | hrest
    · exact .inl (hsize.2.trans hn)
    · exact .inr hrest
  by_cases hsmall : c'.effectiveMaxBatchSize cfg = 1
  · -- a batch of one is full
    left; left
    rw [hsmall]
    exact_mod_cast length_pos_of_ne_nil hp
  right
  have htimed : (cfg.flushMode = .fixedWindow ∨ cfg.flushMode = .deadlineAware) → 0 < cfg.maxWait → 0 ≤ s.maxWait := by
    intro hm hw
    by_contra hlt
    exact hsmall ((adaptedSize_one).2 (ht.neg (not_le.1 hlt) hw hm))
  obtain ⟨d', hd', hle'⟩ := flushTimes_sooner (c.move cfg .clearAdaptive) c' rfl rfl
    (fun hm hw => ⟨hwait.2 (htimed hm hw) hw, hwait.1.2⟩) hd
  exact ⟨d', hd', hle'.trans hle⟩

/-- One request that nobody waits for, queued at time zero. -/
def lonePartition : PartitionState := { PartitionState.new ⟨[]⟩ with pending := [1] }

omit [Inhabited V] in
/-- The request of a window is due at the window's end, unless its wait is turned off. -/
lemma lone_delayed [Inhabited K] (c : Coord K V E) (hc : c.items = fun _ => default) (hsize : 1 < c.effectiveMaxBatchSize cfg)
    (hmode : cfg.flushMode = .fixedWindow ∨ cfg.flushMode = .deadlineAware) (now : Time) :
    (c.shouldDispatch cfg lonePartition false now).isSome = true ↔
      0 < c.effectiveMaxWait cfg ∧ c.effectiveMaxWait cfg ≤ now := by
  have hweight : ¬(0 < cfg.maxBatchWeight ∧ cfg.maxBatchWeight ≤ lonePartition.weight) := fun h => absurd h.1 (not_lt.2 h.2)
  have hbytes : ¬(0 < cfg.maxBatchBytes ∧ cfg.maxBatchBytes ≤ lonePartition.bytes) := fun h => absurd h.1 (not_lt.2 h.2)
  have hcount : ¬c.effectiveMaxBatchSize cfg ≤ (lonePartition.pending.length : ℤ) := not_le.2 hsize
  have hwait : c.waitElapsed lonePartition (c.effectiveMaxWait cfg) now = true ↔
      0 < c.effectiveMaxWait cfg ∧ c.effectiveMaxWait cfg ≤ now := by
    unfold Coord.waitElapsed lonePartition
    rw [hc, decide_eq_true_iff]
    show _ ∧ (0 : ℤ) + _ ≤ _ ↔ _
    rw [zero_add]
  have hdl : c.earliestDeadline lonePartition = none := by
    unfold Coord.earliestDeadline Coord.itemEarliestDeadline lonePartition
    rw [hc]
    rfl
  unfold Coord.shouldDispatch
  rw [if_neg (show ¬lonePartition.pending.length = 0 from Nat.one_ne_zero), if_neg Bool.false_ne_true, if_neg hcount,
    if_neg hweight, if_neg hbytes, ← hwait]
  dsimp only
  rcases hmode with hm | hm <;> rw [hm] <;> dsimp only
  · split <;> simp_all
  · rw [hdl]
    split <;> simp_all

/-- **Adaptive settings only tighten**, in every state and for every queue, exactly if they are tightening: a
negative wait turns the time-based flush off, and a positive one is taken up where no wait is configured. -/
theorem adaptive_tightens [Inhabited K] {L : Library} {engine engine' : EngineView} {spec : Operation.Spec}
    {b : Binding K} (hbind : b.bind L engine spec = .ok (cfg, engine')) (s : AdaptiveSettings) :
    (∀ c : Coord K V E, let c' := c.move cfg (.adapt s)
      (0 ≤ c'.effectiveMaxWait cfg ∧ c'.effectiveMaxWait cfg ≤ cfg.maxWait) ∧
      (1 ≤ c'.effectiveMaxBatchSize cfg ∧ c'.effectiveMaxBatchSize cfg ≤ cfg.maxBatchSize) ∧
      (1 ≤ c'.effectiveMaxConcurrency cfg ∧ c'.effectiveMaxConcurrency cfg ≤ cfg.maxConcurrency) ∧
      ∀ (p : PartitionState) (now : Time), ((c.move cfg .clearAdaptive).shouldDispatch cfg p false now).isSome = true →
          (c'.shouldDispatch cfg p false now).isSome = true) ↔ Tightening cfg s := by
  constructor
  · intro h
    obtain ⟨⟨-, hle⟩, -, -, hdue⟩ := h Coord.init
    refine ⟨fun hs => ?_, fun hs hw hmode => ?_⟩
    · by_contra hzero
      have happlied : (applyAdaptiveSettings cfg s).maxWait ≤ cfg.maxWait := hle
      have := bind_maxWait hbind
      unfold applyAdaptiveSettings clampInt at happlied
      dsimp only at happlied
      split at happlied
      · omega
      split at happlied
      · omega
      · split at happlied <;> split at happlied <;> omega
    -- a request at the end of its window
    by_contra hone
    have hsize : 1 < (applyAdaptiveSettings cfg s).maxBatchSize :=
      lt_of_le_of_ne (setting_mem cfg.maxBatchSize_pos).1 (Ne.symm (mt adaptedSize_one.1 hone))
    have hoff : (applyAdaptiveSettings cfg s).maxWait = 0 := by
      unfold applyAdaptiveSettings clampInt
      dsimp only
      rw [if_neg (by omega), if_neg (by omega), if_pos hs, if_neg (by omega)]
    have hsize' : 1 < cfg.maxBatchSize := lt_of_lt_of_le hsize (setting_mem cfg.maxBatchSize_pos).2
    have hlone := (lone_delayed (Coord.init.move cfg .clearAdaptive : Coord K V E) rfl hsize' hmode cfg.maxWait).2
      ⟨hw, le_rfl⟩
    have hstill := (lone_delayed (Coord.init.move cfg (.adapt s) : Coord K V E) rfl hsize hmode _).1 (hdue _ _ hlone)
    exact absurd hoff (ne_of_gt hstill.1)
  intro ht c
  exact adaptive_within hbind ht c

end

/-! ## A bound operation -/

section Demo

/-- A read with a scheduler policy, otherwise with defaults. -/
def policySpec (policy : Operation.SchedulerParams) : Operation.Spec where
  id := str "demo.read"
  semantics :=
    { kind := .readOnly, effect := .read, idempotency := .idempotent, ordering := .preserve, atomicity := .perItem,
      retryAllowed := true, deduplicationAllowed := true }
  schedulerPolicy := policy

def demoBinding : Binding ℕ := { keys := some demoKeys }

/-- What `Bind` makes of it. -/
def policyConfig (policy : Operation.SchedulerParams) : BindingConfig ℕ :=
  newBindingConfig {} (policySpec policy) demoBinding demoKeys

abbrev demoLibrary : Library := Library.plain

lemma policyConfig_bind {policy} (hvalid : (policySpec policy).validate demoLibrary = [])
    (hoverflow : policy.overflow ≠ .fallback) : demoBinding.bind demoLibrary {} (policySpec policy) =
      .ok (policyConfig policy, { ops := [str "demo.read"] }) := by
  have hno : (policyConfig policy).overflow ≠ .fallback := by
    intro h
    have hpolicy : overflowPolicy policy.overflow = .fallback := h
    cases hp : policy.overflow with
    | fallback => exact hoverflow hp
    | _ =>
      rw [hp] at hpolicy
      cases hpolicy
  unfold Binding.bind
  rw [if_neg (by decide), if_neg (not_not.2 hvalid), if_neg (by decide)]
  show (if _ then _ else _) = _
  rw [if_neg (by decide), if_neg (by exact Bool.false_ne_true), if_neg (by exact Bool.false_ne_true),
    if_neg fun h => hno h.1, if_neg (by exact not_mem_nil)]
  rfl

/-- A window of ten nanoseconds. -/
def windowPolicy : Operation.SchedulerParams :=
  { Operation.defaultSchedulerPolicy with mode := .fixedWindow, maxWait := 10 }

lemma windowPolicy_valid : (policySpec windowPolicy).validate demoLibrary = [] := by decide

/-- A window without a length. -/
def barePolicy : Operation.SchedulerParams := { windowPolicy with maxWait := 0 }

/-- One request, submitted at time zero. -/
def windowState : Coord ℕ ℕ ℕ := (coordinator (policyConfig windowPolicy)).run Coord.init [demoSubmit [1] 1 1 none]

/-- With a wait of five nanoseconds the request is still dispatched when its window ends. -/
theorem adaptive_tightens_window :
    ((windowState.move (policyConfig windowPolicy) (.adapt { maxWait := 5 })).shouldDispatch
      (policyConfig windowPolicy) (windowState.part [1]) false 10).isSome = true :=
  ((adaptive_tightens (policyConfig_bind windowPolicy_valid (by decide)) { maxWait := 5 }).2
    ⟨by decide, by decide⟩ windowState).2.2.2 (windowState.part [1]) 10 (by decide)

/-- **A negative wait turns the flush off, and a wait is applied where none is configured.** In a window of ten
nanoseconds the queued request is due at ten; with a wait of minus one it is not due then, nor at any later time. Where
no wait is configured, an applied wait of five is in effect. -/
theorem negative_wait : demoBinding.bind demoLibrary {} (policySpec windowPolicy) =
        .ok (policyConfig windowPolicy, { ops := [str "demo.read"] }) ∧
      (windowState.move (policyConfig windowPolicy) .clearAdaptive).shouldDispatch (policyConfig windowPolicy)
        (windowState.part [1]) false 10 = some .wait ∧
      (∀ now, (windowState.move (policyConfig windowPolicy) (.adapt { maxWait := -1 })).shouldDispatch
        (policyConfig windowPolicy) (windowState.part [1]) false now = none) ∧
      demoBinding.bind demoLibrary {} (policySpec barePolicy) =
        .ok (policyConfig barePolicy, { ops := [str "demo.read"] }) ∧
      (policyConfig barePolicy).maxWait = 0 ∧
      ((Coord.init : Coord ℕ ℕ ℕ).move (policyConfig barePolicy) (.adapt { maxWait := 5 })).effectiveMaxWait
        (policyConfig barePolicy) = 5 := by
  refine ⟨policyConfig_bind windowPolicy_valid (by decide), by decide, fun now => ?_,
    policyConfig_bind (by decide) (by decide), rfl, rfl⟩
  rw [← Option.not_isSome_iff_eq_none, shouldDispatch_iff (by decide)]
  rintro (hcrowd | ⟨d, hd, -⟩)
  · revert hcrowd
    unfold Crowded
    decide
  have hnone : (windowState.move (policyConfig windowPolicy) (.adapt { maxWait := -1 })).flushTimes
      (policyConfig windowPolicy) (windowState.part [1]) = [] := by decide
  rw [hnone] at hd
  cases hd

end Demo

/-! ## The timer `schedule` leaves -/

section

variable [Inhabited K] [Inhabited V] {c : Coord K V E}

/-- The states in which the loop calls `schedule(false)`, once the event of a turn has been handled and inside the
handler of the timer, and those between turns. -/
inductive Scheduling (cfg : BindingConfig K) : Coord K V E → Prop
  | between {es : List (Move K V E)} {c : Coord K V E} : (coordinator cfg).Reach es c → Scheduling cfg c
  | handled {es : List (Move K V E)} {c : Coord K V E} {t : Turn K V E} : (coordinator cfg).Reach es c →
      Move.Legal cfg es c (.turn t) → Scheduling cfg (c.handle cfg t.event)
  | timer {es : List (Move K V E)} {c : Coord K V E} : (coordinator cfg).Reach es c → c.done = false →
      c.timer.isSome = true → c.timerActive = true → Scheduling cfg { c with timerActive := false }

lemma Scheduling.ok (h : Scheduling cfg c) : ∃ es, CoordOK cfg es {} c := by
  cases h with
  | between hr => exact ⟨_, reach_ok hr⟩
  | handled hr hl =>
    have hok := reach_ok hr
    exact ⟨_, (hok.mono _).acts (handle_acts hok hl.2 joinsOnly_true)⟩
  | timer hr _ _ _ =>
    exact ⟨_, (reach_ok hr).sched (SchedAct.quiet { Quiet.refl cfg _ with })⟩

omit [Inhabited K] [Inhabited V] in
/-- The timer fires at the next flush, or at once if that is past. -/
lemma computeNextTimer_timer (now : Time) :
    (c.computeNextTimer cfg now).timer = ((c.computeNextTimer cfg now).nextFlush cfg).map (max now) ∧
      (c.computeNextTimer cfg now).timerActive = (c.computeNextTimer cfg now).timer.isSome := by
  have hsame : (c.computeNextTimer cfg now).nextFlush cfg = c.nextFlush cfg := by
    unfold computeNextTimer
    split <;> rfl
  have hdelay : ∀ n now : ℤ, now + (if n - now < 0 then 0 else n - now) = max now n := by
    intro n now
    split <;> omega
  rw [hsame]
  unfold computeNextTimer
  cases c.nextFlush cfg with
  | none => exact ⟨rfl, rfl⟩
  | some n => exact ⟨congrArg some (hdelay n now), rfl⟩

omit [Inhabited K] in
/-- The timer of `schedule` fires at the least of the times of the queues, or at once if that is past. -/
lemma schedule_timer (cfg : BindingConfig K) (now : Time) : let c' := c.schedule cfg false now
    c'.timerActive = c'.timer.isSome ∧
      (∀ pk, ∀ d ∈ c'.flushTimes cfg (c'.part pk), ∃ n, c'.timer = some (max now n) ∧ n ≤ d) ∧
      ∀ d, c'.timer = some d → ∃ pk, ∃ n ∈ c'.flushTimes cfg (c'.part pk), d = max now n := by
  intro c'
  have htimer : c'.timer = (c'.nextFlush cfg).map (max now) := (computeNextTimer_timer now).1
  have hactive : c'.timerActive = c'.timer.isSome := (computeNextTimer_timer now).2
  have hleast : Least (c'.partitions.entries.flatMap fun e => c'.flushTimes cfg e.2) (c'.nextFlush cfg) :=
    nextFlush_least
  refine ⟨hactive, fun pk d hd => ?_, fun d hd => ?_⟩
  · have hmem : d ∈ c'.partitions.entries.flatMap fun e => c'.flushTimes cfg e.2 := by
      cases hl : c'.partitions.lookup pk with
      | none =>
        rw [part_of_none c' hl, flushTimes_nil rfl] at hd
        cases hd
      | some p =>
        rw [part_eq_of_lookup c' hl] at hd
        exact mem_flatMap.2 ⟨⟨pk, p⟩, Table.mem_entries.2 hl, hd⟩
    obtain ⟨n, hn, hle⟩ := hleast.le hmem
    exact ⟨n, htimer.trans (by rw [hn]; rfl), hle⟩
  cases hn : c'.nextFlush cfg with
  | none =>
    rw [htimer, hn] at hd
    cases hd
  | some n =>
    rw [htimer, hn] at hd
    rw [hn] at hleast
    obtain ⟨e, he, hmem⟩ := mem_flatMap.1 hleast.1
    refine ⟨e.1, n, ?_, (Option.some.inj hd).symm⟩
    rw [part_eq_of_lookup c' (Table.mem_entries.1 he)]
    exact hmem

/-- **No missed wake-up.** After `schedule(false)`, with no provider batch in flight: if a queue is due at some later
time, the timer is armed and fires no later. -/
theorem no_missed_wakeup (h : Scheduling cfg c) (now : Time) (hidle : (c.schedule cfg false now).inflight = ∅)
    (pk : GoString) {t : Time} (ht : now ≤ t)
    (hdue : ((c.schedule cfg false now).shouldDispatch cfg ((c.schedule cfg false now).part pk) false t).isSome = true) :
    ∃ d, (c.schedule cfg false now).timer = some d ∧ (c.schedule cfg false now).timerActive = true ∧ d ≤ t := by
  obtain ⟨es, hok⟩ := h.ok
  obtain ⟨hactive, htimes, -⟩ := schedule_timer (c := c) cfg now
  obtain ⟨-, -, hserved, -⟩ := schedule_served false now hok
  -- a free slot is left, so nothing queued is due now
  have hnow := (hserved.resolve_right (schedule_free hok now hidle)) pk
  set c' := c.schedule cfg false now with hc'
  have hp : (c'.part pk).pending ≠ [] := by
    intro hp
    rw [shouldDispatch_nil hp] at hdue
    cases hdue
  rw [← Option.not_isSome_iff_eq_none, shouldDispatch_iff hp] at hnow
  rcases (shouldDispatch_iff hp t).1 hdue with hcrowd | ⟨d, hd, hle⟩
  · exact absurd (.inl hcrowd) hnow
  obtain ⟨n, hn, hnd⟩ := htimes pk d hd
  refine ⟨max now n, hn, ?_, max_le ht (hnd.trans hle)⟩
  rw [hactive, hn]
  rfl

lemma windowState_reach : (coordinator (policyConfig windowPolicy)).Reach [demoSubmit [1] 1 1 none] windowState :=
  System.reach_of_allowed (by decide)

/-- The window of the request ends at ten, and the timer fires no later. -/
theorem no_missed_wakeup_window : ∃ d, (windowState.schedule (policyConfig windowPolicy) false 3).timer = some d ∧
      (windowState.schedule (policyConfig windowPolicy) false 3).timerActive = true ∧ d ≤ 10 :=
  no_missed_wakeup (.between windowState_reach) 3 (AList.ext (by decide)) [1] (by decide) (by decide)

/-- A queued item has waited long enough, or one of its callers is about to give up, in a mode that looks at it. -/
def Coord.Due (cfg : BindingConfig K) (c : Coord K V E) (now : Time) (it : ItemId) : Prop :=
  ((cfg.flushMode = .fixedWindow ∨ cfg.flushMode = .deadlineAware) ∧ 0 < c.effectiveMaxWait cfg ∧
      (c.items it).enqueue + c.effectiveMaxWait cfg ≤ now) ∨
    cfg.flushMode = .deadlineAware ∧ ∃ d, c.itemEarliestDeadline it = some d ∧ d - cfg.deadlineMargin ≤ now

omit [Inhabited K] [Inhabited V] in
/-- If a time of a queue has come, one of its items is due. -/
lemma due_of_flushTimes {p now n} (hn : n ∈ c.flushTimes cfg p) (hle : n ≤ now) :
    ∃ it ∈ p.pending, c.Due cfg now it := by
  unfold Coord.flushTimes at hn
  rcases mem_append.1 hn with hn | hn
  · unfold Coord.windowEnd at hn
    cases hq : p.pending with
    | nil =>
      rw [hq] at hn
      cases hn
    | cons it rest =>
      rw [hq] at hn
      dsimp only at hn
      split at hn
      · rename_i hm
        refine ⟨it, mem_cons_self, .inl ⟨hm.1, hm.2, ?_⟩⟩
        rw [← mem_singleton.1 hn]
        exact hle
      · cases hn
  split at hn
  · rename_i hm
    obtain ⟨d, hd, rfl⟩ := mem_map.1 hn
    have hleast := earliestDeadline_least (c := c) p
    rw [Option.mem_toList.1 hd] at hleast
    obtain ⟨it, hit, hitem⟩ := mem_filterMap.1 hleast.1
    exact ⟨it, hit, .inr ⟨hm, d, hitem, hle⟩⟩
  · cases hn

omit [Inhabited K] [Inhabited V] in
/-- Dispatching makes no item due. -/
lemma Onward.due {c'} (h : Onward c c') {now it} (hdue : c'.Due cfg now it) : c.Due cfg now it := by
  rcases hdue with ⟨hm, hw, hle⟩ | ⟨hm, d', hd', hle⟩
  · rw [h.effectiveMaxWait] at hw hle
    rw [h.enqueue] at hle
    exact .inl ⟨hm, hw, hle⟩
  · obtain ⟨d, hd, hdd⟩ := h.itemEarliestDeadline hd'
    exact .inr ⟨hm, d, hd, (sub_le_sub_right hdd _).trans hle⟩

/-- **No busy timer**, if there is a provider slot for every batch the queues are split into, or nothing queued is due:
a timer that `schedule(false)` leaves armed fires later. -/
theorem no_busy_timer (h : Scheduling cfg c) (now : Time)
    (hwhen : c.HasRoom cfg ∨ ∀ pk, ∀ it ∈ (c.part pk).pending, ¬ c.Due cfg now it) {d : Time}
    (hd : (c.schedule cfg false now).timer = some d) : now < d := by
  obtain ⟨es, hok⟩ := h.ok
  obtain ⟨-, -, htimer⟩ := schedule_timer (c := c) cfg now
  obtain ⟨honward, hsub, -, hroom⟩ := schedule_served false now hok
  obtain ⟨pk, n, hn, rfl⟩ := htimer d hd
  refine lt_max_of_lt_right (not_le.1 fun hle => ?_)
  obtain ⟨it, hit, hdue⟩ := due_of_flushTimes hn hle
  rcases hwhen with hr | hcalm
  · have hnone := hroom hr pk
    rw [← Option.not_isSome_iff_eq_none, shouldDispatch_iff (ne_nil_of_mem hit)] at hnone
    exact hnone (.inr ⟨n, hn, hle⟩)
  · exact hcalm pk it ((hsub pk).subset hit) (honward.due hdue)

theorem no_busy_timer_window :
    (windowState.schedule (policyConfig windowPolicy) false 3).timer = some 10 ∧ (3 : Time) < 10 := by
  have htimer : (windowState.schedule (policyConfig windowPolicy) false 3).timer = some 10 := by decide
  refine ⟨htimer, no_busy_timer (.between windowState_reach) 3 (.inl ?_) htimer⟩
  unfold Coord.HasRoom
  decide

/-- A turn at some time in which no barrier's context is done. -/
def turnAt (now : Time) (e : Event ℕ ℕ ℕ) : Move ℕ ℕ ℕ := .turn ⟨e, now, fun _ => none⟩

/-- The first request is dispatched when its window ends; the second comes then, and its window ends while the only
provider slot is taken. -/
def saturatedRun : List (Move ℕ ℕ ℕ) :=
  [demoSubmit [1] 1 1 none, turnAt 10 (.timer 10), turnAt 10 (.submit 10 (demoReq [1] 2 2) none), turnAt 20 (.timer 20)]

def saturated : Coord ℕ ℕ ℕ := (coordinator (policyConfig windowPolicy)).run Coord.init saturatedRun

/-- **The loop spins while the provider is saturated.** The timer is armed for the very time of the call, and the turn
it causes arms it again, with the same batch in flight and the same request queued. -/
theorem busy_timer : (coordinator (policyConfig windowPolicy)).Reach saturatedRun saturated ∧
      (saturated.part [1]).pending = [2] ∧ saturated.inflight.keys = [1] ∧
      (saturated.schedule (policyConfig windowPolicy) false 20).timer = some 20 ∧
      (saturated.schedule (policyConfig windowPolicy) false 20).timerActive = true ∧
      Move.Legal (policyConfig windowPolicy) saturatedRun saturated (turnAt 20 (.timer 20)) ∧
      let next := saturated.move (policyConfig windowPolicy) (turnAt 20 (.timer 20))
      (next.part [1]).pending = [2] ∧ next.inflight.keys = [1] ∧ next.timer = some 20 ∧ next.timerActive = true :=
  ⟨System.reach_of_allowed (by decide), by decide, by decide, by decide,
    by decide, by decide, by decide, by decide, by decide, by decide⟩

/-! ## Queued work -/

/-- **Queued work moves on** under a policy with a time trigger in effect: at the end of a turn, as long as something is
queued, a provider batch is in flight or the timer is armed. -/
theorem queued_work_moves {L : Library} {engine engine' : EngineView} {spec : Operation.Spec} {b : Binding K}
    (hbind : b.bind L engine spec = .ok (cfg, engine')) (hmode : spec.schedulerPolicy.mode ≠ .manual)
    {es : List (Move K V E)} (hr : (coordinator cfg).Reach es c) {t : Turn K V E} (hl : Move.Legal cfg es c (.turn t))
    (hwhen : spec.schedulerPolicy.mode = .immediateWave ∨ 0 < c.effectiveMaxWait cfg) (pk : GoString)
    (hp : ((c.move cfg (.turn t)).part pk).pending ≠ []) : (c.move cfg (.turn t)).inflight ≠ ∅ ∨
      (c.move cfg (.turn t)).timer.isSome = true ∧ (c.move cfg (.turn t)).timerActive = true := by
  have hok := reach_ok hr
  have hok₁ := (hok.mono (.turn t)).acts (handle_acts hok hl.2 joinsOnly_true)
  have htrigger : TimeTriggered cfg (c.handle cfg t.event) := by
    obtain ⟨-, keys, hcfg⟩ := bind_config hbind
    have hflush : cfg.flushMode = normalizeFlushMode spec.schedulerPolicy.mode := by rw [hcfg]; rfl
    have hwait : (c.handle cfg t.event).effectiveMaxWait cfg = c.effectiveMaxWait cfg := by
      unfold Coord.effectiveMaxWait
      rw [handle_dyn hok]
    unfold TimeTriggered
    rw [hflush, hwait]
    rcases hwhen with hm | hw
    · rw [hm]
      exact .inl rfl
    cases hm : spec.schedulerPolicy.mode with
    | immediateWave => exact .inl rfl
    | manual => exact absurd hm hmode
    | deadlineAware => exact .inr ⟨.inr rfl, hw⟩
    | _ => exact .inr ⟨.inl rfl, hw⟩
  have hmove : c.move cfg (.turn t) = c.turn cfg t := rfl
  rw [hmove] at hp ⊢
  rcases turn_cases cfg c t with hturn | ⟨⟨-, hdrained⟩, hturn⟩
  · rw [hturn] at hp ⊢
    obtain ⟨hparts, hflight, htimer, hactive⟩ := finishTurn_view (c := c.handle cfg t.event) cfg t.now t.ctxErr
    rw [part_congr hparts] at hp
    rw [hflight, htimer, hactive]
    exact schedule_moves hok₁ htrigger t.now hp
  -- the loop has returned: nothing is queued
  rw [hturn] at hp
  obtain ⟨it, hit⟩ := exists_mem_of_ne_nil _ hp
  have hin : it ∈ ((c.handle cfg t.event).part pk).indexed :=
    hok₁.struct.queue_indexed (by rw [Held.queueOf_none rfl]; exact hit)
  rw [((drained_iff hok₁.struct).1 hdrained).2 pk] at hin
  cases hin

/-- The request in its window, and its timer. -/
theorem queued_work_moves_window :
    windowState.inflight ≠ ∅ ∨ windowState.timer.isSome = true ∧ windowState.timerActive = true := by
  have hl : Move.Legal (policyConfig windowPolicy) [] Coord.init (demoSubmit [1] 1 1 none) := by decide
  exact queued_work_moves (policyConfig_bind windowPolicy_valid (by decide)) (by decide)
    .init hl (.inr (by decide)) [1] (by decide)

/-- The state one request leads to, after some changes of settings. -/
def lonely (policy : Operation.SchedulerParams) (before : List (Move ℕ ℕ ℕ)) : Coord ℕ ℕ ℕ :=
  (coordinator (policyConfig policy)).run Coord.init (before ++ [demoSubmit [1] 1 1 none])

/-- The request waits forever if nothing else comes. -/
def Forgotten (policy : Operation.SchedulerParams) (before : List (Move ℕ ℕ ℕ)) : Prop := policy.validate = none ∧
    demoBinding.bind demoLibrary {} (policySpec policy) = .ok (policyConfig policy, { ops := [str "demo.read"] }) ∧
    (coordinator (policyConfig policy)).Reach (before ++ [demoSubmit [1] 1 1 none]) (lonely policy before) ∧
    ((lonely policy before).part [1]).pending = [1] ∧ (lonely policy before).inflight = ∅ ∧
    (lonely policy before).timer = none

/-- **Accepted policies under which a request waits forever**: every mode but the immediate and the adaptive one with no
wait, and the adaptive one after a negative wait was applied. -/
theorem zero_wait : Forgotten barePolicy [] ∧ Forgotten { barePolicy with mode := .throughput } [] ∧
      Forgotten { barePolicy with mode := .latency } [] ∧ Forgotten { barePolicy with mode := .deadlineAware } [] ∧
      Forgotten { windowPolicy with mode := .adaptive } [.adapt { maxWait := -1 }] := by
  have hbind : ∀ policy : Operation.SchedulerParams, (policySpec policy).validate demoLibrary = [] →
      policy.overflow = .block → demoBinding.bind demoLibrary {} (policySpec policy) =
        .ok (policyConfig policy, { ops := [str "demo.read"] }) := by
    intro policy hvalid hblock
    refine policyConfig_bind hvalid fun h => ?_
    rw [hblock] at h
    cases h
  unfold Forgotten lonely
  refine ⟨?_, ?_, ?_, ?_, ?_⟩ <;>
    exact ⟨by decide, hbind _ (by decide) rfl, System.reach_of_allowed (by decide),
      by decide, AList.ext (by decide), by decide⟩

end

end BatchWeaver
