import BatchWeaver.Proof.Queue

/-!
# When a queue is due

`shouldDispatch` tests whether a queue is due, `computeNextTimer` looks for the time at which one becomes due; each
goes through the flush modes by itself. Both are read off one list, the times at which a queue becomes due.

* `Coord.flushTimes`: those times; `Coord.Crowded`: the queue is due whatever the time.
* `shouldDispatch_iff`: a queue is due when it is crowded, or one of its times has come.
* `nextFlush_least`: the next flush is the least of the times of all queues.
* `Onward.shouldDispatch_none`: dispatching from other partitions makes no queue due.
-/

namespace BatchWeaver

open List Coord

variable {K V E : Type}

/-! ## The least of some times -/

/-- The least of a list, if there is one. -/
def Least (l : List Time) : Option Time → Prop
  | none => l = []
  | some d => d ∈ l ∧ ∀ x ∈ l, d ≤ x

variable {l : List Time} {best : Option Time}

lemma consider_least (h : Least l best) (t : Time) : Least (l ++ [t]) (consider best t) := by
  cases best with
  | none =>
    have hl : l = [] := h
    rw [hl]
    exact ⟨mem_singleton.2 rfl, fun x hx => (mem_singleton.1 hx).ge⟩
  | some b =>
    obtain ⟨hb, hle⟩ := h
    unfold consider
    dsimp only
    split
    · rename_i hlt
      refine ⟨mem_append_right _ (mem_singleton.2 rfl), fun x hx => ?_⟩
      rcases mem_append.1 hx with hx | hx
      · exact hlt.le.trans (hle x hx)
      · exact (mem_singleton.1 hx).ge
    rename_i hge
    refine ⟨mem_append_left _ hb, fun x hx => ?_⟩
    rcases mem_append.1 hx with hx | hx
    · exact hle x hx
    · rw [mem_singleton.1 hx]
      exact not_lt.1 hge

lemma foldl_consider_least (l : List Time) : Least l (l.foldl consider none) := by
  induction l using reverseRecOn with
  | nil => rfl
  | append_singleton l t ih =>
    rw [foldl_append]
    exact consider_least ih t

lemma Least.le (h : Least l best) {t} (ht : t ∈ l) : ∃ d, best = some d ∧ d ≤ t := by
  cases best with
  | none =>
    have hl : l = [] := h
    rw [hl] at ht
    cases ht
  | some d => exact ⟨d, rfl, h.2 t ht⟩

/-! ## Deadlines -/

namespace Coord

/-- The deadline of a waiter that still waits. -/
def activeDeadline (c : Coord K V E) (w : WaiterId) : Option Time :=
  (c.waiters w).bind fun x => if x.active && x.hasDeadline then some x.deadline else none

/-- The deadlines of the callers of an item that still wait. -/
def deadlines (c : Coord K V E) (it : ItemId) : List Time := (c.items it).waiters.filterMap c.activeDeadline

/-- A queue is due when it is crowded, whatever the time. -/
def Crowded (cfg : BindingConfig K) (c : Coord K V E) (p : PartitionState) : Prop :=
  c.effectiveMaxBatchSize cfg ≤ p.pending.length ∨ (0 < cfg.maxBatchWeight ∧ cfg.maxBatchWeight ≤ p.weight) ∨
    (0 < cfg.maxBatchBytes ∧ cfg.maxBatchBytes ≤ p.bytes) ∨ cfg.flushMode = .immediate

/-- The end of the wait of the first item, if the mode has one. -/
def windowEnd (cfg : BindingConfig K) (c : Coord K V E) (p : PartitionState) : List Time :=
  match p.pending with
  | [] => []
  | it :: _ =>
    if (cfg.flushMode = .fixedWindow ∨ cfg.flushMode = .deadlineAware) ∧ 0 < c.effectiveMaxWait cfg then
      [(c.items it).enqueue + c.effectiveMaxWait cfg]
    else []

/-- The times at which a queue becomes due. -/
def flushTimes (cfg : BindingConfig K) (c : Coord K V E) (p : PartitionState) : List Time := c.windowEnd cfg p ++
    if cfg.flushMode = .deadlineAware then (c.earliestDeadline p).toList.map (· - cfg.deadlineMargin) else []

end Coord

section

variable {cfg : BindingConfig K} {c c' : Coord K V E}

lemma itemEarliestDeadline_least (it : ItemId) : Least (c.deadlines it) (c.itemEarliestDeadline it) := by
  have hfold : c.itemEarliestDeadline it = (c.deadlines it).foldl consider none := by
    unfold Coord.itemEarliestDeadline Coord.deadlines
    rw [foldl_filterMap]
    congr 1
    funext best w
    unfold activeDeadline
    cases c.waiters w with
    | none => rfl
    | some x =>
      dsimp only [Option.bind_some]
      split
      · cases best <;> rfl
      · rfl
  rw [hfold]
  exact foldl_consider_least _

lemma earliestDeadline_least (p : PartitionState) :
    Least (p.pending.filterMap c.itemEarliestDeadline) (c.earliestDeadline p) := by
  have hfold : c.earliestDeadline p = (p.pending.filterMap c.itemEarliestDeadline).foldl consider none := by
    unfold Coord.earliestDeadline
    rw [foldl_filterMap]
    congr 1
    funext best it
    cases c.itemEarliestDeadline it with
    | none => rfl
    | some t => cases best <;> rfl
  rw [hfold]
  exact foldl_consider_least _

lemma waitElapsed_iff (hm : cfg.flushMode = .fixedWindow ∨ cfg.flushMode = .deadlineAware) (p : PartitionState)
    (t : Time) : c.waitElapsed p (c.effectiveMaxWait cfg) t = true ↔ ∃ d ∈ c.windowEnd cfg p, d ≤ t := by
  unfold waitElapsed Coord.windowEnd
  cases p.pending with
  | nil => simp
  | cons it rest =>
    dsimp only
    by_cases hw : 0 < c.effectiveMaxWait cfg
    · rw [if_pos ⟨hm, hw⟩]
      simp [hw]
    · rw [if_neg fun h => hw h.2]
      simp [hw]

variable {p : PartitionState} {d' : Time}

lemma flushTimes_nil (hp : p.pending = []) : c.flushTimes cfg p = [] := by
  unfold Coord.flushTimes Coord.windowEnd Coord.earliestDeadline
  rw [hp]
  simp

lemma flushTimes_window (h : cfg.flushMode ≠ .deadlineAware) (p : PartitionState) :
    c.flushTimes cfg p = c.windowEnd cfg p := by
  unfold Coord.flushTimes
  rw [if_neg h, append_nil]

lemma windowEnd_untimed (h : cfg.flushMode ≠ .fixedWindow) (h' : cfg.flushMode ≠ .deadlineAware)
    (p : PartitionState) : c.windowEnd cfg p = [] := by
  unfold Coord.windowEnd
  split
  · rfl
  · exact if_neg fun hm => hm.1.elim h h'

/-- **A queue is due when it is crowded, or one of its times has come.** -/
theorem shouldDispatch_iff (hp : p.pending ≠ []) (t : Time) :
    (c.shouldDispatch cfg p false t).isSome = true ↔ c.Crowded cfg p ∨ ∃ d ∈ c.flushTimes cfg p, d ≤ t := by
  have hlen : p.pending.length ≠ 0 := fun h => hp (eq_nil_of_length_eq_zero h)
  unfold Coord.shouldDispatch Crowded
  rw [if_neg hlen, if_neg Bool.false_ne_true]
  split
  · rename_i h
    exact iff_of_true rfl (.inl (.inl h))
  rename_i hsize
  split
  · rename_i h
    exact iff_of_true rfl (.inl (.inr (.inl h)))
  rename_i hweight
  split
  · rename_i h
    exact iff_of_true rfl (.inl (.inr (.inr (.inl h))))
  rename_i hbytes
  simp only [hsize, hweight, hbytes, false_or]
  cases hm : cfg.flushMode with
  | immediate => exact iff_of_true rfl (.inl rfl)
  | manual =>
    have hno : c.flushTimes cfg p = [] := by
      rw [flushTimes_window (by rw [hm]; decide), windowEnd_untimed (by rw [hm]; decide) (by rw [hm]; decide)]
    rw [hno]
    simp
  | fixedWindow =>
    rw [flushTimes_window (by rw [hm]; decide), ← waitElapsed_iff (.inl hm)]
    split <;> simp_all
  | deadlineAware =>
    have htimes : (∃ d ∈ c.flushTimes cfg p, d ≤ t) ↔ (∃ d ∈ c.windowEnd cfg p, d ≤ t) ∨
        ∃ d, c.earliestDeadline p = some d ∧ d - cfg.deadlineMargin ≤ t := by
      unfold Coord.flushTimes
      rw [if_pos hm]
      simp only [mem_append, mem_map, Option.mem_toList, or_and_right, exists_or, exists_exists_and_eq_and]
    rw [htimes, ← waitElapsed_iff (.inr hm)]
    dsimp only
    split
    · rename_i h
      exact iff_of_true rfl (.inr (.inl h))
    rename_i hwait
    cases c.earliestDeadline p with
    | none => simp [hwait]
    | some d =>
      split <;> simp_all

/-! ## The timer -/

/-- The next flush is found by going through the times of all queues. -/
lemma nextFlush_least : Least (c.partitions.entries.flatMap fun e => c.flushTimes cfg e.2) (c.nextFlush cfg) := by
  have hfold : c.nextFlush cfg = (c.partitions.entries.flatMap fun e => c.flushTimes cfg e.2).foldl consider none := by
    unfold nextFlush
    rw [foldl_flatMap]
    congr 1
    funext next e
    unfold Coord.flushTimes Coord.windowEnd
    cases hq : e.2.pending with
    | nil =>
      have hnone : c.earliestDeadline e.2 = none := by
        unfold Coord.earliestDeadline
        rw [hq]
        rfl
      rw [hnone]
      simp
    | cons it rest =>
      by_cases hw : 0 < c.effectiveMaxWait cfg
      · cases cfg.flushMode with
        | deadlineAware => cases c.earliestDeadline e.2 <;> simp [hw]
        | _ => simp [hw]
      cases cfg.flushMode with
      | deadlineAware => cases c.earliestDeadline e.2 <;> simp [hw]
      | _ => simp [hw]
  rw [hfold]
  exact foldl_consider_least _

/-! ## Dispatching from other partitions -/

section

variable (h : Onward c c')
include h

lemma Onward.deadlines (it : ItemId) : c'.deadlines it ⊆ c.deadlines it := by
  intro d hd
  obtain ⟨w, hw, hact⟩ := mem_filterMap.1 hd
  rw [h.crew] at hw
  refine mem_filterMap.2 ⟨w, hw, ?_⟩
  unfold activeDeadline at hact ⊢
  obtain ⟨x', hx', hd'⟩ := Option.bind_eq_some_iff.1 hact
  obtain ⟨x, hx, hdl, hhas, hactive⟩ := h.calm w x' hx'
  rw [hx, Option.bind_some]
  split at hd'
  · rename_i hx'
    have hboth := Bool.and_eq_true_iff.1 hx'
    rw [if_pos (Bool.and_eq_true_iff.2 ⟨hactive hboth.1, hhas ▸ hboth.2⟩), ← hdl]
    exact hd'
  · cases hd'

/-- The earliest deadline of an item only becomes later. -/
lemma Onward.itemEarliestDeadline {it} (hd' : c'.itemEarliestDeadline it = some d') :
    ∃ d, c.itemEarliestDeadline it = some d ∧ d ≤ d' := by
  have hleast := itemEarliestDeadline_least (c := c') it
  rw [hd'] at hleast
  exact (itemEarliestDeadline_least it).le (h.deadlines it hleast.1)

lemma Onward.earliestDeadline (hd' : c'.earliestDeadline p = some d') :
    ∃ d, c.earliestDeadline p = some d ∧ d ≤ d' := by
  have hleast := earliestDeadline_least (c := c') p
  rw [hd'] at hleast
  obtain ⟨it, hit, hitem⟩ := mem_filterMap.1 hleast.1
  obtain ⟨t, ht, hle⟩ := h.itemEarliestDeadline hitem
  obtain ⟨d, hd, hle'⟩ := (earliestDeadline_least p).le (mem_filterMap.2 ⟨it, hit, ht⟩)
  exact ⟨d, hd, hle'.trans hle⟩

lemma Onward.effectiveMaxWait : c'.effectiveMaxWait cfg = c.effectiveMaxWait cfg := by
  unfold Coord.effectiveMaxWait
  rw [h.dyn]

lemma Onward.windowEnd (p : PartitionState) : c'.windowEnd cfg p = c.windowEnd cfg p := by
  unfold Coord.windowEnd
  rw [h.effectiveMaxWait]
  simp only [h.enqueue]

lemma Onward.crowded : c'.Crowded cfg p ↔ c.Crowded cfg p := by
  unfold Crowded effectiveMaxBatchSize
  rw [h.dyn]

/-- A queue becomes due no earlier. -/
lemma Onward.flushTimes (hd' : d' ∈ c'.flushTimes cfg p) : ∃ d ∈ c.flushTimes cfg p, d ≤ d' := by
  unfold Coord.flushTimes at hd' ⊢
  rw [h.windowEnd] at hd'
  rcases mem_append.1 hd' with hd' | hd'
  · exact ⟨d', mem_append_left _ hd', le_rfl⟩
  split at hd'
  · rename_i hm
    obtain ⟨t', ht', rfl⟩ := mem_map.1 hd'
    obtain ⟨t, ht, hle⟩ := h.earliestDeadline (Option.mem_toList.1 ht')
    refine ⟨t - cfg.deadlineMargin, mem_append_right _ ?_, sub_le_sub_right hle _⟩
    rw [if_pos hm]
    exact mem_map_of_mem (Option.mem_toList.2 ht)
  · cases hd'

/-- **Dispatching from other partitions makes no queue due.** -/
theorem Onward.shouldDispatch_none {force : Bool} {now : Time} (hnone : c.shouldDispatch cfg p force now = none) :
    c'.shouldDispatch cfg p force now = none := by
  by_cases hp : p.pending = []
  · unfold Coord.shouldDispatch
    rw [hp]
    rfl
  cases force with
  | true =>
    unfold Coord.shouldDispatch at hnone
    rw [if_neg fun h => hp (eq_nil_of_length_eq_zero h)] at hnone
    cases hnone
  | false =>
    rw [← Option.not_isSome_iff_eq_none, shouldDispatch_iff hp] at hnone ⊢
    rintro (hc | ⟨d', hd', hle⟩)
    · exact hnone (.inl (h.crowded.1 hc))
    · obtain ⟨d, hd, hle'⟩ := h.flushTimes hd'
      exact hnone (.inr ⟨d, hd, hle'.trans hle⟩)

end

end

end BatchWeaver
