import BatchWeaver.Proof.Account

/-!
# Counting waiters

A partition counts the callers that wait for its items, the gauge `queuedWaiters` those of all
partitions. The gauge is exact (`reach_gauge`). The partition's count is not: `deliver` lowers
the gauge only, so the callers that were sent a result stay counted until the partition is empty
and retires; and a submission that joins an item is not checked against `MaxWaiters`.

* `CrowdStep`: what an action does to the counts; `Act.crowd`.
* `waiters_exact`: in every run in which no delivery leaves a count behind and no join exceeds
  the limit, the counts are exact and the limit holds.
* `waiters_drift`: two runs that break them.
-/

namespace BatchWeaver

open List Coord PartitionState

variable {K V E : Type} {cfg : BindingConfig K} {es : List (Move K V E)} {jn : JoinRule K V E} {g g' : Held K}
  {c c' : Coord K V E} {pk : GoString}

/-- The callers that wait for an item of the partition. -/
def Coord.crowd (c : Coord K V E) (pk : GoString) : ℕ := ((c.part pk).indexed.map c.waiting).sum

/-- What an action does to the number of callers that wait, to the partitions' counts and to the
gauge. -/
inductive CrowdStep (cfg : BindingConfig K) (jn : Coord K V E → SubmitReq K → ItemId → Prop)
    (c c' : Coord K V E) : Prop
  /-- all three change alike, in one partition; they grow by an admission only -/
  | shift (k : GoString) (d : ℤ) : (d ≤ 0 ∨ d = 1 ∧ ∃ req : SubmitReq K, req.part.encoded = k ∧ ((∃ it, jn c req it) ∨
        overLimits cfg (c.part k) req = none)) →
      (∀ pk, (c'.part pk).waiters = (c.part pk).waiters + if pk = k then d else 0) →
      (∀ pk, (c'.crowd pk : ℤ) = c.crowd pk + if pk = k then d else 0) →
      c'.queuedWaiters = c.queuedWaiters + d → CrowdStep cfg jn c c'
  /-- callers of one partition are sent a result -/
  | leave (k : GoString) (n : ℕ) : (∀ pk, (c'.part pk).waiters = (c.part pk).waiters) →
      (∀ pk, (c'.crowd pk : ℤ) = c.crowd pk - if pk = k then (n : ℤ) else 0) →
      c'.queuedWaiters = c.queuedWaiters - n →
      ((∀ w, c'.results w = c.results w) → n = 0) → CrowdStep cfg jn c c'
  /-- a partition without items appears or disappears -/
  | reset (k : GoString) : c.crowd k = 0 → (∀ pk, (c'.part pk).waiters = if pk = k then 0 else (c.part pk).waiters) →
      (∀ pk, c'.crowd pk = c.crowd pk) → c'.queuedWaiters = c.queuedWaiters → CrowdStep cfg jn c c'

variable {d : ℤ} {r : Result V E}

section Counting

variable {pk : GoString}

lemma crowd_congr (hidx : ((c'.part pk).indexed).Perm (c.part pk).indexed)
    (hw : ∀ it ∈ (c.part pk).indexed, c'.waiting it = c.waiting it) : c'.crowd pk = c.crowd pk := by
  unfold Coord.crowd
  rw [(hidx.map c'.waiting).sum_eq, map_congr_left hw]

/-- The callers of one item of the index, and the others. -/
lemma crowd_split {it l} (hidx : ((c.part pk).indexed).Perm (it :: l)) :
    c.crowd pk = c.waiting it + (l.map c.waiting).sum := by
  unfold Coord.crowd
  rw [(hidx.map c.waiting).sum_eq, map_cons, sum_cons]

/-- One item of the index gains or loses a caller. -/
lemma crowd_change {it} (hnd : (c.part pk).indexed.Nodup) (hit : it ∈ (c.part pk).indexed)
    (hidx : (c'.part pk).indexed = (c.part pk).indexed)
    (hw : ∀ x ∈ (c.part pk).indexed, x ≠ it → c'.waiting x = c.waiting x)
    (hd : (c'.waiting it : ℤ) = c.waiting it + d) : (c'.crowd pk : ℤ) = c.crowd pk + d := by
  have hp := perm_cons_erase hit
  have hp' : ((c'.part pk).indexed).Perm (it :: (c.part pk).indexed.erase it) := by rw [hidx]; exact hp
  have hrest : ((c.part pk).indexed.erase it).map c'.waiting = ((c.part pk).indexed.erase it).map c.waiting := by
    refine map_congr_left fun x hx => hw x (mem_of_mem_erase hx) ?_
    rintro rfl
    exact hnd.not_mem_erase hx
  rw [crowd_split hp, crowd_split hp', hrest]
  push_cast
  omega

lemma CrowdStep.steady (hidx : ∀ pk, (c'.part pk).indexed = (c.part pk).indexed)
    (hp : ∀ pk, (c'.part pk).waiters = (c.part pk).waiters)
    (hw : ∀ pk, ∀ it ∈ (c.part pk).indexed, c'.waiting it = c.waiting it)
    (hq : c'.queuedWaiters = c.queuedWaiters) : CrowdStep cfg jn c c' := by
  refine .shift [] 0 (.inl le_rfl) (fun pk => ?_) (fun pk => ?_) ?_
  · rw [hp]; simp
  · rw [crowd_congr (by rw [hidx]) (hw pk)]; simp
  · rw [hq]; simp

/-- Nothing that the counts read changes. -/
lemma CrowdStep.same (hp : c'.partitions = c.partitions) (hi : c'.items = c.items)
    (hw : c'.waiters = c.waiters) (hq : c'.queuedWaiters = c.queuedWaiters) : CrowdStep cfg jn c c' := by
  have hpart := part_congr hp
  refine .steady (fun pk => by rw [hpart]) (fun pk => by rw [hpart]) (fun _ it _ => ?_) hq
  refine waiting_congr (by rw [hi]) fun w _ => ?_
  rw [active_congr hw]

/-- If no result was sent, the item had no active waiter. -/
lemma no_active_of_results {ws : List WaiterId} (ho : c'.out = c.out ++ (ws.filter c.active).map (Effect.result · r))
    (hres : ∀ w, c'.results w = c.results w) : ws.filter c.active = [] := by
  by_contra hne
  obtain ⟨w, hw⟩ := exists_mem_of_ne_nil _ hne
  have hsame := hres w
  rw [results_append ho w] at hsame
  have hnil := append_right_eq_self.1 hsame
  have := filterMap_eq_nil_iff.1 hnil _ (mem_map.2 ⟨w, hw, rfl⟩)
  simp [Effect.resultFor] at this

end Counting

section Steps

variable {it : ItemId}

/-- Silencing the waiters of one item leaves the other items' waiters as they are. -/
lemma waiting_quiet (hW : WaiterOK es g c) (hi : c'.items = c.items)
    (hw : c'.waiters = c.quiet (c.items it).waiters) (x : ItemId) :
    c'.waiting x = if x = it then 0 else c.waiting x := by
  have hact := active_quiet hw
  split
  · rename_i he
    subst he
    rw [waiting_eq_zero, hi]
    intro w hwx
    rw [hact, if_pos hwx]
  rename_i he
  refine waiting_congr (by rw [hi]) fun w hwx => ?_
  rw [hact, if_neg]
  intro hwi
  exact he (hW.own x it w hwx hwi)

lemma length_filter_active (it : ItemId) : ((c.items it).waiters.filter c.active).length = c.waiting it :=
  countP_eq_length_filter.symm

section

variable (hok : CoordOK cfg es g c)
include hok

/-- The callers of an item are answered; it may leave the index. -/
lemma CrowdStep.answer (hin : it ∈ (c.part pk).indexed) (hi : c'.items = c.items)
    (hw : c'.waiters = c.quiet (c.items it).waiters) (hp : ∀ k, (c'.part k).waiters = (c.part k).waiters)
    (hout : c'.out = c.out ++ ((c.items it).waiters.filter c.active).map (Effect.result · r))
    (hq : c'.queuedWaiters = c.queuedWaiters - ((c.items it).waiters.filter c.active).length)
    (hother : ∀ k, k ≠ pk → (c'.part k).indexed = (c.part k).indexed)
    (hidx : (c'.part pk).indexed = (c.part pk).indexed ∨ (c.part pk).indexed.Perm (it :: (c'.part pk).indexed)) :
    CrowdStep cfg jn c c' := by
  have hwait := waiting_quiet hok.waiter hi hw
  have hrest : ∀ x, x ≠ it → c'.waiting x = c.waiting x := fun x hx => by rw [hwait, if_neg hx]
  refine .leave pk (c.waiting it) hp (fun k => ?_) (by rw [hq, length_filter_active]) (fun hres => ?_)
  · by_cases hk : k = pk
    · subst hk
      rw [if_pos rfl]
      rcases hidx with hidx | hidx
      · have hself : (c'.waiting it : ℤ) = c.waiting it + -(c.waiting it : ℤ) := by rw [hwait, if_pos rfl]; simp
        rw [crowd_change (hok.struct.nodup k) hin hidx (fun x _ => hrest x) hself]
        ring
      have hni : it ∉ (c'.part k).indexed := (nodup_cons.1 (hidx.nodup_iff.1 (hok.struct.nodup k))).1
      rw [crowd_split hidx]
      unfold Coord.crowd
      rw [map_congr_left fun x hx => hrest x fun he => hni (he ▸ hx)]
      push_cast
      omega
    rw [if_neg hk, crowd_congr (by rw [hother k hk]) fun x hx =>
      hrest x fun he => hk (hok.struct.home k pk x hx (he ▸ hin))]
    simp
  · rw [← length_filter_active, no_active_of_results hout hres]
    rfl

/-- An item is settled: its callers are answered and it leaves the index. -/
lemma CrowdStep.resolve (hin : it ∈ (c.part pk).indexed) (r : Result V E) :
    CrowdStep cfg jn c ((c.deliverAll it r).dropItem pk it) := by
  obtain ⟨c', hc'⟩ : ∃ c', c' = (c.deliverAll it r).dropItem pk it := ⟨_, rfl⟩
  rw [← hc']
  rw [resolve_eq hok.nodup] at hc'
  have hpart := part_insert (congrArg Coord.partitions hc')
  refine .answer hok hin (by rw [hc']) (by rw [hc']) (fun k => ?_) (by rw [hc']) (by rw [hc'])
    (fun k hk => by rw [hpart, if_neg hk]) (.inr ?_)
  · rw [hpart]
    split
    · rename_i he; rw [he]
    · rfl
  · rw [hpart, if_pos rfl]
    exact gather_unindex (hok.struct.mem_bucket hin)

/-- A waiter is canceled; its item may leave the index with it. -/
lemma CrowdStep.cancel {w p} (hc : Cancels es c pk it w)
    (hi : ∀ x, (c'.items x).face = (c.items x).face) (hw : c'.waiters = (c.deactivate w).waiters)
    (hins : c'.partitions = c.partitions.insert pk p) (hp : p.waiters = (c.part pk).waiters - 1)
    (hidx : p.active = (c.part pk).active ∨ (c.items it).activeWaiters = 1 ∧ p.active = unindex (c.part pk).active (c.items it).hash it)
    (hq : c'.queuedWaiters = c.queuedWaiters - 1) : CrowdStep cfg jn c c' := by
  have hpart := part_insert hins
  have hi : ∀ x, (c'.items x).waiters = (c.items x).waiters := fun x => congrArg Prod.fst (hi x)
  have hact : ∀ v, c'.active v = if v = w then false else c.active v := by
    intro v
    rw [active_congr hw]
    exact active_deactivate c w v
  have hself : c.waiting it = c'.waiting it + 1 :=
    waiting_deactivate (hi it) hact (hok.nodup it) hc.waiter hc.active
  have hother : ∀ x, x ≠ it → c'.waiting x = c.waiting x := by
    intro x hx
    refine waiting_congr (hi x) fun v hv => ?_
    rw [hact, if_neg]
    rintro rfl
    exact hx (hok.waiter.own x it v hv hc.waiter)
  refine .shift pk (-1) (.inl (by decide)) (fun k => ?_) (fun k => ?_) (by rw [hq]; ring)
  · rw [hpart]
    split
    · rename_i he; rw [he, hp]; ring
    · simp
  by_cases hk : k = pk
  · subst hk
    rw [if_pos rfl]
    rcases hidx with hidx | ⟨hone, hidx⟩
    · have hsame : (c'.part k).indexed = (c.part k).indexed := by
        rw [hpart, if_pos rfl]
        unfold indexed
        rw [hidx]
      exact crowd_change (hok.struct.nodup k) hc.indexed hsame (fun x _ hx => hother x hx)
        (by rw [hself]; push_cast; ring)
    -- the last waiter leaves, and the item with it
    have hpk : (c.part k).indexed.Perm (it :: (c'.part k).indexed) := by
      rw [hpart, if_pos rfl]
      unfold indexed
      rw [hidx]
      exact gather_unindex (hok.struct.mem_bucket hc.indexed)
    have hcount := hok.waiter.count it
    have hni : it ∉ (c'.part k).indexed := (nodup_cons.1 (hpk.nodup_iff.1 (hok.struct.nodup k))).1
    have hrest : ((c'.part k).indexed.map c'.waiting).sum = ((c'.part k).indexed.map c.waiting).sum := by
      rw [map_congr_left fun x hx => hother x (fun he => hni (he ▸ hx))]
    rw [crowd_split hpk]
    unfold Coord.crowd
    rw [hrest]
    push_cast
    omega
  rw [if_neg hk, crowd_congr (by rw [hpart, if_neg hk]) fun x hx =>
    hother x (fun he => hk (hok.struct.home k pk x hx (he ▸ hc.indexed)))]
  simp

variable {req : SubmitReq K} {rest : List (SubmitReq K)}

lemma CrowdStep.join (hg : g.reqs = req :: rest)
    (hin : it ∈ (c.part req.part.encoded).indexed) (hjn : jn c req it) : CrowdStep cfg jn c (c.join req it) := by
  have hheld := hok.waiter.held req (by rw [hg]; simp)
  have hself : (c.join req it).waiting it = c.waiting it + 1 := by
    unfold Coord.waiting
    rw [items_join_self]
    show ((c.items it).waiters ++ [req.waiter]).countP c.active = _
    rw [countP_append, countP_singleton, if_pos hheld.2.1]
  have hother : ∀ x, x ≠ it → (c.join req it).waiting x = c.waiting x := by
    intro x hx
    refine waiting_congr ?_ fun _ _ => rfl
    rw [items_join_ne hx]
  have hpart : ∀ k, (c.join req it).part k = if k = req.part.encoded then
      { c.part req.part.encoded with waiters := (c.part req.part.encoded).waiters + 1 } else c.part k :=
    part_insert rfl
  refine .shift req.part.encoded 1 (.inr ⟨rfl, req, rfl, .inl ⟨it, hjn⟩⟩) (fun k => ?_) (fun k => ?_) rfl
  · rw [hpart]
    split
    · rename_i he; rw [he]
    · simp
  by_cases hk : k = req.part.encoded
  · subst hk
    rw [if_pos rfl]
    exact crowd_change (hok.struct.nodup _) hin (indexed_join req it _) (fun x _ hx => hother x hx)
      (by rw [hself]; push_cast; ring)
  rw [if_neg hk, crowd_congr (by rw [indexed_join]) fun x hx =>
    hother x (fun he => hk (hok.struct.home k _ x hx (he ▸ hin)))]
  simp

lemma CrowdStep.enqueue (now : Time) (hg : g.reqs = req :: rest)
    (hover : overLimits cfg (c.part req.part.encoded) req = none) : CrowdStep cfg jn c (c.enqueue now req) := by
  have hheld := hok.waiter.held req (by rw [hg]; simp)
  have hself : (c.enqueue now req).waiting (c.requestSeq + 1) = 1 := by
    unfold Coord.waiting
    rw [items_enqueue_self]
    show [req.waiter].countP c.active = _
    rw [countP_singleton, if_pos hheld.2.1]
  have hother : ∀ k, ∀ x ∈ (c.part k).indexed, (c.enqueue now req).waiting x = c.waiting x := by
    intro k x hx
    refine waiting_congr ?_ fun _ _ => rfl
    rw [items_enqueue_ne (hok.struct.fresh_item hx)]
  refine .shift req.part.encoded 1 (.inr ⟨rfl, req, rfl, .inr hover⟩) (fun k => ?_) (fun k => ?_) rfl
  · rw [part_enqueue]
    split
    · rfl
    · simp
  by_cases hk : k = req.part.encoded
  · subst hk
    rw [if_pos rfl, crowd_split (indexed_enqueue_perm c now req), hself, map_congr_left (hother req.part.encoded)]
    unfold Coord.crowd
    push_cast
    ring
  · rw [if_neg hk, crowd_congr (by rw [part_enqueue, if_neg hk]) (hother k)]
    simp

variable [Inhabited V]

lemma SchedAct.crowd (ha : SchedAct cfg g c g' c') : CrowdStep cfg jn c c' := by
  have hins : ∀ {c₁ : Coord K V E} {pk : GoString} {p : PartitionState},
      c₁.partitions = c.partitions.insert pk p → p.active = (c.part pk).active →
      p.waiters = (c.part pk).waiters → (∀ it, (c₁.items it).waiters = (c.items it).waiters) →
      c₁.waiters = c.waiters → c₁.queuedWaiters = c.queuedWaiters → CrowdStep cfg jn c c₁ := by
    intro c₁ pk p hc ha hp hi hw hq
    have hpart := part_insert hc
    refine .steady (fun k => ?_) (fun k => ?_) (fun _ it _ => ?_) hq
    · rw [hpart]
      split
      · rename_i he
        unfold indexed
        rw [ha, he]
      · rfl
    · rw [hpart]
      split
      · rename_i he; rw [hp, he]
      · rfl
    · exact waiting_congr (hi it) fun w _ => by rw [active_congr hw]
  cases ha with
  | quiet hq => exact .same hq.partitions hq.items hq.waiters hq.queuedWaiters
  | hold pk hg => exact .same rfl rfl rfl rfl
  | release pk l l' hg hp hl => exact hins rfl rfl rfl (fun _ => rfl) rfl rfl
  | tooLarge pk l l' it hg hl _ =>
    exact .resolve hok (hok.struct.held_indexed hg (hl.mem_iff.2 (mem_cons_self ..))) _
  | dispatch pk l reason a hg hs hne hl hslot =>
    rw [dispatch_eq]
    refine hins rfl rfl rfl (fun it => ?_) rfl rfl
    dsimp only
    split <;> rfl
  | retire pk hg hlive hact =>
    have hempty := hok.struct.indexed_nil hlive
    refine .reset pk (by unfold Coord.crowd; rw [hempty]; rfl) (fun k => ?_) (fun k => ?_) rfl
    · rw [hok.struct.part_retire]
      split <;> rfl
    refine crowd_congr ?_ fun _ _ => rfl
    rw [hok.struct.part_retire]
    split
    · rename_i he; rw [he, hempty]; rfl
    · rfl

/-- **What an action does to the counts.** -/
theorem Act.crowd (ha : Act cfg es jn g c g' c') : CrowdStep cfg jn c c' := by
  cases ha with
  | sched hs => exact hs.crowd hok
  | spawn req dl hn _ _ =>
    -- the new waiter is in no item
    refine .steady (fun _ => rfl) (fun _ => rfl) (fun _ it _ => ?_) rfl
    refine waiting_congr rfl fun w hw => ?_
    have hne : w ≠ req.waiter := by
      rintro rfl
      have := hok.waiter.born it _ hw
      rw [hn] at this
      cases this
    unfold Coord.active Coord.spawn
    dsimp only
    rw [Function.update_of_ne hne]
  | openPart part hn =>
    have hp : c.part part.encoded = PartitionState.new part := part_of_none c hn
    refine .reset part.encoded ?_ (fun k => ?_) (fun k => ?_) rfl
    · unfold Coord.crowd
      rw [hp]
      rfl
    · rw [part_setPart]
      split <;> rfl
    refine crowd_congr ?_ fun _ _ => rfl
    rw [part_setPart]
    split
    · rename_i he; rw [he, hp]
    · rfl
  | join req rest it hg _ hj hjn =>
    exact .join hok hg (mem_indexed.2 ⟨_, (joinTarget_some hj).1⟩) hjn
  | enqueue now req rest hg _ _ _ hover => exact .enqueue hok now hg hover
  | cancelKeep pk it w hc _ =>
    exact .cancel hok hc (view_update _ (by rfl)) rfl rfl rfl (.inl rfl) rfl
  | cancelDrop pk it w hg hc hone hd =>
    rw [cancelDrop_eq]
    exact .cancel hok hc (view_update _ (by rfl)) rfl rfl rfl (.inr ⟨hone, rfl⟩) rfl
  | cancelFlight pk it w b hc _ _ hb =>
    rw [cancelFlight_eq hb]
    exact .cancel hok hc (view_update _ (by rfl)) rfl rfl rfl (.inl rfl) rfl
  | resolve pk l l' it r hg hl _ =>
    exact .resolve hok (hok.struct.held_indexed hg (hl.mem_iff.2 (mem_cons_self ..))) r
  | shut pk it _ hin =>
    rw [deliverAll_eq hok.nodup]
    exact .answer hok hin rfl rfl (fun _ => rfl) rfl rfl (fun _ _ => rfl) (.inl rfl)
  | cancelCtx bid _ =>
    obtain ⟨_, _, hb⟩ := c.cancelBatch_eq bid
    rw [hb]
    exact .same rfl rfl rfl rfl
  | _ => exact .same rfl rfl rfl rfl

end

end Steps

/-! ## What follows for the counts -/

/-- Every partition counts exactly the callers that wait for its items. -/
def CountsExact (c : Coord K V E) : Prop := ∀ pk, (c.part pk).waiters = c.crowd pk

/-- The gauge is the number of callers that wait, over any set of partitions that has them all. -/
def GaugeOK (c : Coord K V E) : Prop := ∀ S : Finset GoString, (∀ pk, c.crowd pk ≠ 0 → pk ∈ S) →
    c.queuedWaiters = ∑ pk ∈ S, (c.crowd pk : ℤ)

/-- No partition counts more callers than allowed. -/
def CountsBounded (cfg : BindingConfig K) (c : Coord K V E) : Prop :=
  0 < cfg.limits.maxWaiters → ∀ pk, (c.part pk).waiters ≤ cfg.limits.maxWaiters

/-- A submission that joins an item finds the partition below the limit. -/
def HasRoom (cfg : BindingConfig K) (c : Coord K V E) (req : SubmitReq K) (_ : ItemId) : Prop :=
  0 < cfg.limits.maxWaiters → (c.part req.part.encoded).waiters < cfg.limits.maxWaiters

section Consequences

section

variable (h : CrowdStep cfg jn c c')
include h

/-- A step that sends no result keeps exact counts exact. -/
lemma CrowdStep.exact (hres : ∀ w, c'.results w = c.results w) (hE : CountsExact c) : CountsExact c' := by
  intro pk
  have hpk := hE pk
  cases h with
  | shift k d _ hw hc _ => rw [hw, hc, hpk]
  | leave k n hw hc _ hn =>
    have hc := hc pk
    rw [hn hres] at hc
    rw [hw, hpk, hc]
    simp
  | reset k hk hw hc _ =>
    rw [hw, hc]
    split
    · rename_i he; rw [he, hk]; rfl
    · exact hpk

/-- Delivering a result only leaves a count too high. -/
lemma CrowdStep.le (hE : ∀ pk, (c.crowd pk : ℤ) ≤ (c.part pk).waiters) (pk : GoString) :
    (c'.crowd pk : ℤ) ≤ (c'.part pk).waiters := by
  have hpk := hE pk
  cases h with
  | shift k d _ hw hc _ => rw [hw, hc]; omega
  | leave k n hw hc _ _ =>
    rw [hw, hc]
    split <;> omega
  | reset k hk hw hc _ =>
    rw [hw, hc]
    split
    · rename_i he; rw [he, hk]; rfl
    · exact hpk

omit h in
lemma gauge_shift {k} (hc : ∀ pk, (c'.crowd pk : ℤ) = c.crowd pk + if pk = k then d else 0)
    (hq : c'.queuedWaiters = c.queuedWaiters + d) (hG : GaugeOK c) : GaugeOK c' := by
  intro S hS
  -- the sum over one more partition covers both states
  have hT : ∀ pk, c.crowd pk ≠ 0 → pk ∈ insert k S := by
    intro pk hne
    by_cases hk : pk = k
    · rw [hk]; exact Finset.mem_insert_self k S
    have := hc pk
    rw [if_neg hk, add_zero] at this
    exact Finset.mem_insert_of_mem (hS pk (by omega))
  have hsub : ∑ pk ∈ S, (c'.crowd pk : ℤ) = ∑ pk ∈ insert k S, (c'.crowd pk : ℤ) := by
    refine Finset.sum_subset (Finset.subset_insert k S) fun pk _ hpk => ?_
    by_contra hne
    exact hpk (hS pk (by simpa using hne))
  rw [hsub, hq, hG _ hT, Finset.sum_congr rfl fun pk _ => hc pk, Finset.sum_add_distrib,
    Finset.sum_ite_eq', if_pos (Finset.mem_insert_self k S)]

lemma CrowdStep.gauge (hG : GaugeOK c) : GaugeOK c' := by
  cases h with
  | shift k d _ _ hc hq => exact gauge_shift hc hq hG
  | leave k n _ hc hq _ =>
    refine gauge_shift (k := k) (d := -(n : ℤ)) (fun pk => ?_) (by rw [hq]; ring) hG
    rw [hc]
    split <;> ring
  | reset k _ _ hc hq =>
    exact gauge_shift (k := k) (d := 0) (fun pk => by rw [hc]; simp) (by rw [hq]; ring) hG

end

lemma CrowdStep.bounded (h : CrowdStep cfg (HasRoom cfg) c c') (hB : CountsBounded cfg c) : CountsBounded cfg c' := by
  intro hpos pk
  have hpk := hB hpos pk
  cases h with
  | shift k d hd hw _ _ =>
    rw [hw]
    split
    · rename_i he
      subst he
      rcases hd with hd | ⟨rfl, req, rfl, ⟨it, hroom⟩ | hover⟩
      · omega
      · have := hroom hpos; omega
      unfold overLimits at hover
      dsimp only at hover
      split_ifs at hover with h1 h2 h3 h4
      omega
    · omega
  | leave k n hw _ _ _ => rw [hw]; exact hpk
  | reset k _ hw _ _ =>
    rw [hw]
    split
    · omega
    · exact hpk

end Consequences

section Acts

lemma results_prefix (h : c.out <+: c'.out) (w : WaiterId) : c.results w <+: c'.results w := by
  obtain ⟨effs, he⟩ := h
  rw [results_append he.symm]
  exact prefix_append _ _

section

variable [Inhabited V]

/-- **Actions that together send no result keep exact counts exact.** -/
theorem Acts.exact (hok : CoordOK cfg es g c) (ha : Acts cfg es jn g c g' c')
    (hres : ∀ w, c'.results w = c.results w) (hE : CountsExact c) : CountsExact c' := by
  refine (ha.keeps (I := fun g₁ c₁ => CoordOK cfg es g₁ c₁ ∧ c.out <+: c₁.out ∧
    ((∀ w, c₁.results w = c.results w) → CountsExact c₁)) ?_
    ⟨hok, prefix_refl _, fun _ => hE⟩).2.2 hres
  rintro g₁ c₁ g₂ c₂ hact ⟨hok₁, hout, hI⟩
  have hstep := hact.out_prefix hok₁.nodup
  refine ⟨hok₁.act hact, hout.trans hstep, fun hres₂ => ?_⟩
  -- results only grow, so none was sent on the way
  have hres₁ : ∀ w, c₁.results w = c.results w := by
    intro w
    have h1 := results_prefix hout w
    have h2 := results_prefix hstep w
    rw [hres₂ w] at h2
    exact (h1.eq_of_length_le h2.length_le).symm
  exact (hact.crowd hok₁).exact (fun w => by rw [hres₂, hres₁]) (hI hres₁)

end

lemma CountsExact.congr (h : CountsExact c) (hp : c'.partitions = c.partitions)
    (hi : c'.items = c.items) (hw : c'.waiters = c.waiters) : CountsExact c' := by
  intro pk
  have hpart := part_congr hp
  rw [hpart, h pk, crowd_congr (by rw [hpart]) fun it _ => ?_]
  exact waiting_congr (by rw [hi]) fun w _ => by rw [active_congr hw]

/-! ## The handlers that send no result -/

lemma handleSubmit_results (now : Time) (req : SubmitReq K) (w : WaiterId) :
    (c.handleSubmit cfg now req).results w = c.results w := by
  have hreply : ∀ c₁ c₂ : Coord K V E, ∀ err : Option (GoError E), c₁.results w = c.results w →
      c₂.out = c₁.out ++ [.reply req.waiter err] → c₂.results w = c.results w := by
    intro c₁ c₂ err h hout
    rw [results_append hout, ← h]
    exact append_nil _
  exact handleSubmit_rule (P := fun c₁ => c₁.results w = c.results w) (Q := fun c₁ => c₁.results w = c.results w) now
    rfl (fun _ _ _ => rfl) (fun c₁ err h _ => hreply c₁ _ _ h rfl) (fun _ h _ => h)
    (fun _ _ _ _ => hreply c _ _ rfl rfl) (fun c₁ h _ _ _ _ => hreply c₁ _ _ h rfl)

lemma retry_results (now : WaiterId → Time) (w : WaiterId) : ∀ (reqs : List (SubmitReq K))
    (c : Coord K V E), (reqs.foldl (fun c req => c.handleSubmit cfg (now req.waiter) req) c).results w =
      c.results w ∧ ∀ x ∈ retryCalls cfg now reqs c, x.1.results w = c.results w := by
  intro reqs
  induction reqs with
  | nil => intro c; exact ⟨rfl, fun _ h => by cases h⟩
  | cons req rest ih =>
    intro c
    obtain ⟨h1, h2⟩ := ih (c.handleSubmit cfg (now req.waiter) req)
    have hone : (c.handleSubmit cfg (now req.waiter) req).results w = c.results w :=
      handleSubmit_results (now req.waiter) req w
    refine ⟨by rw [foldl_cons, h1, hone], fun x hx => ?_⟩
    rcases mem_cons.1 hx with rfl | hx
    · rfl
    · rw [h2 x hx, hone]

section

variable [Inhabited V]

/-- `schedule` sends a result only for a too large item. -/
lemma SchedAct.results (hfit : NoneTooLarge cfg c) (hS : StructOK cfg g c)
    (ha : SchedAct cfg g c g' c') (w : WaiterId) : c'.results w = c.results w := by
  cases ha with
  | quiet hq => unfold Coord.results; rw [hq.out]
  | tooLarge pk l l' it hg hl hit hbig =>
    have hin := hS.held_indexed hg (hl.mem_iff.2 (mem_cons_self ..))
    rw [hfit pk it hin] at hbig
    cases hbig
  | dispatch pk l reason a hg hs hne hl hslot hch =>
    rw [dispatch_eq, results_append rfl]
    exact append_nil _
  | _ => rfl

section

variable (hs : ∀ req ∈ submitted es, ¬req.tooLarge cfg)
include hs

lemma SchedActs.exact (hok : CoordOK cfg es g c) (hL : LoadOK es c) (ha : SchedActs cfg g c g' c')
    (hE : CountsExact c) : CountsExact c' := by
  refine (ha.keeps (I := fun g c => CoordOK cfg es g c ∧ LoadOK es c ∧ CountsExact c) ?_ ⟨hok, hL, hE⟩).2.2
  rintro g c g' c' hact ⟨hok, hL, hE⟩
  have hact' : Act cfg es anyJoin g c g' c' := Act.sched hact
  refine ⟨hok.sched hact, hL.act hok hact', ?_⟩
  exact (hact'.crowd hok).exact (hact.results (hL.noneTooLarge hs) hok.struct) hE

lemma finishTurn_exact (hok : CoordOK cfg es {} c) (hL : LoadOK es c) (now : Time)
    (ctxErr : CtxErrs E) (hE : CountsExact c) : CountsExact (c.finishTurn cfg now ctxErr) := by
  obtain ⟨bs, out, d, h⟩ := finishTurn_eq cfg c now ctxErr
  rw [h]
  exact ((schedule_acts hok rfl false now).exact hs hok hL hE).congr rfl rfl rfl

end

end

/-! ## Completions -/

/-- Nobody waits for the item: nothing is sent. -/
lemma deliverAll_idle {it} (h : c.waiting it = 0) (r : Result V E) : c.deliverAll it r = c := by
  have key : ∀ ws : List WaiterId, (∀ w ∈ ws, c.active w = false) → ws.foldl (fun c w => c.deliver w r) c = c := by
    intro ws
    induction ws with
    | nil => intro _; rfl
    | cons w ws ih =>
      intro hws
      have hone : c.deliver w r = c := by
        unfold deliver
        rw [hws w (mem_cons_self ..)]
        rfl
      rw [foldl_cons, hone]
      exact ih fun v hv => hws v (mem_cons_of_mem _ hv)
  exact key _ (waiting_eq_zero.1 h)

/-- Settling items nobody waits for sends nothing. -/
lemma settleIdle_out (f : ItemId → Result V E) (pk : GoString) : ∀ (its : List ItemId)
    (c : Coord K V E), (∀ it ∈ its, c.waiting it = 0) →
      (its.foldl (fun c it => (c.deliverAll it (f it)).dropItem pk it) c).out = c.out := by
  intro its
  induction its with
  | nil => intro c _; rfl
  | cons it its ih =>
    intro c h
    rw [foldl_cons, deliverAll_idle (h it (mem_cons_self ..))]
    exact ih (c.dropItem pk it) fun x hx => h x (mem_cons_of_mem _ hx)

/-- What settling the items of a batch leaves as it is. -/
structure SettleFrame (pk : GoString) (its : List ItemId) (c c' : Coord K V E) : Prop where
  items : c'.items = c.items
  inflight : c'.inflight = c.inflight
  part : ∀ k, k ≠ pk → c'.part k = c.part k
  mem : ∀ k, k ≠ pk → k ∈ c'.partitions → k ∈ c.partitions
  pending : (c'.part pk).pending = (c.part pk).pending
  active : ∀ w, (∀ it ∈ its, w ∉ (c.items it).waiters) → c'.active w = c.active w

lemma settleFrame (f : ItemId → Result V E) (pk : GoString) : ∀ (its : List ItemId)
    (c : Coord K V E), (∀ it, (c.items it).waiters.Nodup) →
      SettleFrame pk its c (its.foldl (fun c it => (c.deliverAll it (f it)).dropItem pk it) c) := by
  intro its
  induction its with
  | nil => intro c _; exact ⟨rfl, rfl, fun _ _ => rfl, fun _ _ h => h, rfl, fun _ _ => rfl⟩
  | cons it its ih =>
    intro c hnd
    rw [foldl_cons]
    obtain ⟨c₁, hc₁⟩ : ∃ c₁, c₁ = (c.deliverAll it (f it)).dropItem pk it := ⟨_, rfl⟩
    rw [← hc₁]
    rw [resolve_eq hnd] at hc₁
    have hi : c₁.items = c.items := by rw [hc₁]
    have hpart := part_insert (congrArg Coord.partitions hc₁)
    have hact := active_quiet (congrArg Coord.waiters hc₁)
    have hrest := ih c₁ (fun x => by rw [hi]; exact hnd x)
    refine ⟨hrest.items.trans hi, hrest.inflight.trans (by rw [hc₁]), fun k hk => ?_, fun k hk hmem => ?_, ?_, ?_⟩
    · rw [hrest.part k hk, hpart, if_neg hk]
    · have hmem₁ := hrest.mem k hk hmem
      rw [hc₁] at hmem₁
      exact (AList.mem_insert _).1 hmem₁ |>.resolve_left hk
    · rw [hrest.pending, hpart, if_pos rfl]
    intro w hw
    rw [hrest.active w fun x hx => by rw [hi]; exact hw x (mem_cons_of_mem _ hx), hact,
      if_neg (hw it (mem_cons_self ..))]

/-- A partition retires exactly if it has no items. -/
lemma maybeRetire_eq (hS : StructOK cfg g c) (pk : GoString) : c.maybeRetire pk =
    { c with partitions := if (c.part pk).indexed = [] then c.partitions.erase pk else c.partitions } := by
  have hlive := hS.live pk
  unfold maybeRetire
  by_cases hidx : (c.part pk).indexed = []
  · have hent : (c.part pk).active.entries.length = 0 := by
      by_contra hne
      obtain ⟨e, he⟩ := exists_mem_of_length_pos (Nat.pos_of_ne_zero hne)
      have hl := Table.mem_entries.1 he
      obtain ⟨it, hit⟩ := exists_mem_of_ne_nil _ (hS.full pk e.1 e.2 hl)
      have : it ∈ (c.part pk).indexed :=
        mem_indexed.2 ⟨e.1, by unfold bucket; rw [hl]; exact hit⟩
      rw [hidx] at this
      cases this
    rw [hidx] at hlive
    rw [if_pos ⟨hlive, hent⟩, if_pos hidx, hS.enc]
  have hne : (c.part pk).live ≠ 0 := by
    have := length_pos_iff.2 hidx
    omega
  rw [if_neg fun h => hne h.1, if_neg hidx]

lemma maybeRetire_part (hS : StructOK cfg g c) (pk k : GoString) : (c.maybeRetire pk).part k =
    if k = pk ∧ (c.part pk).indexed = [] then PartitionState.new ⟨k⟩ else c.part k := by
  rw [maybeRetire_eq hS]
  by_cases hidx : (c.part pk).indexed = []
  · rw [if_pos hidx, part_erase rfl]
    simp only [hidx, and_true]
  · rw [if_neg hidx, if_neg fun h => hidx h.2]

lemma shutIdle : ∀ (its : List ItemId) (c : Coord K V E) (r : Result V E),
    (∀ it ∈ its, c.waiting it = 0) → its.foldl (fun c it => c.deliverAll it r) c = c := by
  intro its
  induction its with
  | nil => intro c _ _; rfl
  | cons it its ih =>
    intro c r h
    rw [foldl_cons, deliverAll_idle (h it (mem_cons_self ..))]
    exact ih c r fun x hx => h x (mem_cons_of_mem _ hx)

variable [Inhabited V]

/-- A completed batch leaves exact counts if nobody waited for its items, or if its partition has
no other item. -/
lemma settle_exact (hok : CoordOK cfg es {} c) {b done}
    (hdone : done ∈ completed es) (hb : c.inflight.lookup done.batchID = some b)
    (hcond : (∀ it ∈ b.items, c.waiting it = 0) ∨ ∀ it ∈ (c.part b.partition).indexed, it ∈ b.items)
    (hE : CountsExact c) : CountsExact (c.settle cfg b done) := by
  obtain ⟨f, g₁, h1, h2, heq⟩ : ∃ (f : ItemId → Result V E) (g₁ : Held K), Act cfg es anyJoin {} c g₁ _ ∧
      Acts cfg es anyJoin g₁ _ {} _ ∧ _ := settleItems_acts hok rfl hdone hb
  rw [heq]
  set c₁ := c.land done.batchID with hc₁
  have hfr := settleFrame f b.partition b.items c₁ hok.nodup
  have hidle := settleIdle_out f b.partition b.items c₁
  have hacts := h1.one.trans h2
  set c₂ := b.items.foldl (fun c it => (c.deliverAll it (f it)).dropItem b.partition it) c₁ with hc₂
  have hok₂ := hok.acts hacts
  rcases hcond with hcond | hcond
  · -- nobody waited: nothing was sent
    have hout := hidle hcond
    have hexact₂ : CountsExact c₂ := by
      refine Acts.exact hok hacts (fun w => ?_) hE
      rw [results_append hout]
      exact append_nil _
    have hretire : SchedActs cfg {} c₂ {} (c₂.maybeRetire b.partition) := maybeRetire_acts rfl b.partition
    have hacts₂ : Acts cfg es anyJoin {} c₂ {} (c₂.maybeRetire b.partition) := hretire.acts
    refine Acts.exact hok₂ hacts₂ (fun w => ?_) hexact₂
    unfold Coord.results
    rw [(maybeRetire_frame b.partition).2]
  -- the partition is empty now, and retires
  have hflight : (c.flight b.partition).Perm
      ((if b.partition = b.partition then b.items else []) ++ c₂.flight b.partition) :=
    flight_erase hb hfr.inflight b.partition
  rw [if_pos rfl] at hflight
  have hperm := hok.struct.perm b.partition
  rw [Held.queueOf_none rfl] at hperm
  have hnd := hok.struct.queue_nodup b.partition
  rw [Held.queueOf_none rfl] at hnd
  have hidx : (c₂.part b.partition).indexed = [] := by
    have hp₂ := hok₂.struct.perm b.partition
    rw [Held.queueOf_none rfl, hfr.pending] at hp₂
    by_contra hne
    obtain ⟨it, hit⟩ := exists_mem_of_ne_nil _ hne
    rcases mem_append.1 (hp₂.mem_iff.1 hit) with hit | hit
    · have hin := hcond it (hperm.mem_iff.2 (mem_append_left _ hit))
      exact (nodup_append.1 hnd).2.2 it hit it (hflight.mem_iff.2 (mem_append_left _ hin)) rfl
    have hfl := hflight.mem_iff.2 (mem_append_right b.items hit)
    have hin := hcond it (hperm.mem_iff.2 (mem_append_right _ hfl))
    have hnd' := hflight.nodup_iff.1 (nodup_append.1 hnd).2.1
    exact (nodup_append.1 hnd').2.2 it hin it hit rfl
  intro k
  by_cases hk : k = b.partition
  · subst hk
    unfold Coord.crowd
    rw [maybeRetire_part hok₂.struct, if_pos ⟨rfl, hidx⟩]
    rfl
  -- the other partitions have other items, with other waiters
  have hpart : (c₂.maybeRetire b.partition).part k = c.part k := by
    rw [maybeRetire_part hok₂.struct, if_neg fun h => hk h.1]
    exact hfr.part k hk
  have hitems : (c₂.maybeRetire b.partition).items = c.items := by
    rw [maybeRetire_eq hok₂.struct]
    exact hfr.items
  have hcrowd : (c₂.maybeRetire b.partition).crowd k = c.crowd k := crowd_congr (by rw [hpart]) ?_
  · rw [hpart, hE k, hcrowd]
  intro x hx
  refine waiting_congr (by rw [hitems]) fun w hw => ?_
  rw [active_congr (maybeRetire_frame b.partition).1]
  refine hfr.active w fun it hit hwi => hk ?_
  have : x = it := hok.waiter.own x it w hw hwi
  exact hok.struct.home k b.partition x hx (this ▸ hok.struct.batch_indexed hb hit)

/-! ## Moves -/

/-- A delivery leaves no count behind: nobody waits for what is settled, or its partition has no
other item. -/
def Settles (c : Coord K V E) : Move K V E → Prop
  | .turn ⟨.complete _ done, _, _⟩ => ∀ b ∈ c.inflight.lookup done.batchID,
      (∀ it ∈ b.items, c.waiting it = 0) ∨ ∀ it ∈ (c.part b.partition).indexed, it ∈ b.items
  | .turn ⟨.engine, _, _⟩ => ∀ it ∈ c.allIndexed, c.waiting it = 0
  | _ => True

lemma handleEngineCancel_exact (h : ∀ it ∈ c.allIndexed, c.waiting it = 0) (hE : CountsExact c) :
    CountsExact c.handleEngineCancel := by
  unfold handleEngineCancel
  dsimp only
  have hshut : (allIndexed { c with closing := true }).foldl
      (fun c it => c.deliverAll it (.error .engineClosed)) { c with closing := true } =
      { c with closing := true } := shutIdle _ _ _ h
  rw [hshut, failBarriers_eq]
  obtain ⟨h1, h2, h3⟩ := cancelAll_frame (Coord.inflight { c with closing := true }).keys { c with closing := true }
  exact hE.congr h2 h1 h3

section

variable (hok : CoordOK cfg es {} c)
include hok

/-- A handler that sends no result keeps exact counts exact. -/
lemma handle_exact {t} (hl : t.event.Legal cfg es c)
    (hs : ∀ req ∈ submitted (es ++ [.turn t]), ¬req.tooLarge cfg) (hL : LoadOK es c) (hset : Settles c (.turn t))
    (hE : CountsExact c) : CountsExact (c.handle cfg t.event) := by
  have hacts : Acts cfg (es ++ [.turn t]) anyJoin {} c {} (c.handle cfg t.event) :=
    handle_acts hok hl joinsOnly_true
  have hok' := hok.mono (.turn t)
  have hL' := hL.mono (.turn t)
  obtain ⟨event, now', ctxErr⟩ := t
  cases event with
  | submit now req dl => exact Acts.exact hok' hacts (fun w => handleSubmit_results now req w) hE
  | cancel cr => exact Acts.exact hok' hacts (handleCancel_frame cr).2 hE
  | complete now done =>
    have hdone : done ∈ completed (es ++ [.turn ⟨.complete now done, now', ctxErr⟩]) := mem_filterMap_snoc rfl
    obtain ⟨b, hb⟩ := Option.isSome_iff_exists.1 hl
    have hE₁ := settle_exact hok' hdone hb (hset b hb) hE
    obtain ⟨g₁, c₁, h1, -, -, h2⟩ : ∃ g₁ c₁,
        Act cfg (es ++ [.turn ⟨.complete now done, now', ctxErr⟩]) anyJoin {} c g₁ c₁ ∧ _ ∧
          _ ∧ _ := settle_acts hok' rfl hdone hb
    have hretry : Acts cfg (es ++ [.turn ⟨.complete now done, now', ctxErr⟩]) anyJoin {}
        (c.settle cfg b done) {} ((c.settle cfg b done).retryBlocked cfg now) :=
      retryBlocked_acts rfl rfl now fun _ _ _ _ => trivial
    show CountsExact (c.handleComplete cfg now done)
    unfold handleComplete
    rw [hb]
    exact Acts.exact ((hok'.act h1).acts h2) hretry (fun w => (retry_results now w _ _).1) hE₁
  | control now ctrl =>
    exact (SchedActs.exact hs hok' hL' (control_scheds hok' rfl (ctrl.kind = .close) now) hE).congr rfl rfl rfl
  | timer now => exact SchedActs.exact hs hok' hL' (timer_scheds hok' rfl now) hE
  | engine => exact handleEngineCancel_exact hset hE

/-- The calls of `handleSubmit` start from exact counts. -/
lemma submitCalls_exact {m} (hl : m.Legal cfg es c) (hset : Settles c m) (hE : CountsExact c) :
    ∀ x ∈ submitCalls cfg c m, CountsExact x.1 := by
  intro x hx
  have hok' := hok.mono m
  obtain ⟨g', -, -, hacts⟩ : ∃ g' : Held K, _ ∧ _ ∧ Acts cfg (es ++ [m]) anyJoin {} c g' x.1 :=
    submitCalls_acts hok hl joinsOnly_true x hx
  cases m with
  | turn t =>
    obtain ⟨event, now', ctxErr⟩ := t
    cases event with
    | submit now req dl =>
      refine Acts.exact hok' hacts (fun w => ?_) hE
      obtain rfl := mem_singleton.1 hx
      rfl
    | complete now done =>
      obtain ⟨b, hb⟩ := Option.isSome_iff_exists.1 hl.2
      have hdone : done ∈ completed (es ++ [.turn ⟨.complete now done, now', ctxErr⟩]) := mem_filterMap_snoc rfl
      have hE₁ := settle_exact hok' hdone hb (hset b hb) hE
      obtain ⟨g₁, c₁, h1, -, -, h2⟩ : ∃ g₁ c₁,
          Act cfg (es ++ [.turn ⟨.complete now done, now', ctxErr⟩]) anyJoin {} c g₁ c₁ ∧ _ ∧
            _ ∧ _ := settle_acts hok' rfl hdone hb
      unfold submitCalls at hx
      dsimp only at hx
      rw [hb] at hx
      obtain ⟨g₂, -, -, h3⟩ : ∃ g₂ : Held K, _ ∧ _ ∧ Acts cfg (es ++ [.turn ⟨.complete now done, now', ctxErr⟩]) anyJoin
            { reqs := (c.settle cfg b done).blocked } { c.settle cfg b done with blocked := [] } g₂ x.1 :=
        retryCalls_acts (g := {}) rfl now _ _ (fun _ _ _ _ => trivial) x hx
      have h4 : Acts cfg (es ++ [.turn ⟨.complete now done, now', ctxErr⟩]) anyJoin {}
          (c.settle cfg b done) g₂ x.1 := (Act.unpark rfl).one.trans h3
      refine Acts.exact ((hok'.act h1).acts h2) h4 (fun w => ?_) hE₁
      exact (retry_results now w _ { c.settle cfg b done with blocked := [] }).2 x hx
    | _ => cases hx
  | _ => cases hx

/-- **A move in which no delivery leaves a count behind keeps exact counts exact.** -/
theorem move_exact {m : Move K V E} (hl : m.Legal cfg es c)
    (hs : ∀ req ∈ submitted (es ++ [m]), ¬req.tooLarge cfg) (hL : LoadOK es c) (hset : Settles c m)
    (hE : CountsExact c) : CountsExact (c.move cfg m) := by
  cases m with
  | turn t =>
    have hacts : Acts cfg (es ++ [.turn t]) anyJoin {} c {} (c.handle cfg t.event) :=
      handle_acts hok hl.2 joinsOnly_true
    have hI := hacts.keeps (I := fun g c => CoordOK cfg (es ++ [.turn t]) g c ∧ LoadOK (es ++ [.turn t]) c)
      (fun _ _ _ _ ha hI => ⟨hI.1.act ha, hI.2.act hI.1 ha⟩) ⟨hok.mono _, hL.mono _⟩
    have hE₁ := handle_exact hok hl.2 hs hL hset hE
    show CountsExact (c.turn cfg t)
    rcases turn_cases cfg c t with h | ⟨-, h⟩
    · rw [h]; exact finishTurn_exact hs hI.1 hI.2 t.now t.ctxErr hE₁
    · rw [h]; exact hE₁.congr rfl rfl rfl
  | _ => exact hE.congr rfl rfl rfl

end

end Acts

/-! ## Runs -/

/-- No delivery leaves a count behind, and no join exceeds the limit. -/
def CountsKept [Inhabited V] (cfg : BindingConfig K) (es : List (Move K V E)) (c : Coord K V E)
    (m : Move K V E) : Prop :=
  FitsBatch cfg es c m ∧ Settles c m ∧ JoinsOnly cfg (HasRoom cfg) c m

section Decidable

instance (c : Coord K V E) : (m : Move K V E) → Decidable (Settles c m)
  | .turn ⟨.complete _ done, _, _⟩ => inferInstanceAs (Decidable (∀ b ∈ c.inflight.lookup done.batchID,
      (∀ it ∈ b.items, c.waiting it = 0) ∨ ∀ it ∈ (c.part b.partition).indexed, it ∈ b.items))
  | .turn ⟨.engine, _, _⟩ => inferInstanceAs (Decidable (∀ it ∈ c.allIndexed, c.waiting it = 0))
  | .turn ⟨.submit .., _, _⟩ => .isTrue trivial
  | .turn ⟨.cancel _, _, _⟩ => .isTrue trivial
  | .turn ⟨.control .., _, _⟩ => .isTrue trivial
  | .turn ⟨.timer _, _, _⟩ => .isTrue trivial
  | .cancelEngine => .isTrue trivial
  | .adapt _ => .isTrue trivial
  | .clearAdaptive => .isTrue trivial
  | .newRequestID => .isTrue trivial

instance (cfg : BindingConfig K) (c : Coord K V E) (req : SubmitReq K) (it : ItemId) :
    Decidable (HasRoom cfg c req it) :=
  inferInstanceAs (Decidable (0 < cfg.limits.maxWaiters → (c.part req.part.encoded).waiters < cfg.limits.maxWaiters))

instance [Inhabited V] (cfg : BindingConfig K) (es : List (Move K V E)) (c : Coord K V E)
    (m : Move K V E) : Decidable (CountsKept cfg es c m) :=
  inferInstanceAs (Decidable (_ ∧ _ ∧ _))

end Decidable

section Main

variable [Inhabited K] [Inhabited V]

variable {c : Coord K V E}

/-- **The gauge counts the callers that wait, in every run.** -/
theorem reach_gauge (h : (coordinator cfg).Reach es c) : GaugeOK c ∧ ∀ pk, (c.crowd pk : ℤ) ≤ (c.part pk).waiters := by
  refine reach_always (J := fun _ _ c => GaugeOK c ∧ ∀ pk, (c.crowd pk : ℤ) ≤ (c.part pk).waiters)
    ⟨fun S _ => ?_, fun pk => le_rfl⟩ (fun _ _ _ _ hJ => hJ)
    (fun _ _ _ _ _ hok ha hJ => ⟨(ha.crowd hok).gauge hJ.1, (ha.crowd hok).le hJ.2⟩) h
  exact (Finset.sum_eq_zero fun _ _ => rfl).symm

section

variable (h : ((coordinator cfg).only (CountsKept cfg)).Reach es c)
include h

lemma reach_bounded : CountsBounded cfg c :=
  reach_keeps (fun _ _ _ hq => hq.2.2) (fun hpos _ => hpos.le) (fun _ _ _ _ hJ => hJ)
    (fun _ _ _ _ _ hok ha hJ => (ha.crowd hok).bounded hJ) h

lemma reach_exact : CountsExact c := by
  refine h.invariant (I := fun _ c => CountsExact c) (fun _ => rfl) ?_
  intro es c m hr hl hE
  have hs := submitted_only (fun _ _ _ req hq hm => hq.1 req hm) (hr.step m hl)
  exact move_exact (reach_ok hr.of_only) hl.1 hs (reach_loads hr.of_only) hl.2.2.1 hE

end

/-- **Waiters are counted exactly and the limit holds**, in every run in which no delivery leaves a
count behind and no join exceeds the limit; so a submission is refused for the number of waiters
only when as many callers wait. -/
theorem waiters_exact {es : List (Move K V E)} {c : Coord K V E}
    (h : ((coordinator cfg).only (CountsKept cfg)).Reach es c) : (∀ pk, (c.part pk).waiters = c.crowd pk) ∧
    c.queuedWaiters = (c.partitions.entries.map fun e => e.2.waiters).sum ∧
    (0 < cfg.limits.maxWaiters → ∀ pk, (c.crowd pk : ℤ) ≤ cfg.limits.maxWaiters) ∧
    ∀ m, ((coordinator cfg).only (CountsKept cfg)).ok es c m → ∀ x ∈ submitCalls cfg c m,
      overLimits cfg (x.1.part x.2.part.encoded) x.2 = some .waiters →
      0 < cfg.limits.maxWaiters ∧ cfg.limits.maxWaiters ≤ x.1.crowd x.2.part.encoded := by
  have hr := h.of_only
  have hE := reach_exact h
  refine ⟨hE, ?_, fun hpos pk => ?_, fun m hl x hx hover => ?_⟩
  · -- the partitions in the table are the ones with callers
    have hsum := (reach_gauge hr).1 c.partitions.keys.toFinset fun pk hne => by
      by_contra hni
      refine hne ?_
      unfold Coord.crowd
      rw [part_of_none c (AList.lookup_eq_none.2 fun hin => hni (mem_toFinset.2 hin))]
      rfl
    rw [hsum, sum_toFinset _ c.partitions.keys_nodup]
    unfold AList.keys List.keys
    rw [List.map_map]
    refine congrArg List.sum (map_congr_left fun e he => ?_)
    have hpart := part_eq_of_lookup c (Table.mem_entries.1 he)
    show (c.crowd e.1 : ℤ) = _
    rw [← hE e.1, hpart]
  · rw [← hE pk]
    exact reach_bounded h hpos pk
  have hx' := submitCalls_exact (reach_ok hr) hl.1 hl.2.2.1 hE x hx x.2.part.encoded
  unfold overLimits at hover
  dsimp only at hover
  rw [hx'] at hover
  split_ifs at hover with h1 h2 h3 h4
  · simp at hover
  · exact ⟨h2.1, by omega⟩
  · simp at hover
  · simp at hover

end Main

/-- The small binding with at most two waiters in a partition. -/
def demoCrowd : BindingConfig ℕ := { demo .manual with limits := { maxWaiters := 2 } }

/-- Two callers share an item, one leaves, the batch completes alone in its partition, and a
third caller is queued. -/
theorem waiters_exact_demo :
    let c := (coordinator demoCrowd).run Coord.init
      [demoSubmit [1] 1 1 none, demoSubmit [1] 1 2 none, demoControl .flush 1, demoCancel [1] 1 false,
        demoComplete 1 [], demoSubmit [1] 2 3 none]
    ∀ pk, (c.part pk).waiters = c.crowd pk :=
  (waiters_exact (System.reach_of_allowed (by decide))).1

/-- **Counts drift and the limit is not kept.** After a batch completes while another item is queued,
the partition counts two waiters where one caller waits, and refuses the next for that; and three
callers share an item where two are allowed. -/
theorem waiters_drift : (∃ es : List (Move ℕ ℕ ℕ), ∃ c : Coord ℕ ℕ ℕ, (coordinator demoCrowd).Reach es c ∧
      (c.part [1]).waiters = 2 ∧ c.crowd [1] = 1 ∧
        overLimits demoCrowd (c.part [1]) (demoReq [1] 3 3) = some .waiters) ∧
    ∃ es : List (Move ℕ ℕ ℕ), ∃ c : Coord ℕ ℕ ℕ, (coordinator demoCrowd).Reach es c ∧ c.crowd [1] = 3 :=
  ⟨⟨[demoSubmit [1] 1 1 none, demoControl .flush 1, demoSubmit [1] 2 2 none, demoComplete 1 []], _,
    System.reach_of_allowed (by decide), by decide, by decide,
    by decide⟩,
    ⟨[demoSubmit [1] 1 1 none, demoSubmit [1] 1 2 none, demoSubmit [1] 1 3 none], _,
      System.reach_of_allowed (by decide), by decide⟩⟩

end BatchWeaver
