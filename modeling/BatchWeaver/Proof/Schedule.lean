import BatchWeaver.Proof.Invariant
import BatchWeaver.Proof.Response

/-!
# `schedule`, step by step

Under the invariant, `prune` finds nothing to prune, `NewBatchRequest` never refuses
what `dispatchBatch` selected, and the whole of `schedule` is a sequence of actions.

* `select_acts`: the loop of `dispatchBatch`.
* `dispatchBatch_acts`, `schedule_acts`: `dispatchBatch` and `schedule`.
-/

namespace BatchWeaver

open List Coord Relation

variable {K V E : Type}

section

variable {cfg : BindingConfig K} {es : List (Move K V E)} {g : Held K}
  {c : Coord K V E}

variable {a : Selection K} {it : ItemId}

lemma minSeq_le_select (h : ∀ x ∈ a.selected, a.minSeq ≤ ((c.items x).seq : WithTop ℕ)) : ∀ x ∈ a.selected ++ [it],
      (if ((c.items it).seq : WithTop ℕ) < a.minSeq then ((c.items it).seq : WithTop ℕ) else a.minSeq) ≤
        ((c.items x).seq : WithTop ℕ) := by
  intro x hx
  rcases mem_append.1 hx with hx | hx
  · split
    · rename_i hlt; exact hlt.le.trans (h x hx)
    · exact h x hx
  rw [mem_singleton.1 hx]
  split
  · exact le_rfl
  · rename_i hlt; exact not_lt.1 hlt

/-! ## The loop of `dispatchBatch` -/

lemma wrap64_add_wrap64 (x y : ℤ) : wrap64 (wrap64 x + y) = wrap64 (x + y) := Int.bmod_add_bmod

section Totals

lemma Coord.total_append (f : QItem K → ℤ) (l l' : List ItemId) : c.total f (l ++ l') = c.total f l + c.total f l' := by
  unfold Coord.total
  rw [map_append, sum_append]

lemma Coord.total_singleton (f : QItem K → ℤ) (it : ItemId) : c.total f [it] = f (c.items it) := by
  simp [Coord.total]

variable {f : QItem K → ℤ} {l : List ItemId}

lemma Coord.total_nonneg (h : ∀ it ∈ l, 0 ≤ f (c.items it)) : 0 ≤ c.total f l := by
  apply sum_nonneg
  intro x hx
  obtain ⟨it, hit, rfl⟩ := mem_map.1 hx
  exact h it hit

/-- A first item that alone keeps the limit, or a further one that keeps it by the running
`int64` total. -/
lemma Coord.Within.snoc {lim} (h : c.Within lim f l) (hfirst : l = [] → 0 < lim → f (c.items it) ≤ lim)
    (hnext : l ≠ [] → 0 < lim → wrap64 (wrap64 (c.total f l) + f (c.items it)) ≤ lim) : c.Within lim f (l ++ [it]) := by
  intro hpos hsmall
  rw [total_append, total_singleton]
  by_cases hl : l = []
  · subst hl
    have := hfirst rfl hpos
    simpa [Coord.total] using this
  have hsmall' := fun x hx => hsmall x (mem_append_left _ hx)
  have hit := hsmall it (mem_append_right _ (mem_singleton.2 rfl))
  have hle := h hpos hsmall'
  have h0 := total_nonneg fun x hx => (hsmall' x hx).1
  -- neither the total so far nor the sum wraps
  have hsum := hnext hl hpos
  rw [wrap64_add_wrap64, wrap64_of_lt (by omega) (by omega)] at hsum
  exact hsum

lemma Chosen.congr {c' : Coord K V E} (h : Chosen cfg c a)
    (hi : c'.items = c.items) (hd : c'.dyn = c.dyn) : Chosen cfg c' a := by
  have ht : ∀ (f : QItem K → ℤ) l, c'.total f l = c.total f l := by
    intro f l
    unfold Coord.total
    rw [hi]
  have hm : c'.effectiveMaxBatchSize cfg = c.effectiveMaxBatchSize cfg := by
    unfold effectiveMaxBatchSize
    rw [hd]
  have hw : ∀ lim (f : QItem K → ℤ) l, c.Within lim f l → c'.Within lim f l := by
    intro lim f l hw hpos hs
    rw [ht]
    rw [hi] at hs
    exact hw hpos hs
  exact ⟨h.count, by rw [ht]; exact h.weight, by rw [ht]; exact h.bytes, by rw [hm]; exact h.size,
    hw _ _ _ h.weight_le, hw _ _ _ h.bytes_le⟩

lemma Chosen.nil : Chosen cfg c {} where
  count := rfl
  weight := rfl
  bytes := rfl
  size := fun h => h.le
  weight_le := fun h _ => h.le
  bytes_le := fun h _ => h.le

/-- The item that passed the tests of `dispatchBatch` is selected. -/
lemma Chosen.select (h : Chosen cfg c a)
    (hbig : ¬(a.selected.length = 0 ∧ Coord.itemTooLarge cfg (c.items it) = true))
    (hfits : ¬(0 < a.selected.length ∧ Coord.fits cfg (c.effectiveMaxBatchSize cfg) a.count a.weight
      a.bytes (c.items it) = false)) (m : WithTop ℕ) :
    Chosen cfg c { a with
      selected := a.selected ++ [it]
      items := a.items ++ [c.batchItem it]
      count := a.count + 1
      weight := wrap64 (a.weight + (c.items it).weight)
      bytes := wrap64 (a.bytes + (c.items it).bytes)
      minSeq := m } := by
  have hfirst : a.selected = [] → Coord.itemTooLarge cfg (c.items it) ≠ true :=
    fun hl hb => hbig ⟨by rw [hl]; rfl, hb⟩
  have hnext : a.selected ≠ [] → Coord.fits cfg (c.effectiveMaxBatchSize cfg) a.count a.weight
      a.bytes (c.items it) ≠ false :=
    fun hl hb => hfits ⟨length_pos_of_ne_nil hl, hb⟩
  unfold Coord.itemTooLarge at hfirst
  unfold Coord.fits at hnext
  refine ⟨?_, ?_, ?_, ?_, ?_, ?_⟩
  · rw [h.count, length_append, length_singleton, Nat.cast_add, Nat.cast_one]
  · rw [h.weight, wrap64_add_wrap64, total_append, total_singleton]
  · rw [h.bytes, wrap64_add_wrap64, total_append, total_singleton]
  · intro hpos
    rw [length_append, length_singleton]
    by_cases hl : a.selected = []
    · rw [hl]
      simp only [length_nil]
      omega
    have := hnext hl
    rw [h.count] at this
    by_contra hlt
    rw [if_pos ⟨hpos, by push_cast at hlt ⊢; omega⟩] at this
    exact this rfl
  · refine h.weight_le.snoc (fun hl hpos => ?_) (fun hl hpos => ?_)
    · by_contra hlt
      exact hfirst hl (by rw [if_pos ⟨hpos, not_le.1 hlt⟩])
    by_contra hlt
    have := hnext hl
    rw [h.weight] at this
    split at this
    · exact this rfl
    · rw [if_pos ⟨hpos, not_le.1 hlt⟩] at this
      exact this rfl
  refine h.bytes_le.snoc (fun hl hpos => ?_) (fun hl hpos => ?_)
  · by_contra hlt
    refine hfirst hl ?_
    split
    · rfl
    · rw [if_pos ⟨hpos, not_le.1 hlt⟩]
  by_contra hlt
  have := hnext hl
  rw [h.bytes] at this
  split at this
  · exact this rfl
  split at this
  · exact this rfl
  · rw [if_pos ⟨hpos, not_le.1 hlt⟩] at this
    exact this rfl

end Totals

lemma batchItem_validate {it} (hit : 0 < it) : (c.batchItem it).validate = .ok () := by
  have hw : ∀ w, ¬ clampWeight w < 1 := by
    intro w
    unfold clampWeight maxInt
    split
    · omega
    · split <;> omega
  unfold batchItem BatchItem.validate
  have hne : RequestID.isValid it = true := by
    unfold RequestID.isValid
    simpa using Nat.pos_iff_ne_zero.1 hit
  cases c.itemEarliestDeadline it <;>
    simp [newBatchItem, BatchItem.withWeight, BatchItem.withDeadline, hne, hw, minPriority, maxPriority]

/-- Queued items have active waiters, so nothing is pruned. -/
lemma prune_eq {pk} (h : ∀ it ∈ (c.part pk).pending, 0 < (c.items it).activeWaiters) : c.prune pk = c := by
  unfold Coord.prune
  cases hp : (c.part pk).pending with
  | nil => rfl
  | cons it rest =>
    unfold pruneLoop
    have := h it (by rw [hp]; exact mem_cons_self ..)
    rw [if_neg (by omega)]

lemma effectiveMaxConcurrency_le (hS : StructOK cfg g c) :
    1 ≤ c.effectiveMaxConcurrency cfg ∧ c.effectiveMaxConcurrency cfg ≤ cfg.maxConcurrency := by
  unfold Coord.effectiveMaxConcurrency
  split
  · rename_i d hd; exact hS.dyn d hd
  · exact ⟨cfg.maxConcurrency_pos, le_rfl⟩

lemma computeNextTimer_quiet (now : Time) : Quiet cfg c (c.computeNextTimer cfg now) := by
  unfold computeNextTimer
  split
  · exact { Quiet.refl cfg c with }
  · exact { Quiet.refl cfg c with }

variable [Inhabited V]

lemma maybeRetire_acts (hg : g.queue = none) (pk : GoString) : SchedActs cfg g c g (c.maybeRetire pk) := by
  unfold maybeRetire
  dsimp only
  split
  · rename_i h
    exact (SchedAct.retire pk hg h.1 h.2).one
  · exact ReflTransGen.refl

/-- **The loop of `dispatchBatch`**: what it does to the state are actions, and its
variables split the queue it leaves. -/
theorem select_acts {pk : GoString} {rs : List (SubmitReq K)} :
    ∀ (rest : List ItemId) (c : Coord K V E) (a : Selection K) (l : List ItemId),
      CoordOK cfg es ⟨some (pk, l), rs⟩ c → l.Perm (a.selected ++ a.remaining ++ rest) →
      (∀ it ∈ l, it ∈ (c.part pk).pending) → a.items = a.selected.map c.batchItem →
      (∀ it ∈ a.selected, a.minSeq ≤ ((c.items it).seq : WithTop ℕ)) → Chosen cfg c a →
      ∃ l', SchedActs cfg ⟨some (pk, l), rs⟩ c ⟨some (pk, l'), rs⟩ (rest.foldl (selectItem cfg pk) (c, a)).1 ∧
        Selected (rest.foldl (selectItem cfg pk) (c, a)).1 l' (rest.foldl (selectItem cfg pk) (c, a)).2 ∧
        (∀ it ∈ l', it ∈ ((rest.foldl (selectItem cfg pk) (c, a)).1.part pk).pending) ∧
        (rest.foldl (selectItem cfg pk) (c, a)).1.activeProvider = c.activeProvider ∧
        Chosen cfg (rest.foldl (selectItem cfg pk) (c, a)).1 (rest.foldl (selectItem cfg pk) (c, a)).2 := by
  intro rest
  induction rest with
  | nil =>
    intro c a l _ hl hp hi hm hch
    rw [append_nil] at hl
    exact ⟨l, ReflTransGen.refl, ⟨hl, hi, hm⟩, hp, rfl, hch⟩
  | cons it rest ih =>
    intro c a l hok hl hp hi hm hch
    have hit : it ∈ l := hl.mem_iff.2 (mem_append_right _ (mem_cons_self ..))
    have hpos := hok.waiter.pos pk it (hp it hit)
    rw [foldl_cons]
    unfold selectItem
    dsimp only
    rw [if_neg (by omega)]
    split
    · -- the item alone exceeds a hard limit: nothing is selected yet
      rename_i hbig
      have hsel : a.selected = [] := eq_nil_of_length_eq_zero hbig.1
      set l₁ := a.selected ++ a.remaining ++ rest with hl₁
      have hl₁' : l.Perm (it :: l₁) := hl.trans perm_middle
      set c₁ := (c.deliverAll it (.error .itemTooLarge)).dropItem pk it with hc₁
      set c₂ : Coord K V E := { c₁ with queuedItems := c.queuedItems - 1 } with hc₂
      have hs₁ : SchedAct cfg ⟨some (pk, l), rs⟩ c ⟨some (pk, l₁), rs⟩ c₁ :=
        SchedAct.tooLarge pk l l₁ it rfl hl₁' (hp it hit) hbig.2
      have hs₂ : SchedAct cfg ⟨some (pk, l₁), rs⟩ c₁ ⟨some (pk, l₁), rs⟩ c₂ :=
        SchedAct.quiet { Quiet.refl cfg c₁ with }
      have hpend : (c₂.part pk).pending = (c.part pk).pending := by
        show (c₁.part pk).pending = _
        rw [part_insert (congrArg Coord.partitions (hc₁.trans (resolve_eq hok.nodup))), if_pos rfl]
      have hprov : c₂.activeProvider = c.activeProvider := by
        show c₁.activeProvider = _
        rw [hc₁, resolve_eq hok.nodup]
      have hch₂ : Chosen cfg c₂ a := by
        refine hch.congr ?_ ?_
        · show c₁.items = _
          rw [hc₁, resolve_eq hok.nodup]
        · show c₁.dyn = _
          rw [hc₁, resolve_eq hok.nodup]
      obtain ⟨l', h1, h2, h3, h4, h5⟩ := ih c₂ a l₁ ((hok.sched hs₁).sched hs₂) (Perm.refl _)
        (fun x hx => by rw [hpend]; exact hp x (hl₁'.mem_iff.2 (mem_cons_of_mem _ hx)))
        (by rw [hi, hsel]; rfl) (by rw [hsel]; intro x hx; cases hx) hch₂
      exact ⟨l', (hs₁.one.trans hs₂.one).trans h1, h2, h3, h4.trans hprov, h5⟩
    rename_i hbig
    split
    · refine ih c _ l hok ?_ hp hi hm ⟨hch.count, hch.weight, hch.bytes, hch.size, hch.weight_le, hch.bytes_le⟩
      dsimp only
      rw [← append_assoc, append_assoc _ [it], singleton_append]
      exact hl
    rename_i hfits
    refine ih c _ l hok ?_ hp ?_ (minSeq_le_select hm) (hch.select hbig hfits _)
    · dsimp only
      refine hl.trans ?_
      rw [append_assoc, append_assoc, append_assoc]
      refine Perm.append_left _ ?_
      rw [singleton_append]
      exact perm_middle
    dsimp only
    rw [hi, map_append]
    rfl

/-! ## `dispatchBatch` -/

lemma dispatchBatch_acts (hok : CoordOK cfg es g c) (hg : g.queue = none) (pk : GoString)
    (reason : FlushReason) (hpend : (c.part pk).pending ≠ []) (hslot : c.activeProvider < cfg.maxConcurrency) :
    SchedActs cfg g c g (c.dispatchBatch cfg pk reason) := by
  obtain ⟨q, rs⟩ := g
  obtain rfl : q = none := hg
  have h0 : SchedAct cfg ⟨none, rs⟩ c ⟨some (pk, (c.part pk).pending), rs⟩ c := SchedAct.hold pk rfl hpend
  obtain ⟨l, h1, h2, h3, h4, hch⟩ := select_acts (c.part pk).pending c {} (c.part pk).pending
    (hok.sched h0) (Perm.refl _) (fun _ h => h) rfl nofun Chosen.nil
  unfold dispatchBatch
  dsimp only
  set s := (c.part pk).pending.foldl (selectItem cfg pk) (c, {}) with hs
  have hok₁ := (hok.sched h0).scheds h1
  have h5 := h0.one.trans h1
  split
  · rename_i hnil
    have hsel : s.2.selected = [] := eq_nil_of_length_eq_zero hnil
    have hperm : l.Perm s.2.remaining := by
      have := h2.perm
      rwa [hsel, nil_append] at this
    exact h5.tail (SchedAct.release pk l s.2.remaining rfl hperm (fun it hit => h3 it (hperm.mem_iff.2 hit)))
  rename_i hne
  have hsel : s.2.selected ≠ [] := fun h => hne (by rw [h]; rfl)
  have hin : ∀ it ∈ s.2.selected, it ∈ (s.1.part pk).indexed := fun it hit =>
    hok₁.struct.held_indexed rfl (h2.perm.mem_iff.2 (mem_append_left _ hit))
  have hnd : s.2.selected.Nodup := by
    have := (nodup_append.1 (hok₁.struct.queue_nodup pk)).1
    rw [Held.queueOf_some rfl, if_pos rfl] at this
    exact (nodup_append.1 (h2.perm.nodup_iff.1 this)).1
  have hreq : newBatchRequest s.2.items = .ok ⟨s.2.items⟩ := by
    refine newBatchRequest_ok ?_ ?_ ?_
    · rw [h2.items]; simpa using hsel
    · intro bi hbi
      rw [h2.items] at hbi
      obtain ⟨it, hit, rfl⟩ := mem_map.1 hbi
      exact batchItem_validate (hok₁.struct.range pk it (hin it hit)).1
    · rw [h2.items, batchItems_ids]
      exact hnd
  rw [hreq]
  exact h5.tail (SchedAct.dispatch pk l reason s.2 rfl h2 hsel h3 (by rw [h4]; exact hslot) hch)

/-! ## `schedule` -/

lemma dispatchLoop_acts (hg : g.queue = none) (pk : GoString) (force : Bool) (now : Time) :
    ∀ (n : ℕ) (c : Coord K V E), CoordOK cfg es g c → SchedActs cfg g c g (dispatchLoop cfg pk force now n c) := by
  intro n
  induction n with
  | zero => intro c _; exact ReflTransGen.refl
  | succ n ih =>
    intro c hok
    unfold dispatchLoop
    split
    · rename_i hc
      rw [prune_eq (hok.waiter.pos pk)]
      dsimp only
      split
      · exact ReflTransGen.refl
      split
      · exact ReflTransGen.refl
      rename_i reason _
      have h1 := dispatchBatch_acts hok hg pk reason (length_pos_iff.1 hc.1)
        (lt_of_lt_of_le hc.2 (effectiveMaxConcurrency_le hok.struct).2)
      exact h1.trans (ih _ (hok.scheds h1))
    · exact ReflTransGen.refl

lemma schedulePart_acts (hok : CoordOK cfg es g c) (hg : g.queue = none) (force : Bool)
    (now : Time) (pk : GoString) : SchedActs cfg g c g (schedulePart cfg force now c pk) := by
  unfold schedulePart
  split
  · exact ReflTransGen.refl
  · exact (dispatchLoop_acts hg pk force now _ c hok).trans (maybeRetire_acts hg pk)

lemma scheduleParts_acts (hg : g.queue = none) (force : Bool) (now : Time) :
    ∀ (pks : List GoString) (c : Coord K V E), CoordOK cfg es g c →
      SchedActs cfg g c g (pks.foldl (schedulePart cfg force now) c) := by
  intro pks
  induction pks with
  | nil => intro c _; exact ReflTransGen.refl
  | cons pk pks ih =>
    intro c hok
    have h1 := schedulePart_acts hok hg force now pk
    exact h1.trans (ih _ (hok.scheds h1))

/-- **`schedule` is a sequence of actions.** -/
theorem schedule_acts (hok : CoordOK cfg es g c) (hg : g.queue = none) (force : Bool) (now : Time) :
    SchedActs cfg g c g (c.schedule cfg force now) := by
  unfold schedule
  exact (scheduleParts_acts hg force now _ c hok).tail (SchedAct.quiet (computeNextTimer_quiet now))

end

end BatchWeaver
