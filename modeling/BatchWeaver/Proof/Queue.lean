import BatchWeaver.Proof.Reachable

/-!
# Queues move on

`dispatchBatch` skips items that do not fit, and smaller items behind them may overtake. The first item of the queue is
never skipped, and what is left keeps its order, so an item can be overtaken but not starved.

* `Onward c c'` and `Elsewhere pk c c'`: the frames of dispatching, and of dispatching from the partition `pk`.
* `dispatchBatch_pending`: what `dispatchBatch` leaves is a part of the queue behind its first item, in order.
* `dispatchLoop_turns`: the loop of `schedule` ends by its own tests.
* `no_starvation`: an item with `k` items ahead of it is gone after `k + 1` calls of `dispatchBatch`, whatever is
  submitted, canceled, completed or dispatched elsewhere in between.
-/

namespace BatchWeaver

open List Coord

variable {K V E : Type} {cfg : BindingConfig K} {pk : GoString}

/-! ## What is done to one partition -/

/-- The waiter is as before, or has been deactivated. -/
def Waiter.Calmed (x x' : Waiter) : Prop :=
  x'.deadline = x.deadline ∧ x'.hasDeadline = x.hasDeadline ∧ (x'.active = true → x.active = true)

/-- What batch limits are checked against. -/
def QItem.size (x : QItem K) : ℤ × ℤ := (x.weight, x.bytes)

/-- Partitions apart, what dispatching changes: waiters may be deactivated and provider slots taken. -/
structure Onward (c c' : Coord K V E) : Prop where
  dyn : c'.dyn = c.dyn
  size : ∀ it, (c'.items it).size = (c.items it).size
  enqueue : ∀ it, (c'.items it).enqueue = (c.items it).enqueue
  crew : ∀ it, (c'.items it).waiters = (c.items it).waiters
  calm : ∀ w x', c'.waiters w = some x' → ∃ x, c.waiters w = some x ∧ x.Calmed x'
  provider : c.activeProvider ≤ c'.activeProvider
  requestSeq : c'.requestSeq = c.requestSeq

/-- Of the partitions only `pk` differs. -/
structure Elsewhere (pk : GoString) (c c' : Coord K V E) : Prop extends Onward c c' where
  part : ∀ k, k ≠ pk → c'.part k = c.part k

section

variable {c c' c'' : Coord K V E}

lemma Waiter.Calmed.refl (x : Waiter) : x.Calmed x := ⟨rfl, rfl, id⟩

lemma Waiter.Calmed.trans {x y z : Waiter} (h : x.Calmed y) (h' : y.Calmed z) : x.Calmed z :=
  ⟨h'.1.trans h.1, h'.2.1.trans h.2.1, fun hz => h.2.2 (h'.2.2 hz)⟩

lemma Onward.refl (c : Coord K V E) : Onward c c :=
  ⟨rfl, fun _ => rfl, fun _ => rfl, fun _ => rfl, fun _ x h => ⟨x, h, .refl x⟩, le_rfl, rfl⟩

lemma Onward.trans (h : Onward c c') (h' : Onward c' c'') : Onward c c'' where
  dyn := h'.dyn.trans h.dyn
  size it := (h'.size it).trans (h.size it)
  enqueue it := (h'.enqueue it).trans (h.enqueue it)
  crew it := (h'.crew it).trans (h.crew it)
  calm w x' hx' := by
    obtain ⟨y, hy, hcalm'⟩ := h'.calm w x' hx'
    obtain ⟨x, hx, hcalm⟩ := h.calm w y hy
    exact ⟨x, hx, hcalm.trans hcalm'⟩
  provider := h.provider.trans h'.provider
  requestSeq := h'.requestSeq.trans h.requestSeq

lemma Elsewhere.refl (pk : GoString) (c : Coord K V E) : Elsewhere pk c c := ⟨.refl c, fun _ _ => rfl⟩

lemma Elsewhere.trans (h : Elsewhere pk c c') (h' : Elsewhere pk c' c'') : Elsewhere pk c c'' :=
  ⟨h.toOnward.trans h'.toOnward, fun k hk => (h'.part k hk).trans (h.part k hk)⟩

lemma foldl_elsewhere {α : Type} {f : Coord K V E → α → Coord K V E} (hf : ∀ c a, Elsewhere pk c (f c a))
    (l : List α) (c : Coord K V E) : Elsewhere pk c (l.foldl f c) := by
  induction l generalizing c with
  | nil => exact .refl pk c
  | cons a l ih => exact (hf c a).trans (ih _)

lemma setPart_elsewhere (p : PartitionState) : Elsewhere pk c (c.setPart pk p) :=
  { Elsewhere.refl pk c with part := fun k hk => by rw [part_setPart, if_neg hk] }

lemma deliver_elsewhere (w : WaiterId) (r : Result V E) : Elsewhere pk c (c.deliver w r) := by
  unfold deliver
  split
  · exact .refl pk c
  refine { Elsewhere.refl pk c with calm := fun v x' hx' => ?_ }
  have hv : Function.update c.waiters w ((c.waiters w).map fun x => { x with active := false }) v = some x' := hx'
  rw [Function.update_apply] at hv
  split at hv
  · rename_i hvw
    obtain ⟨x, hx, rfl⟩ := Option.map_eq_some_iff.1 hv
    refine ⟨x, by rw [hvw]; exact hx, rfl, rfl, fun h => ?_⟩
    cases h
  · exact ⟨x', hv, .refl x'⟩

lemma removeActive_pending (p : PartitionState) (it : ItemId) : (c.removeActive p it).pending = p.pending := by
  unfold removeActive
  dsimp only
  split <;> rfl

lemma dropItem_pending (pk : GoString) (it : ItemId) : ((c.dropItem pk it).part pk).pending = (c.part pk).pending := by
  unfold dropItem
  rw [part_setPart, if_pos rfl]
  exact removeActive_pending _ it

/-- Deliveries leave the items, the partitions and the provider slots alone. -/
lemma deliverAll_view (it : ItemId) (r : Result V E) :
    (c.deliverAll it r).items = c.items ∧ (c.deliverAll it r).partitions = c.partitions ∧
      (c.deliverAll it r).activeProvider = c.activeProvider := by
  have h := foldl_view (f := fun (c : Coord K V E) w => c.deliver w r)
    (fun c => (c.items, c.partitions, c.activeProvider))
    (fun c w => by unfold deliver; split <;> rfl) (c.items it).waiters c
  exact ⟨congrArg (·.1) h, congrArg (·.2.1) h, congrArg (·.2.2) h⟩

/-- `failItem` takes an item out of the index and changes no queue. -/
lemma failItem_view [Inhabited V] (pk : GoString) (it : ItemId) (err : GoError E) :
    ((c.failItem pk it err).part pk).pending = (c.part pk).pending ∧
      (c.failItem pk it err).items = c.items ∧ (c.failItem pk it err).activeProvider = c.activeProvider := by
  obtain ⟨hitems, hparts, hslots⟩ := deliverAll_view it (.error err : Result V E)
  refine ⟨(dropItem_pending pk it).trans ?_, hitems, hslots⟩
  rw [part_congr hparts]

lemma dropItem_elsewhere (it : ItemId) : Elsewhere pk c (c.dropItem pk it) := setPart_elsewhere _

lemma failItem_elsewhere [Inhabited V] (it : ItemId) (err : GoError E) : Elsewhere pk c (c.failItem pk it err) :=
  (foldl_elsewhere (fun _ w => deliver_elsewhere w _) _ c).trans (dropItem_elsewhere it)

/-- Counters of queued items play no part. -/
lemma Elsewhere.queuedItems (h : Elsewhere pk c c') (n : ℤ) : Elsewhere pk c { c' with queuedItems := n } :=
  { h with }

end

/-! ## One pass over a queue -/

section

variable {c c' : Coord K V E}

section

variable [Inhabited V]

/-- One turn of the loop of `dispatchBatch`: the item is left over or not, and the queue itself is not touched. -/
lemma selectItem_step (cfg : BindingConfig K) (pk : GoString) (s : Coord K V E × Selection K) (it : ItemId) :
    Elsewhere pk s.1 (selectItem cfg pk s it).1 ∧ ((selectItem cfg pk s it).1.part pk).pending = (s.1.part pk).pending ∧
      ((selectItem cfg pk s it).2.remaining = s.2.remaining ∨
        (selectItem cfg pk s it).2.remaining = s.2.remaining ++ [it] ∧ s.2.selected ≠ []) := by
  unfold selectItem
  dsimp only
  split
  · exact ⟨(dropItem_elsewhere it).queuedItems _, dropItem_pending pk it, .inl rfl⟩
  split
  · exact ⟨(failItem_elsewhere it _).queuedItems _, (failItem_view pk it .itemTooLarge).1, .inl rfl⟩
  split
  · rename_i hskip
    exact ⟨.refl pk s.1, rfl, .inr ⟨rfl, ne_nil_of_length_pos hskip.1⟩⟩
  · exact ⟨.refl pk s.1, rfl, .inl rfl⟩

lemma select_pass (cfg : BindingConfig K) (pk : GoString) (l : List ItemId) (s : Coord K V E × Selection K) :
    Elsewhere pk s.1 (l.foldl (selectItem cfg pk) s).1 ∧
      ((l.foldl (selectItem cfg pk) s).1.part pk).pending = (s.1.part pk).pending ∧
      ∃ l', (l.foldl (selectItem cfg pk) s).2.remaining = s.2.remaining ++ l' ∧ l'.Sublist l := by
  induction l generalizing s with
  | nil => exact ⟨.refl pk s.1, rfl, [], (append_nil _).symm, .slnil⟩
  | cons it rest ih =>
    obtain ⟨hframe, hpend, hrem⟩ := selectItem_step cfg pk s it
    obtain ⟨hframe', hpend', l', hrem', hsub⟩ := ih (selectItem cfg pk s it)
    refine ⟨hframe.trans hframe', hpend'.trans hpend, ?_⟩
    rcases hrem with hrem | ⟨hrem, -⟩
    · exact ⟨l', hrem'.trans (by rw [hrem]), hsub.cons it⟩
    · exact ⟨it :: l', hrem'.trans (by rw [hrem, append_assoc, singleton_append]), hsub.cons_cons it⟩

/-- The first item is not left over: nothing is selected when the loop comes to it. -/
lemma select_head (it : ItemId) (rest : List ItemId) (c : Coord K V E) :
    ((it :: rest).foldl (selectItem cfg pk) (c, {})).2.remaining.Sublist rest := by
  obtain ⟨-, -, hrem⟩ := selectItem_step cfg pk (c, {}) it
  obtain ⟨-, -, l', hrem', hsub⟩ := select_pass cfg pk rest (selectItem cfg pk (c, {}) it)
  have hnone := hrem.resolve_right fun h => h.2 rfl
  rw [foldl_cons, hrem', hnone]
  exact hsub

lemma failAll_pass (pk : GoString) (err : GoError E) (l : List ItemId) (c : Coord K V E) :
    let c' := l.foldl (fun c it => { c.failItem pk it err with queuedItems := c.queuedItems - 1 }) c
    Elsewhere pk c c' ∧ (c'.part pk).pending = (c.part pk).pending := by
  induction l generalizing c with
  | nil => exact ⟨.refl pk c, rfl⟩
  | cons it rest ih =>
    obtain ⟨hframe, hpend⟩ := ih { c.failItem pk it err with queuedItems := c.queuedItems - 1 }
    exact ⟨((failItem_elsewhere it err).queuedItems _).trans hframe, hpend.trans (failItem_view pk it err).1⟩

omit [Inhabited V] in
lemma startBatch_pass (pk : GoString) (reason : FlushReason) (a : Selection K) (req : BatchRequest K) :
    Elsewhere pk c (c.startBatch pk reason a req) ∧
      ((c.startBatch pk reason a req).part pk).pending = (c.part pk).pending := by
  have hpart : ∀ k, (c.startBatch pk reason a req).part k = (c.setPart pk { c.part pk with
      bytes := wrap64 ((c.part pk).bytes - a.bytes), weight := wrap64 ((c.part pk).weight - a.weight) }).part k :=
    fun k => rfl
  refine ⟨⟨⟨rfl, fun it => ?_, fun it => ?_, fun it => ?_, fun w x h => ⟨x, h, .refl x⟩, ?_, rfl⟩, fun k hk => ?_⟩, ?_⟩
  · show (if it ∈ a.selected then _ else c.items it : QItem K).size = _
    split <;> rfl
  · show (if it ∈ a.selected then _ else c.items it : QItem K).enqueue = _
    split <;> rfl
  · show (if it ∈ a.selected then _ else c.items it : QItem K).waiters = _
    split <;> rfl
  · show c.activeProvider ≤ c.activeProvider + 1
    omega
  · rw [hpart, part_setPart, if_neg hk]
  · rw [hpart, part_setPart, if_pos rfl]

/-- **`dispatchBatch` takes the first item out of the queue** and keeps the order of what it leaves. -/
theorem dispatchBatch_pending (cfg : BindingConfig K) (c : Coord K V E) (pk : GoString) (reason : FlushReason) :
    Elsewhere pk c (c.dispatchBatch cfg pk reason) ∧
      ((c.dispatchBatch cfg pk reason).part pk).pending.Sublist (c.part pk).pending.tail := by
  obtain ⟨hframe, -, -⟩ := select_pass cfg pk (c.part pk).pending (c, {})
  have hsub : ((c.part pk).pending.foldl (selectItem cfg pk) (c, {})).2.remaining.Sublist (c.part pk).pending.tail := by
    cases hl : (c.part pk).pending with
    | nil => exact .slnil
    | cons it rest => exact select_head it rest c
  unfold dispatchBatch
  dsimp only
  set s := (c.part pk).pending.foldl (selectItem cfg pk) (c, {}) with hs
  set c₁ := s.1.setPart pk { s.1.part pk with pending := s.2.remaining } with hc₁
  have hframe₁ : Elsewhere pk c c₁ := hframe.trans (setPart_elsewhere _)
  have hpend₁ : (c₁.part pk).pending = s.2.remaining := by rw [hc₁, part_setPart, if_pos rfl]
  rw [← hpend₁] at hsub
  split
  · exact ⟨hframe₁, hsub⟩
  split
  · rename_i err _
    obtain ⟨hfail, hpend⟩ := failAll_pass pk (.contract cfg.opID err.error) s.2.selected c₁
    exact ⟨hframe₁.trans hfail, by rw [hpend]; exact hsub⟩
  rename_i req _
  obtain ⟨hstart, hpend⟩ := startBatch_pass pk reason s.2 req
  exact ⟨hframe₁.trans hstart, by rw [hpend]; exact hsub⟩

lemma dispatchBatch_shorter (cfg : BindingConfig K) (reason : FlushReason) (h : (c.part pk).pending.length ≠ 0) :
    ((c.dispatchBatch cfg pk reason).part pk).pending.length < (c.part pk).pending.length := by
  have hle := (dispatchBatch_pending cfg c pk reason).2.length_le
  rw [length_tail] at hle
  omega

end

/-! ## The loop of `schedule` -/

section

variable (c : Coord K V E)

/-- Retiring a partition leaves every queue as it is or empties it. -/
lemma maybeRetire_sublist (pk k : GoString) : ((c.maybeRetire pk).part k).pending.Sublist (c.part k).pending := by
  unfold maybeRetire
  dsimp only
  split
  · rw [part_erase rfl]
    split
    · exact nil_sublist _
    · exact .refl _
  · exact .refl _

lemma unqueue_sublist (pk k : GoString) (it : ItemId) :
    ((c.unqueue pk it).part k).pending.Sublist (c.part k).pending := by
  have hpart : ((c.unqueue pk it).part k) = _ := part_setPart c pk k _
  rw [hpart]
  split
  · rename_i hk
    rw [hk]
    rw [removeActive_pending]
    exact erase_sublist
  · exact .refl _

lemma prune_sublist (pk k : GoString) : ((c.prune pk).part k).pending.Sublist (c.part k).pending := by
  have hloop : ∀ (l : List ItemId) (c : Coord K V E),
      ((pruneLoop pk l c).part k).pending.Sublist (c.part k).pending := by
    intro l
    induction l with
    | nil => exact fun c => .refl _
    | cons it rest ih =>
      intro c
      unfold pruneLoop
      split
      · exact ((ih _).trans (maybeRetire_sublist _ pk k)).trans (unqueue_sublist c pk k it)
      · exact .refl _
  exact hloop _ c

end

section

variable [Inhabited V]

/-- **The inner loop of `schedule` ends by its own tests**: with at least as many turns as the queue is long, further
turns change nothing. -/
theorem dispatchLoop_turns (pk : GoString) (force : Bool) (now : Time) :
    ∀ (n m : ℕ) (c : Coord K V E), (c.part pk).pending.length ≤ n → (c.part pk).pending.length ≤ m →
      dispatchLoop cfg pk force now n c = dispatchLoop cfg pk force now m c := by
  have hstop : ∀ (m : ℕ) (c : Coord K V E), (c.part pk).pending.length = 0 → dispatchLoop cfg pk force now m c = c := by
    intro m c hc
    cases m with
    | zero => rfl
    | succ m =>
      unfold dispatchLoop
      rw [if_neg (by omega)]
  intro n
  induction n with
  | zero =>
    intro m c hn _
    rw [hstop m c (by omega), hstop 0 c (by omega)]
  | succ n ih =>
    intro m c hn hm
    cases m with
    | zero => rw [hstop _ c (by omega), hstop 0 c (by omega)]
    | succ m =>
      unfold dispatchLoop
      split
      · dsimp only
        split
        · rfl
        rename_i hne
        split
        · rfl
        -- the turn has made the queue shorter
        have hprune := (prune_sublist c pk pk).length_le
        have hlt := fun reason => dispatchBatch_shorter cfg reason hne
        exact ih m _ (by have := hlt ‹_›; omega) (by have := hlt ‹_›; omega)
      · rfl

end

/-! ## What happens to a queue -/

/-- A queue loses items and gains new ones at its end. -/
structure QueueFlow (pk : GoString) (c c' : Coord K V E) : Prop where
  seq : c.requestSeq ≤ c'.requestSeq
  queue : ∃ l new, (c'.part pk).pending = l ++ new ∧ l.Sublist (c.part pk).pending ∧
    new.Nodup ∧ ∀ x ∈ new, c.requestSeq < x ∧ c'.requestSeq ≥ x

lemma QueueFlow.of_sublist (hseq : c'.requestSeq = c.requestSeq)
    (h : (c'.part pk).pending.Sublist (c.part pk).pending) : QueueFlow pk c c' :=
  ⟨hseq.ge, _, [], (append_nil _).symm, h, nodup_nil, nofun⟩

lemma QueueFlow.of_eq (hseq : c'.requestSeq = c.requestSeq) (h : (c'.part pk).pending = (c.part pk).pending) :
    QueueFlow pk c c' :=
  .of_sublist hseq (h ▸ .refl _)

lemma QueueFlow.refl (pk : GoString) (c : Coord K V E) : QueueFlow pk c c := .of_eq rfl rfl

lemma QueueFlow.trans {c''} (h : QueueFlow pk c c') (h' : QueueFlow pk c' c'') : QueueFlow pk c c'' := by
  obtain ⟨l, new, hl, hsub, hnd, hnew⟩ := h.queue
  obtain ⟨l', new', hl', hsub', hnd', hnew'⟩ := h'.queue
  rw [hl] at hsub'
  obtain ⟨a, b, rfl, ha, hb⟩ := sublist_append_iff.1 hsub'
  refine ⟨h.seq.trans h'.seq, a, b ++ new', by rw [hl', append_assoc], ha.trans hsub, ?_, fun x hx => ?_⟩
  · refine nodup_append.2 ⟨hnd.sublist hb, hnd', fun x hx y hy => ?_⟩
    have h1 : x ≤ c'.requestSeq := (hnew x (hb.subset hx)).2
    have h2 : c'.requestSeq < y := (hnew' y hy).1
    exact Nat.ne_of_lt (h1.trans_lt h2)
  have hseq := h.seq
  have hseq' := h'.seq
  rcases mem_append.1 hx with hx | hx
  · have h1 := hnew x (hb.subset hx)
    omega
  · have h1 := hnew' x hx
    omega

section

variable [Inhabited V]

/-- What is done to another partition, or to the queue of this one as a whole. -/
lemma dispatchBatch_flow (c : Coord K V E) (k : GoString) (reason : FlushReason) :
    QueueFlow pk c (c.dispatchBatch cfg k reason) := by
  obtain ⟨hframe, hsub⟩ := dispatchBatch_pending cfg c k reason
  by_cases hk : pk = k
  · rw [hk]
    exact .of_sublist hframe.requestSeq (hsub.trans (tail_sublist _))
  · exact .of_eq hframe.requestSeq (by rw [hframe.part pk hk])

end

lemma maybeRetire_flow (c : Coord K V E) (k : GoString) : QueueFlow pk c (c.maybeRetire k) := by
  refine .of_sublist ?_ (maybeRetire_sublist c k pk)
  unfold maybeRetire
  dsimp only
  split <;> rfl

lemma removePendingItem_flow (c : Coord K V E) (k : GoString) (it : ItemId) :
    QueueFlow pk c (c.removePendingItem k it) := by
  have h : QueueFlow pk c (c.unqueue k it) := .of_sublist rfl (unqueue_sublist c k pk it)
  exact h.trans (maybeRetire_flow _ k)

lemma prune_flow (c : Coord K V E) (k : GoString) : QueueFlow pk c (c.prune k) := by
  have hloop : ∀ (l : List ItemId) (c : Coord K V E), QueueFlow pk c (pruneLoop k l c) := by
    intro l
    induction l with
    | nil => exact fun c => .refl pk c
    | cons it rest ih =>
      intro c
      unfold pruneLoop
      split
      · exact (removePendingItem_flow c k it).trans (ih _)
      · exact .refl pk c
  exact hloop _ c

/-- A partition is replaced by one with the same queue. -/
lemma QueueFlow.of_part {k p} (hseq : c'.requestSeq = c.requestSeq)
    (hpart : c'.part pk = if pk = k then p else c.part pk) (hp : p.pending = (c.part k).pending) :
    QueueFlow pk c c' := by
  refine .of_eq hseq ?_
  rw [hpart]
  split
  · rename_i hk
    rw [hp, hk]
  · rfl

lemma enqueue_flow (c : Coord K V E) (now : Time) (req : SubmitReq K) : QueueFlow pk c (c.enqueue now req) := by
  have hseq : (c.enqueue now req).requestSeq = c.requestSeq + 1 := rfl
  have hpart : ((c.enqueue now req).part pk) = _ := part_setPart (c.setItem _ _) req.part.encoded pk _
  by_cases hk : pk = req.part.encoded
  · refine ⟨by omega, (c.part pk).pending, [c.requestSeq + 1], ?_, .refl _, nodup_singleton _, fun x hx => ?_⟩
    · rw [hpart, if_pos hk, hk]
    · rw [mem_singleton.1 hx, hseq]
      exact ⟨Nat.lt_succ_self _, le_rfl⟩
  refine ⟨by omega, (c.part pk).pending, [], ?_, .refl _, nodup_nil, nofun⟩
  rw [hpart, if_neg hk, append_nil]
  rfl

lemma handleSubmit_flow (c : Coord K V E) (now : Time) (req : SubmitReq K) :
    QueueFlow pk c (c.handleSubmit cfg now req) := by
  refine handleSubmit_rule (P := QueueFlow pk c) now (.refl pk c) (fun _ hnone _ => ?_)
    (fun _ _ h _ => h.trans (.of_eq rfl rfl)) (fun _ h _ => h.trans (.of_eq rfl rfl)) (fun it _ _ _ => ?_)
    (fun c₁ h _ _ _ _ => h.trans (enqueue_flow c₁ now req))
  · refine .of_part rfl (part_setPart c _ pk _) ?_
    rw [part_of_none c hnone]
  -- a further waiter of an item
  have hpart : (c.join req it).part pk = _ := part_setPart (c.setItem it _) req.part.encoded pk _
  exact .of_part rfl hpart rfl

lemma abandon_flow (c : Coord K V E) (it : ItemId) : QueueFlow pk c (c.abandon it) := by
  have hview : (c.abandon it).requestSeq = c.requestSeq ∧ (c.abandon it).partitions = c.partitions := by
    unfold Coord.abandon
    split
    · exact ⟨rfl, rfl⟩
    dsimp only
    split
    · unfold Coord.cancelBatch
      split <;> exact ⟨rfl, rfl⟩
    · exact ⟨rfl, rfl⟩
  exact .of_eq hview.1 (by rw [part_congr hview.2])

lemma handleCancel_flow (c : Coord K V E) (cr : CancelReq) : QueueFlow pk c (c.handleCancel cr) := by
  have hleave : ∀ it, QueueFlow pk c (c.cancelWaiter cr.part it cr.waiterID) := fun it =>
    .of_part rfl (part_setPart ((c.deactivate cr.waiterID).setItem it _) cr.part pk _) rfl
  exact handleCancel_rule (fun _ => .of_eq rfl rfl) (fun _ => .refl pk c)
    (fun it _ _ _ => (hleave it).trans (removePendingItem_flow _ cr.part it))
    (fun it _ _ _ => (hleave it).trans (abandon_flow _ it)) (fun it _ _ => hleave it)

/-! ## Any run of operations -/

/-- What the coordinator can be made to do in any order: dispatch a batch of some partition, prune one, take a
submission or a cancellation. -/
inductive QueueOp (K : Type) where
  | dispatch (k : GoString) (reason : FlushReason)
  | prune (k : GoString)
  | submit (now : Time) (req : SubmitReq K)
  | cancel (cr : CancelReq)

section

variable [Inhabited V]

variable (cfg : BindingConfig K)

def QueueOp.apply (c : Coord K V E) : QueueOp K → Coord K V E
  | .dispatch k reason => c.dispatchBatch cfg k reason
  | .prune k => c.prune k
  | .submit now req => c.handleSubmit cfg now req
  | .cancel cr => c.handleCancel cr

/-- The operations one after another. -/
def Coord.perform (c : Coord K V E) (ops : List (QueueOp K)) : Coord K V E :=
  ops.foldl (QueueOp.apply cfg) c

/-- How many batches of the partition the operations dispatch. -/
def dispatches (pk : GoString) (ops : List (QueueOp K)) : ℕ := ops.countP fun op => match op with
    | .dispatch k _ => k = pk
    | _ => false

lemma apply_flow (pk : GoString) (c : Coord K V E) (op : QueueOp K) : QueueFlow pk c (op.apply cfg c) := by
  cases op with
  | dispatch k reason => exact dispatchBatch_flow c k reason
  | prune k => exact prune_flow c k
  | submit now req => exact handleSubmit_flow c now req
  | cancel cr => exact handleCancel_flow c cr

end

/-- The queue holds each item once, and no item that is still to be numbered. -/
structure QueueOK (pk : GoString) (c : Coord K V E) : Prop where
  nodup : (c.part pk).pending.Nodup
  known : ∀ x ∈ (c.part pk).pending, c.requestSeq ≥ x

lemma QueueFlow.ok (h : QueueFlow pk c c') (hc : QueueOK pk c) : QueueOK pk c' := by
  obtain ⟨l, new, hl, hsub, hnd, hnew⟩ := h.queue
  refine ⟨?_, ?_⟩
  · rw [hl]
    refine nodup_append.2 ⟨hc.nodup.sublist hsub, hnd, fun x hx y hy => ?_⟩
    have h1 : x ≤ c.requestSeq := hc.known x (hsub.subset hx)
    have h2 : c.requestSeq < y := (hnew y hy).1
    exact Nat.ne_of_lt (h1.trans_lt h2)
  intro x hx
  rw [hl] at hx
  rcases mem_append.1 hx with hx | hx
  · exact (hc.known x (hsub.subset hx)).trans h.seq
  · exact (hnew x hx).2

/-- In a part of a list without repetitions nothing stands further back than in the list. -/
lemma idxOf_sublist {α : Type} [DecidableEq α] {l m : List α} {x : α} (h : l.Sublist m) (hm : m.Nodup)
    (hx : x ∈ l) : l.idxOf x ≤ m.idxOf x := by
  induction h with
  | slnil => cases hx
  | @cons l m a h ih =>
    have hne : a ≠ x := by
      intro he
      rw [he] at hm
      exact (nodup_cons.1 hm).1 (h.subset hx)
    rw [idxOf_cons_ne m hne]
    exact (ih (nodup_cons.1 hm).2 hx).trans (Nat.le_succ _)
  | @cons_cons l m a h ih =>
    by_cases ha : a = x
    · rw [ha, idxOf_cons_self]
      exact Nat.zero_le _
    rw [idxOf_cons_ne m ha, idxOf_cons_ne l ha]
    have hxl : x ∈ l := (mem_cons.1 hx).resolve_left fun he => ha he.symm
    exact Nat.succ_le_succ (ih (nodup_cons.1 hm).2 hxl)

variable {it : ItemId}

/-- An item the coordinator has numbered and that is queued afterwards was queued before, no nearer to the front. -/
lemma QueueFlow.position (h : QueueFlow pk c c') (hc : QueueOK pk c) (hknown : c.requestSeq ≥ it)
    (hit : it ∈ (c'.part pk).pending) :
    it ∈ (c.part pk).pending ∧ (c'.part pk).pending.idxOf it ≤ (c.part pk).pending.idxOf it := by
  obtain ⟨l, new, hl, hsub, -, hnew⟩ := h.queue
  have hmem : it ∈ l := by
    rw [hl] at hit
    refine (mem_append.1 hit).resolve_right fun hit => ?_
    have := (hnew it hit).1
    omega
  refine ⟨hsub.subset hmem, ?_⟩
  rw [hl, idxOf_append_of_mem hmem]
  exact idxOf_sublist hsub hc.nodup hmem

variable [Inhabited V]

/-- **Each dispatch of the partition brings a queued item one place nearer.** -/
theorem dispatch_position (hc : QueueOK pk c) {it : ItemId} {reason : FlushReason}
    (hit : it ∈ ((c.dispatchBatch cfg pk reason).part pk).pending) :
    ((c.dispatchBatch cfg pk reason).part pk).pending.idxOf it + 1 ≤ (c.part pk).pending.idxOf it := by
  have hsub := (dispatchBatch_pending cfg c pk reason).2
  cases hq : (c.part pk).pending with
  | nil =>
    rw [hq] at hsub
    exact absurd (hsub.subset hit) not_mem_nil
  | cons x rest =>
    rw [hq] at hsub
    have hnd : (x :: rest).Nodup := hq ▸ hc.nodup
    have hne : x ≠ it := by
      intro he
      rw [he] at hnd
      exact (nodup_cons.1 hnd).1 (hsub.subset hit)
    rw [idxOf_cons_ne rest hne]
    exact Nat.succ_le_succ (idxOf_sublist hsub (nodup_cons.1 hnd).2 hit)

/-- One operation, with the dispatches of the partition counted. -/
lemma apply_position (hc : QueueOK pk c) (hknown : c.requestSeq ≥ it) {op}
    (hit : it ∈ ((op.apply cfg c).part pk).pending) : it ∈ (c.part pk).pending ∧
      ((op.apply cfg c).part pk).pending.idxOf it + dispatches pk [op] ≤ (c.part pk).pending.idxOf it := by
  obtain ⟨hmem, hle⟩ := (apply_flow cfg pk c op).position hc hknown hit
  refine ⟨hmem, ?_⟩
  cases op with
  | dispatch k reason =>
    by_cases hk : k = pk
    · subst hk
      have hone : dispatches k [(.dispatch k reason : QueueOp K)] = 1 := by simp [dispatches]
      rw [hone]
      exact dispatch_position hc hit
    have hnone : dispatches pk [(.dispatch k reason : QueueOp K)] = 0 := by simp [dispatches, hk]
    rw [hnone]
    exact hle
  | prune _ | submit _ _ | cancel _ => exact hle

/-- Over a run, an item that is still queued has come nearer by one place with each dispatch. -/
lemma perform_position : ∀ (ops : List (QueueOp K)) (c : Coord K V E), QueueOK pk c → c.requestSeq ≥ it →
      it ∈ ((c.perform cfg ops).part pk).pending → it ∈ (c.part pk).pending ∧
        ((c.perform cfg ops).part pk).pending.idxOf it + dispatches pk ops ≤ (c.part pk).pending.idxOf it := by
  intro ops
  induction ops with
  | nil => exact fun c _ _ hit => ⟨hit, le_rfl⟩
  | cons op ops ih =>
    intro c hc hknown hit
    have hflow := apply_flow cfg pk c op
    obtain ⟨hmid, hrest⟩ := ih (op.apply cfg c) (hflow.ok hc) (hknown.trans hflow.seq) hit
    obtain ⟨hmem, hfirst⟩ := apply_position hc hknown hmid
    refine ⟨hmem, ?_⟩
    have hcount : dispatches pk (op :: ops) = dispatches pk [op] + dispatches pk ops := by
      unfold dispatches
      rw [← countP_append, singleton_append]
    have hrun : c.perform cfg (op :: ops) = (op.apply cfg c).perform cfg ops := rfl
    rw [hcount, hrun]
    omega

variable [Inhabited K]

lemma reach_queueOK {es} (h : (coordinator cfg).Reach es c) (pk : GoString) : QueueOK pk c := by
  have hS := (reach_ok h).struct
  exact ⟨(nodup_append.1 (hS.queue_nodup pk)).1, fun x hx => (hS.range pk x (hS.queue_indexed hx)).2⟩

/-- **No starvation.** Whatever the state, `dispatchBatch` takes the first item off a queue that is not empty and keeps
the order of what it leaves. From a reachable state, over any operations, an item with `k` items ahead of it is gone
once `k + 1` batches of its partition have been dispatched. The loop of `schedule` ends: each turn makes the queue
shorter, and beyond as many turns as there are items nothing changes. -/
theorem no_starvation (cfg : BindingConfig K) (pk : GoString) :
    (∀ (c : Coord K V E) (reason : FlushReason) (it : ItemId) (rest : List ItemId),
      (c.part pk).pending = it :: rest → ((c.dispatchBatch cfg pk reason).part pk).pending.Sublist rest) ∧
    (∀ (es : List (Move K V E)) (c : Coord K V E), (coordinator cfg).Reach es c →
      ∀ (ahead behind : List ItemId) (it : ItemId) (ops : List (QueueOp K)),
        (c.part pk).pending = ahead ++ it :: behind → ahead.length + 1 ≤ dispatches pk ops →
          it ∉ ((c.perform cfg ops).part pk).pending) ∧
    (∀ (c : Coord K V E) (reason : FlushReason), (c.part pk).pending ≠ [] →
      ((c.dispatchBatch cfg pk reason).part pk).pending.length < (c.part pk).pending.length) ∧
    (∀ (c : Coord K V E) (force : Bool) (now : Time) (turns : ℕ), (c.part pk).pending.length ≤ turns →
      dispatchLoop cfg pk force now turns c = dispatchLoop cfg pk force now (c.part pk).pending.length c) := by
  refine ⟨?_, ?_, ?_, ?_⟩
  · intro c reason it rest hq
    have hsub := (dispatchBatch_pending cfg c pk reason).2
    rwa [hq] at hsub
  · intro es c hreach ahead behind it ops hq hcount hit
    have hc := reach_queueOK hreach pk
    have hmem : it ∈ (c.part pk).pending := by
      rw [hq]
      exact mem_append_right _ mem_cons_self
    obtain ⟨-, hle⟩ := perform_position ops c hc (hc.known it hmem) hit
    have hidx : (c.part pk).pending.idxOf it = ahead.length := by
      have hnd := hc.nodup
      rw [hq] at hnd
      have hnot : it ∉ ahead := fun h => (nodup_append.1 hnd).2.2 it h it mem_cons_self rfl
      rw [hq, idxOf_append_of_notMem hnot, idxOf_cons_self, Nat.add_zero]
    omega
  · intro c reason hne
    exact dispatchBatch_shorter cfg reason (length_pos_iff.2 hne).ne'
  · intro c force now turns hturns
    exact dispatchLoop_turns pk force now turns _ c hturns le_rfl

/-- Batches of weight two at most. -/
def narrow : BindingConfig ℕ := { demo .manual with maxBatchWeight := 2 }

/-- A first batch holds the only provider slot; behind it three requests wait, the second of weight two. -/
def narrowRun : List (Move ℕ ℕ ℕ) :=
  [demoTurn (.submit 0 { demoReq [1] 1 1 with weight := 2 } none), demoSubmit [1] 2 2 none,
    demoTurn (.submit 0 { demoReq [1] 3 3 with weight := 2 } none), demoSubmit [1] 4 4 none]

/-- Two batches are dispatched, with a further small request in between. -/
def narrowOps : List (QueueOp ℕ) := [.dispatch [1] .manual, .submit 0 (demoReq [1] 5 5), .dispatch [1] .manual]

set_option maxRecDepth 4000 in
/-- The heavy request is overtaken once, and gone with the second batch. -/
theorem no_starvation_narrow :
    3 ∈ ((((coordinator narrow).run Coord.init narrowRun).perform narrow (narrowOps.take 2)).part [1]).pending ∧
    3 ∉ ((((coordinator narrow).run Coord.init narrowRun).perform narrow narrowOps).part [1]).pending :=
  ⟨by decide, (no_starvation narrow [1]).2.1 narrowRun _ (System.reach_of_allowed (by decide)) [2] [4] 3 narrowOps
      (by decide) (by decide)⟩

end

end BatchWeaver
