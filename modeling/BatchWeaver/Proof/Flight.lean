import BatchWeaver.Proof.Delivery

/-!
# Batches in flight

* `Act.batch`: what an action can do to a batch in flight and to the counters of its items.
* `Pristine`: a batch as `dispatchBatch` left it; `move_pristine`: at the end of the turn
  that started it, it still is.
* `submitCalls_acts`: the states in which a move calls `handleSubmit` are reached by actions.
-/

namespace BatchWeaver

open List Coord

variable {K V E : Type}

/-- Flags and sequence numbers go one way, effects are only added. -/
structure Forward (c c' : Coord K V E) : Prop where
  requestSeq : c.requestSeq ≤ c'.requestSeq
  out : c.out ⊆ c'.out
  batchSeq : c.batchSeq ≤ c'.batchSeq
  closing : c.closing = true → c'.closing = true
  engineDone : c.engineDone = true → c'.engineDone = true

/-- **What an action does to the batch `id`**, which then is `b'`. -/
inductive BatchStep (jn : Coord K V E → SubmitReq K → ItemId → Prop) (c c' : Coord K V E)
    (id : BatchId) (b' : BatchInflight) : Prop
  | keep : c.inflight.lookup id = some b' → (∀ x ∈ b'.items, (c'.items x).activeWaiters = (c.items x).activeWaiters) →
      BatchStep jn c c' id b'
  /-- A submission joins an item of the batch. -/
  | join (req : SubmitReq K) (it : ItemId) : c.inflight.lookup id = some b' → it ∈ b'.items → jn c req it →
      (∀ x ∈ b'.items, (c'.items x).activeWaiters =
        (c.items x).activeWaiters + if x = it then 1 else 0) → BatchStep jn c c' id b'
  /-- A waiter of an item is canceled, others remain. -/
  | leave (it : ItemId) : c.inflight.lookup id = some b' → it ∈ b'.items → 1 < (c.items it).activeWaiters →
      (∀ x ∈ b'.items, (c'.items x).activeWaiters =
        (c.items x).activeWaiters - if x = it then 1 else 0) → BatchStep jn c c' id b'
  /-- The last waiter of an item is canceled. -/
  | abandon (it : ItemId) (b : BatchInflight) : c.inflight.lookup id = some b → b' = { b with
        activeWaiters := b.activeWaiters - 1
        ctx := { b.ctx with canceled := if b.activeWaiters - 1 = 0 then true else b.ctx.canceled } } →
      it ∈ b'.items → (c.items it).activeWaiters = 1 →
      (∀ x ∈ b'.items, (c'.items x).activeWaiters =
        (c.items x).activeWaiters - if x = it then 1 else 0) → BatchStep jn c c' id b'
  /-- The engine's cancellation cancels the batch. -/
  | shut (b : BatchInflight) : c.engineDone = true → c.inflight.lookup id = some b →
      b' = { b with ctx := { b.ctx with canceled := true } } →
      (∀ x ∈ b'.items, (c'.items x).activeWaiters = (c.items x).activeWaiters) →
      BatchStep jn c c' id b'
  /-- The batch is dispatched. -/
  | start : c.inflight.lookup id = none → c.batchSeq < id →
      b'.activeWaiters = (b'.items.map fun x => (c'.items x).activeWaiters).sum →
      b'.ctx = ⟨c.batchContext b'.items, false⟩ →
      (∀ x ∈ b'.items, 0 < (c'.items x).activeWaiters ∧ (c'.items x).waiters = (c.items x).waiters) →
      c'.waiters = c.waiters →
      (∀ x ∈ b'.items, b'.minSeq ≤ ((c'.items x).seq : WithTop ℕ)) → BatchStep jn c c' id b'

section

variable {cfg : BindingConfig K} {es : List (Move K V E)}
  {jn : JoinRule K V E} {g g' : Held K} {c c' : Coord K V E}

section

variable [Inhabited V]

section

variable (hok : CoordOK cfg es g c)
include hok

section

variable (ha : Act cfg es jn g c g' c')
include ha

lemma Act.requestSeq_le : c.requestSeq ≤ c'.requestSeq := by
  rcases ha.still hok with hs | ⟨req, rest, x, -, -, -, -, rfl⟩ | ⟨now, req, rest, -, -, -, rfl⟩
  · exact hs.requestSeq
  · exact le_rfl
  · exact Nat.le_succ _

/-- What an action does to flags and to the number of batches. -/
lemma Act.flags : c.batchSeq ≤ c'.batchSeq ∧ (c.closing = true → c'.closing = true) ∧
      (c.engineDone = true → c'.engineDone = true) ∧ (c'.done = c.done ∨ c.closing = true ∧ c.drained = true) := by
  cases ha with
  | sched hs =>
    cases hs with
    | quiet hq => exact ⟨hq.batchSeq.ge, hq.closing, hq.engineDone, .inl hq.done⟩
    | tooLarge pk l l' it _ _ _ =>
      rw [resolve_eq hok.nodup]
      exact ⟨le_rfl, id, id, .inl rfl⟩
    | dispatch pk l reason a _ _ _ _ _ =>
      rw [dispatch_eq]
      exact ⟨Nat.le_succ _, id, id, .inl rfl⟩
    | _ => exact ⟨le_rfl, id, id, .inl rfl⟩
  | resolve pk l l' it r _ _ _ =>
    rw [resolve_eq hok.nodup]
    exact ⟨le_rfl, id, id, .inl rfl⟩
  | shut pk it _ _ =>
    rw [deliverAll_eq hok.nodup]
    exact ⟨le_rfl, id, id, .inl rfl⟩
  | cancelFlight pk it w b _ _ _ hl _ =>
    rw [cancelFlight_eq hl]
    exact ⟨le_rfl, id, id, .inl rfl⟩
  | cancelCtx bid _ =>
    obtain ⟨_, _, hl⟩ := c.cancelBatch_eq bid
    rw [hl]
    exact ⟨le_rfl, id, id, .inl rfl⟩
  | stop hc hd => exact ⟨le_rfl, id, id, .inr ⟨hc, hd⟩⟩
  | _ => exact ⟨le_rfl, id, id, .inl rfl⟩

lemma Act.forward : Forward c c' :=
  have h := ha.flags hok
  ⟨ha.requestSeq_le hok, (ha.out_prefix hok.nodup).subset, h.1, h.2.1, h.2.2.1⟩

end

lemma Forward.acts (ha : Acts cfg es jn g c g' c') : Forward c c' :=
  (ha.keeps (I := fun g₁ c₁ => CoordOK cfg es g₁ c₁ ∧ Forward c c₁) (fun _ _ _ _ ha hI =>
      have h := ha.forward hI.1
      ⟨hI.1.act ha, hI.2.requestSeq.trans h.requestSeq, fun _ he => h.out (hI.2.out he),
        hI.2.batchSeq.trans h.batchSeq, fun hc => h.closing (hI.2.closing hc),
        fun hd => h.engineDone (hI.2.engineDone hd)⟩)
    ⟨hok, le_rfl, fun _ he => he, le_rfl, id, id⟩).2

end

end

variable {b' : BatchInflight} {m : Move K V E} {n : ℕ}

variable {id : BatchId}

lemma BatchStep.of_eq (hb : c'.inflight.lookup id = some b') (hf : c'.inflight = c.inflight)
    (hi : c'.items = c.items) : BatchStep jn c c' id b' :=
  .keep (by rw [← hf]; exact hb) fun x _ => by rw [hi]

variable {it : ItemId}

lemma activeWaiters_update {y} (x : ItemId) : (Function.update c.items it y x).activeWaiters =
      if x = it then y.activeWaiters else (c.items x).activeWaiters := by
  rw [Function.update_apply]
  split <;> rfl

section

variable [Inhabited V]

section

variable (hok : CoordOK cfg es g c)
include hok

omit [Inhabited V] in
lemma cancels_lt {pk w} (hc : Cancels es c pk it w) : 0 < (c.items it).activeWaiters := by
  have h1 := waiting_pos hc.waiter hc.active
  have h2 := hok.waiter.count it
  omega

lemma SchedAct.batch (ha : SchedAct cfg g c g' c') (hb : c'.inflight.lookup id = some b') :
    BatchStep jn c c' id b' := by
  cases ha with
  | quiet hq => exact .of_eq hb hq.inflight hq.items
  | tooLarge pk l l' it hg hl _ =>
    rw [resolve_eq hok.nodup] at hb ⊢
    exact .of_eq hb rfl rfl
  | dispatch pk l reason a hg hs hne hl hslot =>
    rw [dispatch_eq] at hb ⊢
    rcases Table.of_lookup_insert hb with ⟨rfl, rfl⟩ | ⟨-, hb⟩
    · have hsel : ∀ x ∈ a.selected, (c.items x).activeWaiters =
          (if x ∈ a.selected then { c.items x with dispatched := true, batchID := c.batchSeq + 1 }
            else c.items x : QItem K).activeWaiters := by
        intro x hx
        rw [if_pos hx]
      refine .start (hok.struct.inflight_new) (Nat.lt_succ_self _) ?_ rfl ?_ rfl ?_
      · exact congrArg List.sum (map_congr_left hsel)
      · intro x hx
        dsimp only at hx ⊢
        rw [if_pos hx]
        exact ⟨hok.waiter.pos pk x (hl x (hs.perm.mem_iff.2 (mem_append_left _ hx))), rfl⟩
      intro x hx
      dsimp only at hx ⊢
      rw [if_pos hx]
      exact hs.minSeq_le x hx
    refine .keep hb fun x hx => ?_
    dsimp only
    split <;> rfl
  | _ => exact .of_eq hb rfl rfl

/-- **Every action does one of these to a batch in flight.** -/
theorem Act.batch (ha : Act cfg es jn g c g' c') {id : BatchId} (hb : c'.inflight.lookup id = some b') :
    BatchStep jn c c' id b' := by
  -- an item is in the batch or its counter does not matter
  have other : ∀ {it : ItemId}, c.inflight.lookup id = some b' → it ∉ b'.items →
      (∀ x, x ≠ it → (c'.items x).activeWaiters = (c.items x).activeWaiters) →
      BatchStep jn c c' id b' := by
    intro it h1 h2 h3
    refine .keep h1 fun x hx => h3 x ?_
    rintro rfl
    exact h2 hx
  cases ha with
  | sched hs => exact hs.batch hok hb
  | join req rest it hg hcl hj hjn =>
    by_cases hit : it ∈ b'.items
    · refine .join req it hb hit hjn fun x _ => ?_
      refine (activeWaiters_update x).trans ?_
      split
      · rename_i hx; rw [hx]
      · exact (add_zero _).symm
    · refine other hb hit fun x hx => ?_
      rw [items_join_ne hx]
  | enqueue now req rest hg hq hcl =>
    have hn : c.requestSeq + 1 ∉ b'.items := by
      intro h
      exact absurd (hok.struct.range _ _ (hok.struct.batch_indexed hb h)).2 (Nat.not_succ_le_self _)
    exact other hb hn fun x hx => by rw [items_enqueue_ne hx]
  | cancelKeep pk it w hc hne =>
    have hpos := cancels_lt hok hc
    have hupd : ∀ x, ((c.cancelWaiter pk it w).items x).activeWaiters =
        (c.items x).activeWaiters - if x = it then 1 else 0 := by
      intro x
      refine (activeWaiters_update x).trans ?_
      split
      · rename_i hx; rw [hx]
      · exact (sub_zero _).symm
    by_cases hit : it ∈ b'.items
    · exact .leave it hb hit (by omega) fun x _ => hupd x
    · exact other hb hit fun x hx => by rw [hupd, if_neg hx, sub_zero]
  | cancelDrop pk it w hg hc h1 hd =>
    rw [cancelDrop_eq] at hb ⊢
    have hn : it ∉ b'.items := by
      intro h
      rw [(hok.struct.flying id b' it hb h).1] at hd
      cases hd
    refine .keep hb fun x hx => ?_
    have hne : x ≠ it := by rintro rfl; exact hn hx
    exact (activeWaiters_update x).trans (if_neg hne)
  | cancelFlight pk it w b hc h1 hd hl hin =>
    have hupd : ∀ x, (((c.cancelWaiter pk it w).abandon it).items x).activeWaiters =
        (c.items x).activeWaiters - if x = it then 1 else 0 := by
      intro x
      rw [cancelFlight_eq hl]
      refine (activeWaiters_update x).trans ?_
      split
      · rename_i hx; rw [hx]
      · exact (sub_zero _).symm
    have hb₁ := hb
    rw [cancelFlight_eq hl] at hb₁
    rcases Table.of_lookup_insert hb₁ with ⟨he, rfl⟩ | ⟨he, hb₁⟩
    · refine .abandon it b (by rw [he]; exact hl) rfl hin h1 fun x _ => hupd x
    · have hn : it ∉ b'.items := fun h => he (hok.struct.flying id b' it hb₁ h).2.symm
      exact other hb₁ hn fun x hx => by rw [hupd, if_neg hx, sub_zero]
  | finish bid b hg hl =>
    obtain ⟨-, hb⟩ := Table.of_lookup_erase hb
    exact .keep hb fun _ _ => rfl
  | resolve pk l l' it r hg hl _ =>
    rw [resolve_eq hok.nodup] at hb ⊢
    exact .of_eq hb rfl rfl
  | shut pk it _ _ =>
    rw [deliverAll_eq hok.nodup] at hb ⊢
    exact .of_eq hb rfl rfl
  | cancelCtx bid he =>
    cases hl : c.inflight.lookup bid with
    | none => rw [cancelBatch_none hl] at hb ⊢; exact .of_eq hb rfl rfl
    | some b =>
      rw [cancelBatch_some hl] at hb ⊢
      rcases Table.of_lookup_insert hb with ⟨hid, rfl⟩ | ⟨-, hb⟩
      · exact .shut b he (by rw [hid]; exact hl) rfl fun _ _ => rfl
      · exact .keep hb fun _ _ => rfl
  | _ => exact .of_eq hb rfl rfl

end

end

/-- The sequence number of a batch is its own or one that its items have reached. -/
lemma BatchStep.minSeq (h : BatchStep jn c c' id b') :
    (∃ b, c.inflight.lookup id = some b ∧ b'.items = b.items ∧ b'.minSeq = b.minSeq) ∨
      ∀ x ∈ b'.items, b'.minSeq ≤ ((c'.items x).seq : WithTop ℕ) := by
  cases h with
  | abandon _ b hb heq _ _ _ | shut b _ hb heq _ => subst heq; exact .inl ⟨b, hb, rfl, rfl⟩
  | start _ _ _ _ _ _ hmin => exact .inr hmin
  | _ => exact .inl ⟨b', ‹_›, rfl, rfl⟩

/-! ## A batch at the end of the turn that started it -/

lemma batchContext_congr {its} (hi : ∀ it ∈ its, (c'.items it).waiters = (c.items it).waiters)
    (hw : ∀ it ∈ its, ∀ w ∈ (c.items it).waiters, c'.waiters w = c.waiters w) :
    c'.batchContext its = c.batchContext its := by
  have hitem : ∀ it ∈ its, c'.itemLatestDeadline it = c.itemLatestDeadline it := by
    intro it hit
    unfold itemLatestDeadline
    rw [hi it hit]
    refine congrArg (fun r : Time × Bool × Bool => (r.1, r.2.2 && r.2.1)) (foldl_ext _ _ _ fun r w hw' => ?_)
    rw [hw it hit w hw']
  unfold batchContext
  have hf := foldl_ext (fun (r : Time × Bool × Bool) it =>
      let d := c'.itemLatestDeadline it
      if !d.2 then (r.1, false, r.2.2)
      else (if r.1 < d.1 then d.1 else r.1, r.2.1, true)) (fun r it =>
      let d := c.itemLatestDeadline it
      if !d.2 then (r.1, false, r.2.2)
      else (if r.1 < d.1 then d.1 else r.1, r.2.1, true)) (0, true, false)
    fun _ it hit => by rw [hitem it hit]
  exact congrArg (fun r : Time × Bool × Bool => if r.2.2 && r.2.1 then some r.1 else none) hf

/-- The batch is as `dispatchBatch` left it. -/
structure Pristine (c : Coord K V E) (b : BatchInflight) : Prop where
  sum : b.activeWaiters = (b.items.map fun it => (c.items it).activeWaiters).sum
  pos : ∀ it ∈ b.items, 0 < (c.items it).activeWaiters
  ctx : b.ctx = ⟨c.batchContext b.items, false⟩

/-- All batches numbered beyond `n` are. -/
def PristineFrom (n : ℕ) (c : Coord K V E) : Prop :=
  ∀ (id : ℕ) b, n < id → c.inflight.lookup id = some b → Pristine c b

variable {b : BatchInflight}

lemma Pristine.frame (h : Pristine c b) (hi : ∀ it ∈ b.items, (c'.items it).crew = (c.items it).crew)
    (hw : ∀ it ∈ b.items, ∀ w ∈ (c.items it).waiters, c'.waiters w = c.waiters w) : Pristine c' b := by
  have hcnt : ∀ it ∈ b.items, (c'.items it).activeWaiters = (c.items it).activeWaiters :=
    fun it hit => congrArg Prod.snd (hi it hit)
  refine ⟨?_, fun it hit => ?_, ?_⟩
  · rw [h.sum]
    exact congrArg List.sum (map_congr_left fun it hit => (hcnt it hit).symm)
  · rw [hcnt it hit]; exact h.pos it hit
  · rw [batchContext_congr (fun it hit => congrArg Prod.fst (hi it hit)) hw]
    exact h.ctx

lemma PristineFrom.frame (h : PristineFrom n c) (hf : c'.inflight = c.inflight) (hi : c'.items = c.items)
    (hw : c'.waiters = c.waiters) : PristineFrom n c' := by
  intro id b hn hb
  rw [hf] at hb
  exact (h id b hn hb).frame (fun it _ => by rw [hi]) (fun _ _ w _ => by rw [hw])

/-- No batch is numbered beyond `batchSeq`. -/
lemma PristineFrom.of_le (hok : CoordOK cfg es g c) (hn : c.batchSeq ≤ n) : PristineFrom n c := by
  intro id b hid hb
  exact absurd (hok.struct.batch id b hb).2.1 (not_le.2 (lt_of_le_of_lt hn hid))

lemma BatchStep.pristine (hok : CoordOK cfg es g c) {id} (h : BatchStep jn c c' id b')
    (hid : c.batchSeq < id) : Pristine c' b' := by
  have old : ∀ b, c.inflight.lookup id ≠ some b := by
    intro b hb
    exact absurd (hok.struct.batch id b hb).2.1 (not_le.2 hid)
  cases h with
  | start h1 h2 h3 h4 h5 h6 =>
    refine ⟨h3, fun it hit => (h5 it hit).1, ?_⟩
    rw [h4, batchContext_congr (fun it hit => (h5 it hit).2) (fun _ _ w _ => by rw [h6])]
  | _ => exact absurd ‹_› (old _)

section

variable [Inhabited V]

lemma PristineFrom.sched (h : PristineFrom n c) (hok : CoordOK cfg es g c) (ha : SchedAct cfg g c g' c') :
    PristineFrom n c' := by
  intro id b' hn hb
  by_cases hid : c.batchSeq < id
  · have hstep : BatchStep anyJoin c c' id b' := ha.batch hok hb
    exact hstep.pristine hok hid
  revert hb
  cases ha with
  | quiet hq => exact h.frame hq.inflight hq.items hq.waiters id b' hn
  | hold pk hg => exact h id b' hn
  | release _ _ _ _ _ _ | retire _ _ _ _ =>
    exact fun hb => (h id b' hn hb).frame (fun _ _ => rfl) (fun _ _ _ _ => rfl)
  | tooLarge pk l l' it hg hl hp =>
    rw [resolve_eq hok.nodup]
    intro hb
    refine (h id b' hn hb).frame (fun _ _ => rfl) fun x hx w hw => ?_
    have hne : w ∉ (c.items it).waiters := by
      intro hw'
      obtain rfl := hok.waiter.own x it w hw hw'
      have h1 := hok.struct.queued pk x hp
      rw [(hok.struct.flying id b' x hb hx).1] at h1
      cases h1
    exact if_neg hne
  | dispatch pk l reason a hg hs hne hl hslot =>
    rw [dispatch_eq]
    intro hb
    rw [Table.lookup_insert_if] at hb
    split at hb
    · omega
    refine (h id b' hn hb).frame (fun x _ => ?_) (fun _ _ _ _ => rfl)
    dsimp only
    split <;> rfl

end

/-! ## Handlers that start nothing and answer no one -/

/-- The batches started so far, the open barriers and the dynamic settings. -/
def Coord.tally (c : Coord K V E) : ℕ × List Barrier × Option DynamicSettings := (c.batchSeq, c.barriers, c.dyn)

lemma deliverAll_tally (it : ItemId) (r : Result V E) : (c.deliverAll it r).tally = c.tally := by
  refine foldl_view tally (fun c w => ?_) _ c
  unfold deliver
  split <;> rfl

lemma maybeRetire_tally (pk : GoString) : (c.maybeRetire pk).tally = c.tally := by
  unfold maybeRetire
  dsimp only
  split <;> rfl

lemma cancelBatch_tally (id : BatchId) : (c.cancelBatch id).tally = c.tally := by
  unfold Coord.cancelBatch
  split <;> rfl

lemma handleSubmit_tally (now : Time) (req : SubmitReq K) : (c.handleSubmit cfg now req).tally = c.tally :=
  handleSubmit_rule (P := fun c₁ => c₁.tally = c.tally) (Q := fun c₁ => c₁.tally = c.tally) now rfl
    (fun _ _ _ => rfl) (fun _ _ h _ => h) (fun _ h _ => h) (fun _ _ _ _ => rfl) (fun _ h _ _ _ _ => h)

lemma handleCancel_tally (cr : CancelReq) : (c.handleCancel cr).tally = c.tally := by
  refine handleCancel_rule (P := fun c₁ => c₁.tally = c.tally) (fun _ => rfl) (fun _ => rfl)
    (fun _ _ _ _ => maybeRetire_tally _) (fun it _ _ _ => ?_) (fun _ _ _ => rfl)
  unfold Coord.abandon
  split
  · rfl
  dsimp only
  split
  · exact cancelBatch_tally _
  · rfl

variable [Inhabited V]

lemma settle_tally (b : BatchInflight) (done : CompleteReq V E) : (c.settle cfg b done).tally = c.tally := by
  have hitems : ∀ (known : Bool) (c : Coord K V E) (f : ItemId → Result V E),
      (let c₁ := b.items.foldl (fun c it =>
        let c := c.deliverAll it (f it)
        if known then c.dropItem b.partition it else c) c
      if known then c₁.maybeRetire b.partition else c₁).tally = c.tally := by
    intro known c f
    have hfold := foldl_view (f := fun (c : Coord K V E) it =>
      let c := c.deliverAll it (f it)
      if known then c.dropItem b.partition it else c) tally
      (fun c it => by
        cases known
        · exact deliverAll_tally it (f it)
        · exact deliverAll_tally it (f it)) b.items c
    cases known with
    | false => exact hfold
    | true => exact (maybeRetire_tally _).trans hfold
  unfold settle
  split
  · exact hitems _ _ _
  split
  · exact hitems _ _ _
  unfold distribute
  split
  · exact hitems _ _ _
  · exact hitems _ _ _

lemma handleComplete_tally (now : WaiterId → Time) (done : CompleteReq V E) :
    (c.handleComplete cfg now done).tally = c.tally := by
  unfold handleComplete
  split
  · rfl
  unfold retryBlocked
  rw [foldl_view tally fun c req => handleSubmit_tally _ _]
  exact settle_tally _ _

lemma handleEngineCancel_tally : c.handleEngineCancel.batchSeq = c.batchSeq ∧ c.handleEngineCancel.dyn = c.dyn := by
  unfold handleEngineCancel
  rw [failBarriers_eq]
  set c₁ : Coord K V E := { c with closing := true } with hc₁
  have h1 : (c₁.allIndexed.foldl (fun c it => c.deliverAll it (.error .engineClosed)) c₁).tally =
      c₁.tally := foldl_view tally (fun _ it => deliverAll_tally it _) _ c₁
  have h2 := (foldl_view tally (fun _ id => cancelBatch_tally id) (c₁.allIndexed.foldl
    (fun c it => c.deliverAll it (.error .engineClosed)) c₁).inflight.keys _).trans h1
  exact ⟨congrArg Prod.fst h2, congrArg (·.2.2) h2⟩

section

variable (hok : CoordOK cfg es {} c)
include hok

section

variable (hl : m.Legal cfg es c)
include hl

/-- **Only `schedule` starts batches.** What holds as long as none is started, is kept by the steps
of `schedule` and says nothing about barriers, holds at the end of the move. -/
theorem move_scheduled {P : Coord K V E → Prop}
    (hold : ∀ c₁, Acts cfg (es ++ [m]) anyJoin {} c {} c₁ → c₁.batchSeq = c.batchSeq → P c₁)
    (hsched : ∀ g₁ c₁ g₂ c₂, CoordOK cfg (es ++ [m]) g₁ c₁ → SchedAct cfg g₁ c₁ g₂ c₂ → P c₁ → P c₂)
    (hframe : ∀ c₁ c₂ : Coord K V E, c₂.items = c₁.items → c₂.waiters = c₁.waiters → c₂.inflight = c₁.inflight → c₂.dyn = c₁.dyn → (∀ eff ∈ c₂.out, eff ∈ c₁.out ∨ eff.answers ≠ none) → P c₁ → P c₂) :
    P (c.move cfg m) := by
  have hmove := move_acts hok hl joinsOnly_true
  have hscheds : ∀ c₁ force now, CoordOK cfg (es ++ [m]) {} c₁ → P c₁ → P (c₁.schedule cfg force now) := by
    intro c₁ force now hok₁ h
    exact ((schedule_acts hok₁ rfl force now).keeps (I := fun g c => CoordOK cfg (es ++ [m]) g c ∧ P c)
      (fun _ _ _ _ ha hI => ⟨hI.1.sched ha, hsched _ _ _ _ hI.1 ha hI.2⟩) ⟨hok₁, h⟩).2
  cases m with
  | turn t =>
    have hacts := handle_acts hok hl.2 joinsOnly_true
    have hok₁ := (hok.mono (.turn t)).acts hacts
    -- an event that has nothing scheduled
    have hstill : ∀ {c₁ : Coord K V E}, c.handle cfg t.event = c₁ → c₁.batchSeq = c.batchSeq →
        P (c.handle cfg t.event) := by
      rintro c₁ rfl hn
      exact hold _ hacts hn
    have hhandle : P (c.handle cfg t.event) := by
      obtain ⟨event, now', ctxErr⟩ := t
      cases event with
      | submit now req dl => exact hstill rfl (congrArg Prod.fst (handleSubmit_tally now req))
      | cancel cr => exact hstill rfl (congrArg Prod.fst (handleCancel_tally cr))
      | complete now done => exact hstill rfl (congrArg Prod.fst (handleComplete_tally now done))
      | engine => exact hstill rfl handleEngineCancel_tally.1
      | timer now =>
        have hq : SchedAct cfg {} c {} { c with timerActive := false } := SchedAct.quiet { Quiet.refl cfg c with }
        exact hscheds _ false now ((hok.mono _).sched hq) (hold _ (Act.sched hq).one rfl)
      | control now ctrl =>
        show P (c.handleControl cfg now ctrl)
        unfold handleControl
        have hq := Quiet.close cfg c (ctrl.kind = .close)
        exact hframe (schedule cfg _ true now) _ rfl rfl rfl rfl (fun _ he => .inl he)
          (hscheds _ true now ((hok.mono _).sched (.quiet hq)) (hold _ (Act.sched (.quiet hq)).one hq.batchSeq))
    show P (c.turn cfg t)
    rcases turn_cases cfg c t with h | ⟨-, h⟩
    · rw [h]
      have h1 := hscheds _ false t.now hok₁ hhandle
      unfold finishTurn
      dsimp only
      set c₁ := (c.handle cfg t.event).schedule cfg false t.now with hc₁
      have hans : ∀ eff ∈ (c₁.tryCompleteBarriers t.ctxErr).out, eff ∈ c₁.out ∨ eff.answers ≠ none := by
        intro eff he
        rw [tryCompleteBarriers_eq] at he
        refine (mem_append.1 he).imp id fun he => ?_
        obtain ⟨b, -, hb⟩ := mem_filterMap.1 he
        obtain ⟨err, rfl, -⟩ := answerTo_some hb
        exact Option.some_ne_none _
      have h2 : P (c₁.tryCompleteBarriers t.ctxErr) := by
        refine hframe c₁ _ ?_ ?_ ?_ ?_ hans h1 <;> rw [tryCompleteBarriers_eq]
      split
      · rw [failBarriers_eq]
        refine hframe (c₁.tryCompleteBarriers t.ctxErr) _ rfl rfl rfl rfl (fun eff he => ?_) h2
        refine (mem_append.1 he).imp id fun he => ?_
        obtain ⟨b, -, rfl⟩ := mem_map.1 he
        exact Option.some_ne_none _
      · exact h2
    · rw [h]
      exact hframe (c.handle cfg t.event) _ rfl rfl rfl rfl (fun _ he => .inl he) hhandle
  | _ => exact hold _ hmove rfl

/-- **A batch started in a move is, at its end, as `dispatchBatch` left it.** -/
theorem move_pristine : PristineFrom c.batchSeq (c.move cfg m) :=
  move_scheduled hok hl (fun _ ha hn => .of_le ((hok.mono m).acts ha) hn.le)
    (fun _ _ _ _ hok ha h => h.sched hok ha) (fun _ _ hi hw hf _ _ h => h.frame hf hi hw)

/-- A batch that a move starts has a new number. -/
lemma move_new {id} (hnone : c.inflight.lookup id = none)
    (hb : (c.move cfg m).inflight.lookup id = some b) : c.batchSeq < id := by
  by_contra hle
  have hgone : Gone c id := ⟨hnone, not_lt.1 hle⟩
  have := ((move_acts hok hl joinsOnly_true).gone (hok.mono m) hgone).1
  rw [hb] at this
  cases this

end

end

/-! ## The states of the calls of `handleSubmit` -/

lemma retryCalls_acts (hg : g.queue = none) (now : WaiterId → Time) : ∀ (reqs : List (SubmitReq K)) (c : Coord K V E),
      (∀ x ∈ retryCalls cfg now reqs c, ∀ it, x.1.joinTarget cfg x.2 = some it → jn x.1 x.2 it) →
      ∀ x ∈ retryCalls cfg now reqs c, ∃ g', g'.queue = none ∧ (∃ rest, g'.reqs = x.2 :: rest) ∧
        Acts cfg es jn { g with reqs := reqs } c g' x.1 := by
  intro reqs
  induction reqs with
  | nil => intro c _ x hx; cases hx
  | cons req rest ih =>
    intro c hjn x hx
    rcases mem_cons.1 hx with rfl | hx
    · exact ⟨{ g with reqs := req :: rest }, hg, ⟨rest, rfl⟩, Relation.ReflTransGen.refl⟩
    obtain ⟨g', hg', hr', h⟩ := ih _ (fun y hy => hjn y (mem_cons_of_mem _ hy)) x hx
    exact ⟨g', hg', hr', Relation.ReflTransGen.trans
      (handleSubmit_acts (g := { g with reqs := req :: rest }) hg rfl (now req.waiter)
        (hjn (c, req) (mem_cons_self ..))) h⟩

/-- **A move calls `handleSubmit` in states that its actions lead to.** -/
theorem submitCalls_acts (hok : CoordOK cfg es {} c) (hl : m.Legal cfg es c) (hjn : JoinsOnly cfg jn c m) :
    ∀ x ∈ submitCalls cfg c m,
      ∃ g', g'.queue = none ∧ (∃ rest, g'.reqs = x.2 :: rest) ∧ Acts cfg (es ++ [m]) jn {} c g' x.1 := by
  intro x hx
  cases m with
  | turn t =>
    obtain ⟨event, now', ctxErr⟩ := t
    cases event with
    | submit now req dl =>
      obtain rfl := mem_singleton.1 hx
      have hsub : req ∈ submitted (es ++ [.turn ⟨.submit now req dl, now', ctxErr⟩]) := mem_filterMap_snoc rfl
      exact ⟨⟨none, [req]⟩, rfl, ⟨[], rfl⟩, (Act.spawn req dl hl.2.1 hsub rfl).one⟩
    | complete now done =>
      unfold JoinsOnly at hjn
      unfold submitCalls at hx hjn
      dsimp only at hx hjn
      cases hb : c.inflight.lookup done.batchID with
      | none => rw [hb] at hx; cases hx
      | some b =>
        rw [hb] at hx hjn
        have hdone : done ∈ completed (es ++ [.turn ⟨.complete now done, now', ctxErr⟩]) := mem_filterMap_snoc rfl
        obtain ⟨g₁, c₁, h1, -, -, h2⟩ := settle_acts (hok.mono _) rfl hdone hb
        obtain ⟨g', hg', hr', h3⟩ := retryCalls_acts (g := {}) rfl now _ _ hjn x hx
        exact ⟨g', hg', hr', ((h1.one.trans h2).trans (Act.unpark rfl).one).trans h3⟩
    | _ => cases hx
  | _ => cases hx

end

end BatchWeaver
