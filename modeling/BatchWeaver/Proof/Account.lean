import BatchWeaver.Proof.Dedup

/-!
# Queue totals

A partition keeps the total weight and the total bytes of its queue in two `int64`s. The
queued items are the items of the index that are not dispatched; every action that changes
them changes the totals alike, but for the failure of an item that alone exceeds a batch limit:
`failItem` leaves both totals as they are.

* `Totals.act`: every other action keeps the totals.
* `queue_totals_exact`: in every run whose submissions each fit into a batch the totals are
  those of the queue.
* `totals_leak`: a run with one that does not.
-/

namespace BatchWeaver

open List Coord

variable {K V E : Type} {cfg : BindingConfig K} {es : List (Move K V E)} {c c' : Coord K V E}
  {req : SubmitReq K} {it : ItemId}

/-- The two quantities that queues and batches are limited by. -/
inductive Measure where
  | weight
  | bytes

variable {x : QItem K}

namespace Measure

def ofItem : Measure → QItem K → ℤ
  | weight => QItem.weight
  | bytes => QItem.bytes

/-- The total a partition keeps. -/
def ofPart : Measure → PartitionState → ℤ
  | weight => PartitionState.weight
  | bytes => PartitionState.bytes

def ofReq : Measure → SubmitReq K → ℤ
  | weight => SubmitReq.weight
  | bytes => SubmitReq.bytes

lemma ofItem_load (h : x.load = req.load) (d : Measure) : d.ofItem x = d.ofReq req := by
  cases d with
  | weight => exact congrArg (·.2.1) h
  | bytes => exact congrArg (·.2.2) h

lemma ofItem_congr {y : QItem K} (h : x.load = y.load) (d : Measure) : d.ofItem x = d.ofItem y := by
  cases d with
  | weight => exact congrArg (·.2.1) h
  | bytes => exact congrArg (·.2.2) h

end Measure

/-- The items of an index that are not dispatched. -/
def Coord.undispatched (c : Coord K V E) (pk : GoString) : List ItemId :=
  (c.part pk).indexed.filter fun it => !(c.items it).dispatched

/-- **The totals of every partition are those of its undispatched items**, modulo 2^64. -/
def Totals (c : Coord K V E) : Prop :=
  ∀ (d : Measure) pk, d.ofPart (c.part pk) = wrap64 (c.total d.ofItem (c.undispatched pk))

/-- No item of an index alone exceeds a batch limit. -/
def NoneTooLarge (cfg : BindingConfig K) (c : Coord K V E) : Prop :=
  ∀ pk it, it ∈ (c.part pk).indexed → Coord.itemTooLarge cfg (c.items it) = false

section Sums

lemma wrap64_sub (x y z : ℤ) (h : x = z + y) : wrap64 (wrap64 x - wrap64 y) = wrap64 z := by
  unfold wrap64
  rw [Int.bmod_sub_bmod, Int.sub_bmod_bmod, h, Int.add_sub_cancel]

variable {f : QItem K → ℤ}

lemma Coord.total_perm {l l'} (h : l.Perm l') : c.total f l = c.total f l' :=
  (h.map _).sum_eq

lemma Coord.total_congr {l} (h : ∀ it ∈ l, f (c'.items it) = f (c.items it)) : c'.total f l = c.total f l := by
  unfold Coord.total
  rw [map_congr_left h]

lemma Coord.total_cons (f : QItem K → ℤ) (it : ItemId) (l : List ItemId) :
    c.total f (it :: l) = f (c.items it) + c.total f l := by
  unfold Coord.total
  rw [map_cons, sum_cons]

end Sums

section Frame

/-- What the totals read of an item. -/
def QItem.stock (x : QItem K) : Bool × UInt64 × ℤ × ℤ := (x.dispatched, x.load)

variable {pk : GoString}

/-- The total over the undispatched items of a partition whose index only changes its order. -/
lemma total_undispatched (hidx : ((c'.part pk).indexed).Perm (c.part pk).indexed)
    (hi : ∀ it ∈ (c.part pk).indexed, (c'.items it).stock = (c.items it).stock) (d : Measure) :
    c'.total d.ofItem (c'.undispatched pk) = c.total d.ofItem (c.undispatched pk) := by
  have hfil : (c.part pk).indexed.filter (fun it => !(c'.items it).dispatched) = c.undispatched pk :=
    filter_congr fun it hit => by rw [show (c'.items it).dispatched = (c.items it).dispatched
      from congrArg Prod.fst (hi it hit)]
  have hperm : (c'.undispatched pk).Perm (c.undispatched pk) := by
    rw [← hfil]
    exact hidx.filter _
  rw [total_perm hperm]
  refine total_congr fun it hit => Measure.ofItem_congr ?_ d
  exact congrArg Prod.snd (hi it (mem_of_mem_filter hit))

/-- **Whatever keeps the indexes, the loads and the totals keeps the invariant.** -/
theorem Totals.frame (h : Totals c) (hp : ∀ (d : Measure) pk, d.ofPart (c'.part pk) = d.ofPart (c.part pk))
    (hidx : ∀ pk, (c'.part pk).indexed = (c.part pk).indexed)
    (hi : ∀ it, (c'.items it).stock = (c.items it).stock) : Totals c' := by
  intro d pk
  rw [hp, total_undispatched (by rw [hidx]) (fun it _ => hi it)]
  exact h d pk

/-- The frame rule for a partition replaced by one with the same index and totals. -/
lemma Totals.insert (h : Totals c) {p}
    (hc : c'.partitions = c.partitions.insert pk p) (ha : p.active = (c.part pk).active)
    (hd : ∀ d : Measure, d.ofPart p = d.ofPart (c.part pk))
    (hi : ∀ it, (c'.items it).stock = (c.items it).stock) : Totals c' := by
  have hpart := part_insert hc
  refine h.frame (fun d k => ?_) (fun k => ?_) hi
  · rw [hpart]
    split
    · rename_i he; rw [he]; exact hd d
    · rfl
  rw [hpart]
  split
  · rename_i he
    unfold PartitionState.indexed
    rw [ha, he]
  · rfl

lemma Totals.same (h : Totals c) (hc : c'.partitions = c.partitions)
    (hi : ∀ it, (c'.items it).stock = (c.items it).stock) : Totals c' :=
  h.frame (fun d pk => by rw [part_congr hc]) (fun pk => by rw [part_congr hc]) hi

end Frame

/-! ## Items enter and leave the queue -/

section Steps

variable {jn : JoinRule K V E} {g g' : Held K}

lemma total_enqueue (hS : StructOK cfg g c) (now : Time) (req : SubmitReq K) (d : Measure)
    (pk : GoString) : (c.enqueue now req).total d.ofItem ((c.enqueue now req).undispatched pk) =
      c.total d.ofItem (c.undispatched pk) + if pk = req.part.encoded then d.ofReq req else 0 := by
  have hold : ∀ it ∈ (c.part pk).indexed, ((c.enqueue now req).items it).stock = (c.items it).stock :=
    fun it hit => by rw [items_enqueue_ne (hS.fresh_item hit)]
  by_cases hpk : pk = req.part.encoded
  · subst hpk
    -- the new item is at the head of the index, up to order
    have hperm : ((c.enqueue now req).undispatched req.part.encoded).Perm
        ((c.requestSeq + 1) :: (c.part req.part.encoded).indexed.filter
          fun it => !((c.enqueue now req).items it).dispatched) := by
      refine ((indexed_enqueue_perm c now req).filter _).trans ?_
      rw [filter_cons_of_pos (by rw [items_enqueue_self]; rfl)]
    have hfil : (c.part req.part.encoded).indexed.filter
        (fun it => !((c.enqueue now req).items it).dispatched) = c.undispatched req.part.encoded :=
      filter_congr fun it hit => by
        rw [show ((c.enqueue now req).items it).dispatched = (c.items it).dispatched
          from congrArg Prod.fst (hold it hit)]
    have htot : (c.enqueue now req).total d.ofItem (c.undispatched req.part.encoded) =
        c.total d.ofItem (c.undispatched req.part.encoded) :=
      total_congr fun it hit =>
        Measure.ofItem_congr (congrArg Prod.snd (hold it (mem_of_mem_filter hit))) d
    have hnew : d.ofItem ((c.enqueue now req).items (c.requestSeq + 1)) = d.ofReq req := by
      rw [items_enqueue_self]
      cases d <;> rfl
    rw [total_perm hperm, total_cons, hfil, hnew, htot, if_pos rfl, add_comm]
  · have hidx : ((c.enqueue now req).part pk) = c.part pk := by rw [part_enqueue, if_neg hpk]
    rw [total_undispatched (by rw [hidx]) hold, if_neg hpk, add_zero]

lemma Totals.enqueue (h : Totals c) (hS : StructOK cfg g c) (now : Time) (req : SubmitReq K) :
    Totals (c.enqueue now req) := by
  intro d pk
  rw [total_enqueue hS, part_enqueue]
  by_cases hpk : pk = req.part.encoded
  · have hsum : wrap64 (c.total d.ofItem (c.undispatched pk) + d.ofReq req) =
        wrap64 (d.ofPart (c.part pk) + d.ofReq req) := by rw [h d pk, wrap64_add_wrap64]
    rw [if_pos hpk, if_pos hpk, hsum]
    cases d <;> rfl
  · rw [if_neg hpk, if_neg hpk, add_zero]
    exact h d pk

variable {pk : GoString}

section

variable (h : Totals c)
include h

/-- **An item leaves the index**, and the totals if it was queued. -/
theorem Totals.remove (hS : StructOK cfg g c) {p : PartitionState} (hit : it ∈ (c.part pk).indexed)
    (hc : c'.partitions = c.partitions.insert pk p) (hact : p.active = unindex (c.part pk).active (c.items it).hash it)
    (hd : ∀ d : Measure, d.ofPart p = wrap64 (d.ofPart (c.part pk) - if (c.items it).dispatched then 0 else d.ofItem (c.items it)))
    (hi : ∀ y, (c'.items y).stock = (c.items y).stock) : Totals c' := by
  intro d k
  have hpart := part_insert hc
  by_cases hk : k = pk
  · subst hk
    have hidx : (c.part k).indexed.Perm (it :: p.indexed) := by
      unfold PartitionState.indexed
      rw [hact]
      exact gather_unindex (hS.mem_bucket hit)
    have hund : c'.undispatched k = p.indexed.filter fun y => !(c.items y).dispatched := by
      unfold undispatched
      rw [hpart, if_pos rfl]
      exact filter_congr fun y _ => by
        rw [show (c'.items y).dispatched = (c.items y).dispatched from congrArg Prod.fst (hi y)]
    have htot : c'.total d.ofItem (c'.undispatched k) =
        c.total d.ofItem (p.indexed.filter fun y => !(c.items y).dispatched) := by
      rw [hund]
      exact total_congr fun y _ => Measure.ofItem_congr (congrArg Prod.snd (hi y)) d
    -- before, the queue was what is left and, if it was queued, the item
    have hbefore : c.total d.ofItem (c.undispatched k) = c.total d.ofItem
        (p.indexed.filter fun y => !(c.items y).dispatched) +
          if (c.items it).dispatched then 0 else d.ofItem (c.items it) := by
      unfold undispatched
      rw [total_perm (hidx.filter fun y => !(c.items y).dispatched)]
      cases hdis : (c.items it).dispatched with
      | true =>
        rw [filter_cons_of_neg (by rw [hdis]; decide)]
        simp
      | false =>
        rw [filter_cons_of_pos (by rw [hdis]; decide), total_cons]
        simp [add_comm]
    rw [hpart, if_pos rfl, hd, h d k, htot, hbefore]
    unfold wrap64
    rw [Int.bmod_sub_bmod, Int.add_sub_cancel]
  · rw [hpart, if_neg hk, total_undispatched (by rw [hpart, if_neg hk]) (fun y _ => hi y)]
    exact h d k

lemma Totals.resolve (hok : CoordOK cfg es g c) {l l'} (r : Result V E)
    (hg : g.queue = some (pk, l)) (hl : l.Perm (it :: l')) (hdis : (c.items it).dispatched = true) :
    Totals ((c.deliverAll it r).dropItem pk it) := by
  have hin := hok.struct.held_indexed hg (hl.mem_iff.2 (mem_cons_self ..))
  rw [resolve_eq hok.nodup]
  refine h.remove hok.struct hin rfl rfl (fun d => ?_) (fun _ => rfl)
  -- a dispatched item is not in the totals
  have hd := h d pk
  rw [if_pos hdis, Int.sub_zero]
  have hsame : wrap64 (d.ofPart (c.part pk)) = d.ofPart (c.part pk) := by
    rw [hd]
    exact Int.bmod_bmod
  rw [hsame]
  cases d <;> rfl

/-- **The selected items leave the queue and the totals.** -/
theorem Totals.dispatch (hS : StructOK cfg g c) {l : List ItemId} (reason : FlushReason) {a : Selection K}
    (hg : g.queue = some (pk, l)) (hs : Selected c l a) (hl : ∀ it ∈ l, it ∈ (c.part pk).pending)
    (hch : Chosen cfg c a) :
    Totals ((c.setPart pk { c.part pk with pending := a.remaining }).startBatch pk reason a ⟨a.items⟩) := by
  rw [dispatch_eq]
  set items' : ItemId → QItem K := fun it =>
    if it ∈ a.selected then { c.items it with dispatched := true, batchID := c.batchSeq + 1 }
    else c.items it with hitems'
  have hload : ∀ it, (items' it).load = (c.items it).load := by
    intro it
    rw [hitems']
    dsimp only
    split <;> rfl
  have hdis : ∀ it, (items' it).dispatched = (decide (it ∈ a.selected) || (c.items it).dispatched) := by
    intro it
    rw [hitems']
    dsimp only
    split
    · rename_i hit; simp [hit]
    · rename_i hit; simp [hit]
  have hq : g.queueOf c pk = l := by rw [Held.queueOf_some hg, if_pos rfl]
  have hsel : ∀ it ∈ a.selected, it ∈ l := fun it hit =>
    hs.perm.mem_iff.2 (mem_append_left _ hit)
  have hin : ∀ it ∈ a.selected, it ∈ (c.part pk).indexed := fun it hit =>
    hS.held_indexed hg (hsel it hit)
  intro d k
  rw [part_insert rfl]
  by_cases hk : k = pk
  · subst hk
    -- the undispatched items were the selected ones and those that still are
    have hnd : (c.undispatched k).Nodup := (hS.nodup k).filter _
    have hselnd : a.selected.Nodup := by
      have hql := (nodup_append.1 (hS.queue_nodup k)).1
      rw [hq] at hql
      exact (nodup_append.1 (hs.perm.nodup_iff.1 hql)).1
    have hfst : ((c.undispatched k).filter fun it => decide (it ∈ a.selected)).Perm a.selected := by
      refine (perm_ext_iff_of_nodup (hnd.filter _) hselnd).2 fun it => ?_
      rw [mem_filter, decide_eq_true_eq]
      refine ⟨fun h => h.2, fun hit => ⟨mem_filter.2 ⟨hin it hit, ?_⟩, hit⟩⟩
      rw [hS.queued k it (hl it (hsel it hit))]
      rfl
    have hsnd : ((c.part k).indexed.filter fun it => !(items' it).dispatched) =
        (c.undispatched k).filter fun it => !decide (it ∈ a.selected) := by
      unfold undispatched
      rw [filter_filter]
      refine filter_congr fun it _ => ?_
      rw [hdis, Bool.not_or]
    have hsplit : c.total d.ofItem (c.undispatched k) =
        c.total d.ofItem ((c.part k).indexed.filter fun it => !(items' it).dispatched) +
          c.total d.ofItem a.selected := by
      rw [hsnd, add_comm, ← total_perm hfst, ← total_append]
      exact total_perm (filter_append_perm _ _).symm
    have hd := h d k
    rw [if_pos rfl]
    have htot : ∀ l : List ItemId, (l.map fun it => d.ofItem (items' it)).sum = c.total d.ofItem l := by
      intro l
      unfold Coord.total
      rw [map_congr_left fun it _ => Measure.ofItem_congr (hload it) d]
    have hund : ∀ c₁ : Coord K V E, c₁.items = items' →
        (c₁.part k).indexed = (c.part k).indexed → c₁.total d.ofItem (c₁.undispatched k) =
          c.total d.ofItem ((c.part k).indexed.filter fun it => !(items' it).dispatched) := by
      intro c₁ h1 h2
      unfold undispatched
      rw [h1, h2, ← htot]
      unfold Coord.total
      rw [h1]
    rw [hund _ rfl (by rw [part_insert rfl, if_pos rfl]; rfl)]
    cases d with
    | weight =>
      have hw : (c.part k).weight = _ := hd
      rw [hw, hch.weight]
      exact wrap64_sub _ _ _ hsplit
    | bytes =>
      have hw : (c.part k).bytes = _ := hd
      show wrap64 ((c.part k).bytes - a.bytes) = _
      rw [hw, hch.bytes]
      exact wrap64_sub _ _ _ hsplit
  rw [if_neg hk]
  refine (h d k).trans (congrArg wrap64 (total_undispatched ?_ ?_ d).symm)
  · rw [part_insert (c := c) rfl, if_neg hk]
  intro it hit
  -- the selected items are of another partition
  have hns : it ∉ a.selected := fun hs' => hk (hS.home k pk it hit (hin it hs'))
  show (items' it).stock = _
  unfold QItem.stock
  rw [hload, hdis]
  simp [hns]

variable [Inhabited V]

lemma Totals.sched (hok : CoordOK cfg es g c) (hfit : NoneTooLarge cfg c) (ha : SchedAct cfg g c g' c') :
    Totals c' := by
  cases ha with
  | quiet hq => exact h.same hq.partitions (fun it => by rw [hq.items])
  | hold pk hg => exact h
  | release pk l l' hg hp hl => exact h.insert rfl rfl (fun d => by cases d <;> rfl) (fun _ => rfl)
  | tooLarge pk l l' it hg hl hit hbig =>
    have hin := hok.struct.held_indexed hg (hl.mem_iff.2 (mem_cons_self ..))
    rw [hfit pk it hin] at hbig
    cases hbig
  | dispatch pk l reason a hg hs hne hl hslot hch => exact h.dispatch hok.struct reason hg hs hl hch
  | retire pk hg hlive hact =>
    have hempty := hok.struct.indexed_nil hlive
    refine h.frame (fun d k => ?_) (fun k => ?_) (fun _ => rfl)
    · rw [hok.struct.part_retire]
      split
      · rename_i he
        subst he
        -- an empty queue has totals zero
        have hd := h d k
        unfold undispatched at hd
        rw [hempty] at hd
        rw [hd]
        cases d <;> rfl
      · rfl
    rw [hok.struct.part_retire]
    split
    · rename_i he; rw [he, hempty]; rfl
    · rfl

/-- **Every action but the failure of a too large item keeps the totals.** -/
theorem Totals.act (hok : CoordOK cfg es g c) (hfit : NoneTooLarge cfg c) (ha : Act cfg es jn g c g' c') :
    Totals c' := by
  cases ha with
  | sched hs => exact h.sched hok hfit hs
  | openPart part hn =>
    have hp : c.part part.encoded = PartitionState.new part := part_of_none c hn
    refine h.insert rfl ?_ (fun d => ?_) (fun _ => rfl)
    · rw [hp]
    · rw [hp]
  | join req rest it _ _ _ _ =>
    exact h.insert (p := { c.part req.part.encoded with
      waiters := (c.part req.part.encoded).waiters + 1 }) rfl rfl (fun d => by cases d <;> rfl)
      (view_update _ rfl)
  | enqueue now req rest _ _ _ => exact h.enqueue hok.struct now req
  | cancelKeep pk it w _ _ =>
    exact h.insert rfl rfl (fun d => by cases d <;> rfl) (view_update _ rfl)
  | cancelDrop pk it w hg hc _ hd =>
    rw [cancelDrop_eq]
    refine h.remove hok.struct hc.indexed rfl rfl (fun d => ?_) (view_update _ rfl)
    rw [hd]
    cases d <;> rfl
  | cancelFlight pk it w b _ _ _ hb =>
    rw [cancelFlight_eq hb]
    exact h.insert rfl rfl (fun d => by cases d <;> rfl) (view_update _ rfl)
  | resolve pk l l' it r hg hl _ hd => exact h.resolve hok r hg hl hd
  | shut pk it _ _ =>
    rw [deliverAll_eq hok.nodup]
    exact h.same rfl (fun _ => rfl)
  | cancelCtx bid _ =>
    obtain ⟨_, _, hb⟩ := c.cancelBatch_eq bid
    rw [hb]
    exact h.same rfl (fun _ => rfl)
  | _ => exact h.same rfl (fun _ => rfl)

end

end Steps

/-! ## Runs -/

/-- Whether a submission alone exceeds a batch limit. -/
def SubmitReq.tooLarge (cfg : BindingConfig K) (req : SubmitReq K) : Prop :=
  0 < cfg.maxBatchWeight ∧ cfg.maxBatchWeight < req.weight ∨ 0 < cfg.maxBatchBytes ∧ cfg.maxBatchBytes < req.bytes

instance (cfg : BindingConfig K) (req : SubmitReq K) : Decidable (req.tooLarge cfg) :=
  inferInstanceAs (Decidable (_ ∨ _))

/-- The submission of a move, if any, fits into a batch. -/
def FitsBatch (cfg : BindingConfig K) (_ : List (Move K V E)) (_ : Coord K V E) (m : Move K V E) : Prop :=
  ∀ req ∈ m.submission, ¬req.tooLarge cfg

instance (cfg : BindingConfig K) (es : List (Move K V E)) (c : Coord K V E) (m : Move K V E) :
    Decidable (FitsBatch cfg es c m) :=
  inferInstanceAs (Decidable (∀ req ∈ m.submission, ¬req.tooLarge cfg))

section Runs

variable {g : Held K} {c : Coord K V E}

lemma itemTooLarge_iff (h : x.load = req.load) : Coord.itemTooLarge cfg x = true ↔ req.tooLarge cfg := by
  have hw : x.weight = req.weight := congrArg (·.2.1) h
  have hb : x.bytes = req.bytes := congrArg (·.2.2) h
  unfold Coord.itemTooLarge SubmitReq.tooLarge
  rw [hw, hb]
  by_cases h1 : 0 < cfg.maxBatchWeight ∧ cfg.maxBatchWeight < req.weight
  · simp [h1]
  by_cases h2 : 0 < cfg.maxBatchBytes ∧ cfg.maxBatchBytes < req.bytes
  · simp [h1, h2]
  · rw [if_neg h1, if_neg h2]
    simp [h1, h2]

lemma LoadOK.noneTooLarge (h : LoadOK es c) (hs : ∀ req ∈ submitted es, ¬req.tooLarge cfg) : NoneTooLarge cfg c := by
  intro pk it hit
  obtain ⟨req, hreq, -, -, hload⟩ := h pk it hit
  by_contra hbig
  exact hs req hreq ((itemTooLarge_iff hload).1 (by simpa using hbig))

lemma SubmitReq.Sound.measure (h : req.Sound cfg) (d : Measure) : 0 ≤ d.ofReq req := by
  cases d with
  | weight => exact h.weight
  | bytes => exact h.bytes

/-- Between handlers the undispatched items are the queue. -/
lemma undispatched_perm (hS : StructOK cfg g c) (hg : g.queue = none) (pk : GoString) :
    (c.undispatched pk).Perm (c.part pk).pending := by
  have hperm := hS.perm pk
  rw [Held.queueOf_none hg] at hperm
  have hpend : (c.part pk).pending.filter (fun it => !(c.items it).dispatched) = (c.part pk).pending :=
    filter_eq_self.2 fun it hit => by rw [hS.queued pk it hit]; rfl
  have hfly : (c.flight pk).filter (fun it => !(c.items it).dispatched) = [] := by
    rw [filter_eq_nil_iff]
    intro it hit
    obtain ⟨id, b, hb, -, hib⟩ := mem_flight.1 hit
    rw [(hS.flying id b it hb hib).1]
    decide
  have := hperm.filter fun it => !(c.items it).dispatched
  rw [filter_append, hpend, hfly, append_nil] at this
  exact this

/-- The totals in terms of the queue. -/
lemma Totals.pending (h : Totals c) (hS : StructOK cfg g c) (hg : g.queue = none) (d : Measure)
    (pk : GoString) : d.ofPart (c.part pk) = wrap64 (c.total d.ofItem (c.part pk).pending) := by
  rw [h d pk, total_perm (undispatched_perm hS hg pk)]

lemma total_pending_nonneg (hL : LoadOK es c) (hs : ∀ req ∈ submitted es, req.Sound cfg)
    (hS : StructOK cfg g c) (hg : g.queue = none) (d : Measure) (pk : GoString) :
    0 ≤ c.total d.ofItem (c.part pk).pending := by
  refine total_nonneg fun it hit => ?_
  obtain ⟨req, hreq, -, -, hload⟩ := hL pk it (hS.queue_indexed (by rw [Held.queueOf_none hg]; exact hit))
  rw [Measure.ofItem_load hload]
  exact (hs req hreq).measure d

end Runs

section Main

variable [Inhabited K] [Inhabited V]

omit [Inhabited K] in
lemma totals_acts {jn g g' c c'} (hs : ∀ req ∈ submitted es, ¬req.tooLarge cfg) (ha : Acts cfg es jn g c g' c')
    (h : CoordOK cfg es g c ∧ LoadOK es c ∧ Totals c) : CoordOK cfg es g' c' ∧ LoadOK es c' ∧ Totals c' :=
  ha.keeps (I := fun g c => CoordOK cfg es g c ∧ LoadOK es c ∧ Totals c) (fun _ _ _ _ ha hI =>
      ⟨hI.1.act ha, hI.2.1.act hI.1 ha, hI.2.2.act hI.1 (hI.2.1.noneTooLarge hs) ha⟩) h

/-- The totals are those of the queue along every run whose submissions each fit into a batch. -/
lemma reach_totals {Q : List (Move K V E) → Coord K V E → Move K V E → Prop}
    (hQ : ∀ es c m, Q es c m → FitsBatch cfg es c m) {c} (h : ((coordinator cfg).only Q).Reach es c) : Totals c := by
  refine h.invariant (I := fun _ c => Totals c) (fun d _ => by cases d <;> rfl) ?_
  intro es c m hr hl hT
  have hs := submitted_only (fun es c m req hq hm => hQ es c m hq req hm) (hr.step m hl)
  exact (totals_acts hs (move_acts (reach_ok hr.of_only) hl.1 joinsOnly_true)
    ⟨(reach_ok hr.of_only).mono m, (reach_loads hr.of_only).mono m, hT⟩).2.2

/-- The two totals of a partition are those of its queue, where these fit into an `int64`; they
are zero when nothing is queued. -/
structure Accounted (c : Coord K V E) (pk : GoString) : Prop where
  weight : c.total QItem.weight (c.part pk).pending < 2 ^ 63 →
    (c.part pk).weight = c.total QItem.weight (c.part pk).pending
  bytes : c.total QItem.bytes (c.part pk).pending < 2 ^ 63 → (c.part pk).bytes = c.total QItem.bytes (c.part pk).pending
  idle : (c.part pk).pending = [] → (c.part pk).weight = 0 ∧ (c.part pk).bytes = 0

omit [Inhabited K] [Inhabited V] in
lemma Totals.accounted {g c} (h : Totals c) (hL : LoadOK es c)
    (hs : ∀ req ∈ submitted es, req.Sound cfg) (hS : StructOK cfg g c) (hg : g.queue = none) (pk : GoString) :
    Accounted c pk := by
  have hd : ∀ d : Measure, c.total d.ofItem (c.part pk).pending < 2 ^ 63 →
      d.ofPart (c.part pk) = c.total d.ofItem (c.part pk).pending := by
    intro d hlt
    rw [h.pending hS hg d pk, wrap64_of_lt (total_pending_nonneg hL hs hS hg d pk) hlt]
  refine ⟨hd .weight, hd .bytes, fun hp => ?_⟩
  have hw := h.pending hS hg .weight pk
  have hb := h.pending hS hg .bytes pk
  rw [hp] at hw hb
  exact ⟨hw, hb⟩

/-- **Queue totals are exact in every run whose submissions each fit into a batch**; so a
submission is over the limit on weight or on bytes only if the queue and the submission together
exceed it. -/
theorem queue_totals_exact {es : List (Move K V E)} {c : Coord K V E}
    (h : ((coordinator cfg).only (FitsBatch cfg)).Reach es c) :
    (∀ pk, Accounted c pk) ∧
    ∀ m, ((coordinator cfg).only (FitsBatch cfg)).ok es c m → ∀ x ∈ submitCalls cfg c m,
      let queue := (x.1.part x.2.part.encoded).pending
      (overLimits cfg (x.1.part x.2.part.encoded) x.2 = some .weight →
        x.1.total QItem.weight queue + x.2.weight < 2 ^ 63 →
        0 < cfg.limits.maxWeight ∧ cfg.limits.maxWeight < x.1.total QItem.weight queue + x.2.weight) ∧
      (overLimits cfg (x.1.part x.2.part.encoded) x.2 = some .bytes → x.1.total QItem.bytes queue + x.2.bytes < 2 ^ 63 →
        0 < cfg.limits.maxBytes ∧ cfg.limits.maxBytes < x.1.total QItem.bytes queue + x.2.bytes) := by
  have hr := h.of_only
  have hT := reach_totals (fun _ _ _ hq => hq) h
  refine ⟨fun pk => hT.accounted (reach_loads hr) (submitted_sound hr) (reach_ok hr).struct rfl pk, ?_⟩
  intro m hl x hx
  have hstep := h.step m hl
  have hfit := submitted_only (fun _ _ _ req hq hm => hq req hm) hstep
  have hs := submitted_sound hstep.of_only
  obtain ⟨g, hg, ⟨rest, hreqs⟩, hacts⟩ := submitCalls_acts (reach_ok hr) hl.1 joinsOnly_true x hx
  obtain ⟨hok, hL, hT⟩ := totals_acts hfit hacts ⟨(reach_ok hr).mono m, (reach_loads hr).mono m, hT⟩
  have hsound := hs x.2 (hok.waiter.held x.2 (by rw [hreqs]; simp)).1
  have hacc := hT.accounted hL hs hok.struct hg x.2.part.encoded
  have h0 := total_pending_nonneg hL hs hok.struct hg
  refine ⟨fun hover hlt => ?_, fun hover hlt => ?_⟩
  · have h0 : 0 ≤ x.1.total QItem.weight _ := h0 .weight x.2.part.encoded
    have hw := hsound.weight
    have hp := hacc.weight (by omega)
    unfold overLimits at hover
    dsimp only at hover
    rw [hp, wrap64_of_lt (by omega) hlt] at hover
    split_ifs at hover with h1 h2 h3 h4
    · simp at hover
    · simp at hover
    · simp at hover
    · exact h4
  have h0 : 0 ≤ x.1.total QItem.bytes _ := h0 .bytes x.2.part.encoded
  have hb := hsound.bytes
  have hp := hacc.bytes (by omega)
  unfold overLimits at hover
  dsimp only at hover
  rw [hp, wrap64_of_lt (by omega) hlt] at hover
  split_ifs at hover with h1 h2 h3 h4
  · simp at hover
  · simp at hover
  · exact h3
  · simp at hover

end Main

/-- The small binding with at most weight 5 in a batch and 11 in a queue. -/
def demoWeighed : BindingConfig ℕ := { demo .manual with maxBatchWeight := 5, limits := { maxWeight := 11 } }

/-- A submission of the given weight to partition 1. -/
def demoHeavy (key : ℕ) (weight : ℤ) (w : WaiterId) : Move ℕ ℕ ℕ :=
  demoTurn (.submit 0 { demoReq [1] key w with weight := weight } none)

/-- Weights 3 and 2 fill a batch; 4 is queued behind it while a waiter of the batch leaves. -/
theorem queue_totals_exact_demo : Accounted ((coordinator demoWeighed).run Coord.init
      [demoHeavy 1 3 1, demoHeavy 2 2 2, demoHeavy 3 4 3, demoCancel [1] 1 false]) [1] :=
  (queue_totals_exact (System.reach_of_allowed (by decide))).1 [1]

/-- **The weight of a failed item stays.** Items of weight 1, 10 and 1: the first goes out as soon as
the second is there. When its batch is done, the second fails and the third goes out. Nothing is
queued, the partition still counts 10, and a submission of weight 2 is over the limit of 11. -/
theorem totals_leak : ∃ es : List (Move ℕ ℕ ℕ), ∃ c : Coord ℕ ℕ ℕ,
    (coordinator demoWeighed).Reach es c ∧ (c.part [1]).pending = [] ∧ (c.part [1]).weight = 10 ∧
      overLimits demoWeighed (c.part [1]) { demoReq [1] 4 4 with weight := 2 } = some .weight :=
  ⟨[demoHeavy 1 1 1, demoHeavy 2 10 2, demoHeavy 3 1 3, demoComplete 1 []], _,
    System.reach_of_allowed (by decide), by decide, by decide,
    by decide⟩

end BatchWeaver
