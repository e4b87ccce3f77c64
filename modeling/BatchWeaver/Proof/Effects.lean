import BatchWeaver.Proof.Moves

/-!
# What an action can do

Three readings of an action, for the invariants that follow.

* `Act.still`: only `join` and `enqueue` give an item a waiter or a queue an item.
* `Act.delivers`: results go only to the active waiters of one item, which the action
  then deactivates; every other action leaves all channels as they are.
* `Act.emits`: every effect of an action, with where it comes from.
-/

namespace BatchWeaver

open List Coord

variable {K V E : Type}

/-! ## Actions that admit nothing -/

/-- What `Do` computed from the key of an item. -/
def QItem.load (x : QItem K) : UInt64 × ℤ × ℤ := (x.hash, x.weight, x.bytes)

/-- No item gets a waiter and no queue an item. -/
structure Still (c c' : Coord K V E) : Prop where
  waiters : ∀ it, (c'.items it).waiters = (c.items it).waiters
  key : ∀ it, (c'.items it).key = (c.items it).key
  seq : ∀ it, (c'.items it).seq = (c.items it).seq
  load : ∀ it, (c'.items it).load = (c.items it).load
  indexed : ∀ pk it, it ∈ (c'.part pk).indexed → it ∈ (c.part pk).indexed
  pending : ∀ pk it, it ∈ (c'.part pk).pending → it ∈ (c.part pk).pending
  submitSeq : c'.submitSeq = c.submitSeq
  requestSeq : c.requestSeq ≤ c'.requestSeq

/-- What `Still` reads of an item. -/
def QItem.face (x : QItem K) : List WaiterId × K × ℕ × UInt64 × ℤ × ℤ := (x.waiters, x.key, x.seq, x.load)

section

variable {c c' : Coord K V E}

section

variable (hi : ∀ it, (c'.items it).face = (c.items it).face)
include hi

lemma Still.of_faces (hidx : ∀ pk it, it ∈ (c'.part pk).indexed → it ∈ (c.part pk).indexed)
    (hp : ∀ pk it, it ∈ (c'.part pk).pending → it ∈ (c.part pk).pending) (hs : c'.submitSeq = c.submitSeq)
    (hr : c.requestSeq ≤ c'.requestSeq) : Still c c' :=
  ⟨fun it => congrArg Prod.fst (hi it), fun it => congrArg (·.2.1) (hi it),
    fun it => congrArg (·.2.2.1) (hi it), fun it => congrArg (·.2.2.2) (hi it), hidx, hp, hs, hr⟩

lemma Still.of_same (hp : ∀ pk, SamePart (c.part pk) (c'.part pk)) (hs : c'.submitSeq = c.submitSeq)
    (hr : c'.requestSeq = c.requestSeq) : Still c c' :=
  Still.of_faces hi (fun pk it h => by rw [(hp pk).indexed] at h; exact h)
    (fun pk it h => by rw [(hp pk).pending] at h; exact h) hs hr.ge

end

variable {effs : List (Effect K V E)} {pk : GoString} {it : ItemId}

/-- The partition `pk` becomes `p`, with a smaller queue and index. -/
lemma Still.of_insert {p} (hc : c'.partitions = c.partitions.insert pk p)
    (hi : ∀ it, (c'.items it).face = (c.items it).face) (hidx : ∀ it ∈ p.indexed, it ∈ (c.part pk).indexed)
    (hp : ∀ it ∈ p.pending, it ∈ (c.part pk).pending) (hs : c'.submitSeq = c.submitSeq)
    (hr : c'.requestSeq = c.requestSeq) : Still c c' := by
  have hpart := part_insert hc
  refine Still.of_faces hi (fun k it h => ?_) (fun k it h => ?_) hs hr.ge
  · rw [hpart] at h
    split at h
    · rename_i he; rw [he]; exact hidx it h
    · exact h
  rw [hpart] at h
  split at h
  · rename_i he; rw [he]; exact hp it h
  · exact h

lemma mem_of_mem_unindex {m h it x}
    (hit : it ∈ (m.lookup h).getD []) (hx : x ∈ Table.gather (unindex m h it) id) : x ∈ Table.gather m id :=
  (gather_unindex hit).mem_iff.2 (mem_cons_of_mem _ hx)

variable {cfg : BindingConfig K} {es : List (Move K V E)}
  {jn : JoinRule K V E} {g g' : Held K} {bid : BatchId}

section

variable [Inhabited V]

section

variable (hok : CoordOK cfg es g c)
include hok

omit [Inhabited V] in
lemma Still.resolve {l l'} (hg : g.queue = some (pk, l)) (hl : l.Perm (it :: l'))
    (r : Result V E) : Still c ((c.deliverAll it r).dropItem pk it) := by
  have hin := hok.struct.held_indexed hg (hl.mem_iff.2 (mem_cons_self ..))
  rw [resolve_eq hok.nodup]
  exact Still.of_insert rfl (fun _ => rfl)
    (fun x hx => mem_of_mem_unindex (hok.struct.mem_bucket hin) hx) (fun x hx => hx) rfl rfl

lemma SchedAct.still (ha : SchedAct cfg g c g' c') : Still c c' := by
  cases ha with
  | quiet hq =>
    exact Still.of_faces (fun _ => by rw [hq.items]) (fun pk it h => by rw [part_congr hq.partitions] at h; exact h)
      (fun pk it h => by rw [part_congr hq.partitions] at h; exact h) hq.submitSeq hq.requestSeq
  | hold pk hg => exact Still.of_same (fun _ => rfl) (SamePart.of_eq rfl) rfl rfl
  | release pk l l' hg hp hl =>
    exact Still.of_insert rfl (fun _ => rfl) (fun it hit => hit) hl rfl rfl
  | tooLarge pk l l' it hg hl _ => exact Still.resolve hok hg hl _
  | dispatch pk l reason a hg hs hne hl hslot =>
    rw [dispatch_eq]
    refine Still.of_insert rfl (fun it => ?_) (fun it hit => hit) (fun it hit => ?_) rfl rfl
    · dsimp only
      split <;> rfl
    · exact hl it (hs.perm.mem_iff.2 (mem_append_right _ hit))
  | retire pk hg hl _ =>
    refine Still.of_faces (fun _ => rfl) (fun k it h => ?_) (fun k it h => ?_) rfl le_rfl
    all_goals
      rw [hok.struct.part_retire] at h
      split at h
      · cases h
      · exact h

/-- **Only `join` and `enqueue` admit a submission.** -/
theorem Act.still (ha : Act cfg es jn g c g' c') : Still c c' ∨
    (∃ req rest it, g.reqs = req :: rest ∧ c.closing = false ∧ c.joinTarget cfg req = some it ∧
      jn c req it ∧ c' = c.join req it) ∨ ∃ now req rest, g.reqs = req :: rest ∧ c.closing = false ∧
      (c.joinTarget cfg req = none ∧ overLimits cfg (c.part req.part.encoded) req = none) ∧ c' = c.enqueue now req := by
  have hkeep : ∀ {c₁ : Coord K V E}, c₁.items = c.items → c₁.partitions = c.partitions →
      c₁.submitSeq = c.submitSeq → c₁.requestSeq = c.requestSeq → Still c c₁ :=
    fun hi hp hs hr => Still.of_same (fun _ => by rw [hi]) (SamePart.of_eq hp) hs hr
  cases ha with
  | sched hs => exact .inl (hs.still hok)
  | openPart part hn =>
    refine .inl (Still.of_insert rfl (fun _ => rfl) ?_ ?_ rfl rfl)
    · intro it hit; cases hit
    · intro it hit; cases hit
  | join req rest it hg hc hj hjn => exact .inr (.inl ⟨req, rest, it, hg, hc, hj, hjn, rfl⟩)
  | enqueue now req rest hg _ hc hj hl =>
    exact .inr (.inr ⟨now, req, rest, hg, hc, ⟨hj, hl⟩, rfl⟩)
  | cancelKeep pk it w _ _ =>
    exact .inl (Still.of_insert rfl (view_update _ rfl) (fun x hx => hx) (fun x hx => hx) rfl rfl)
  | cancelDrop pk it w hg hc _ hd =>
    rw [cancelDrop_eq]
    exact .inl (Still.of_insert rfl (view_update _ rfl)
      (fun x hx => mem_of_mem_unindex (hok.struct.mem_bucket hc.indexed) hx)
      (fun x hx => mem_of_mem_erase hx) rfl rfl)
  | cancelFlight pk it w b _ _ _ hb =>
    rw [cancelFlight_eq hb]
    exact .inl (Still.of_insert rfl (view_update _ rfl) (fun x hx => hx) (fun x hx => hx) rfl rfl)
  | resolve pk l l' it r hg hl _ => exact .inl (Still.resolve hok hg hl r)
  | shut pk it _ _ =>
    rw [deliverAll_eq hok.nodup]
    exact .inl (hkeep rfl rfl rfl rfl)
  | cancelCtx bid _ =>
    obtain ⟨_, _, hb⟩ := c.cancelBatch_eq bid
    rw [hb]
    exact .inl (hkeep rfl rfl rfl rfl)
  | _ => exact .inl (hkeep rfl rfl rfl rfl)

end

/-! ## Actions that deliver -/

/-- A cancel message for an admitted waiter was handled. -/
def Canceled (es : List (Move K V E)) (w : WaiterId) : Prop :=
  ∃ cr ∈ cancellations es, cr.waiterID = w ∧ cr.blocked = false

/-- Why a result is sent to the waiters of an item. -/
inductive Reason (cfg : BindingConfig K) (es : List (Move K V E)) (c : Coord K V E) (it : ItemId)
    (r : Result V E) : Prop
  | tooLarge : r = .error .itemTooLarge → Reason cfg es c it r
  | verdict (pk : GoString) : it ∈ (c.part pk).indexed → Verdict cfg es c pk it r → Reason cfg es c it r
  | closed : c.engineDone = true → r = .error .engineClosed → Reason cfg es c it r

/-- Every active waiter of the item is sent the result, and all are deactivated. -/
structure Delivers (c c' : Coord K V E) (it : ItemId) (r : Result V E) : Prop where
  out : c'.out = c.out ++ ((c.items it).waiters.filter c.active).map (Effect.result · r)
  waiters : c'.waiters = c.quiet (c.items it).waiters
  items : c'.items = c.items

end

/-- No result is sent; a waiter is deactivated only by its cancellation. -/
structure Mute (es : List (Move K V E)) (c c' : Coord K V E) : Prop where
  results : ∀ w, c'.results w = c.results w
  born : ∀ w, (c.waiters w).isSome = true → (c'.waiters w).isSome = true
  on : ∀ w, c'.active w = true → c.active w = true ∨ c.waiters w = none
  off : ∀ w, c.active w = true → c'.active w = true ∨ Canceled es w
  origin : ∀ w, (c'.waiters w).isSome = true → (c.waiters w).isSome = true ∨ ∃ req ∈ submitted es, req.waiter = w

lemma results_append (ho : c'.out = c.out ++ effs) (w : WaiterId) :
    c'.results w = c.results w ++ effs.filterMap (Effect.resultFor w) := by
  unfold Coord.results
  rw [ho, filterMap_append]

lemma Mute.of_eq (hw : c'.waiters = c.waiters) (ho : c'.out = c.out ++ effs)
    (hr : ∀ eff ∈ effs, ∀ w, eff.resultFor w = none) : Mute es c c' := by
  have ha := active_congr hw
  refine ⟨fun w => ?_, fun w h => by rw [hw]; exact h, fun w h => .inl (by rw [← ha]; exact h),
    fun w h => .inl (by rw [ha]; exact h), fun w h => .inl (by rw [← hw]; exact h)⟩
  rw [results_append ho, filterMap_eq_nil_iff.2 (fun eff he => hr eff he w), append_nil]

lemma Mute.quiet (hw : c'.waiters = c.waiters) (ho : c'.out = c.out) : Mute es c c' :=
  Mute.of_eq hw (show c'.out = c.out ++ [] by rw [ho, append_nil]) nofun

lemma Mute.cancel {w} (hc : Cancels es c pk it w) (hw : c'.waiters = (c.deactivate w).waiters)
    (ho : c'.out = c.out ++ effs) (hr : ∀ eff ∈ effs, ∀ w, eff.resultFor w = none) : Mute es c c' := by
  have ha : ∀ v, c'.active v = if v = w then false else c.active v := by
    intro v
    rw [show c'.active v = (c.deactivate w).active v by rw [active_congr hw]]
    exact active_deactivate c w v
  have hb : ∀ v, (c'.waiters v).isSome = (c.waiters v).isSome := by
    intro v
    rw [hw]
    show (Function.update c.waiters w _ v).isSome = _
    rw [Function.update_apply]
    split
    · rename_i he; subst he; rw [Option.isSome_map]
    · rfl
  refine ⟨fun v => ?_, fun v hv => ?_, fun v hv => ?_, fun v hv => ?_, fun v hv => ?_⟩
  · rw [results_append ho, filterMap_eq_nil_iff.2 (fun eff he => hr eff he v), append_nil]
  · rw [hb]; exact hv
  · rw [ha] at hv
    split at hv
    · cases hv
    · exact .inl hv
  · by_cases he : v = w
    · subst he; exact .inr hc.asked
    · exact .inl (by rw [ha, if_neg he]; exact hv)
  · rw [hb] at hv; exact .inl hv

lemma Delivers.of_resolve (hnd : ∀ it, (c.items it).waiters.Nodup) (pk : GoString) (r : Result V E) :
    Delivers c ((c.deliverAll it r).dropItem pk it) it r := by
  rw [resolve_eq hnd]
  exact ⟨rfl, rfl, rfl⟩

variable [Inhabited V]

lemma SchedAct.delivers (hok : CoordOK cfg es g c) (ha : SchedAct cfg g c g' c') :
    Mute es c c' ∨ ∃ it r, Delivers c c' it r := by
  cases ha with
  | quiet hq => exact .inl (Mute.quiet hq.waiters hq.out)
  | tooLarge pk l l' it hg hl _ =>
    exact .inr ⟨it, _, Delivers.of_resolve hok.nodup pk _⟩
  | dispatch pk l reason a hg hs hne hl hslot =>
    rw [dispatch_eq]
    refine .inl (Mute.of_eq rfl rfl ?_)
    intro eff he w
    rw [mem_singleton.1 he]
    rfl
  | _ => exact .inl (Mute.quiet rfl rfl)

/-- **An action sends results only to the active waiters of one item**, and deactivates
them. -/
theorem Act.delivers (hok : CoordOK cfg es g c) (ha : Act cfg es jn g c g' c') :
    Mute es c c' ∨ ∃ it r, Delivers c c' it r := by
  have hone : ∀ {c₁ : Coord K V E} {eff : Effect K V E}, c₁.waiters = c.waiters →
      c₁.out = c.out ++ [eff] → (∀ w, eff.resultFor w = none) → Mute es c c₁ := by
    intro c₁ eff hw ho hr
    refine Mute.of_eq hw ho (fun e he w => ?_)
    rw [mem_singleton.1 he]
    exact hr w
  cases ha with
  | sched hs => exact hs.delivers hok
  | spawn req dl hn hsub _ =>
    left
    have hw : ∀ v, v ≠ req.waiter → (c.spawn req dl).waiters v = c.waiters v :=
      fun v hv => Function.update_of_ne hv _ _
    have ha : ∀ v, v ≠ req.waiter → (c.spawn req dl).active v = c.active v := by
      intro v hv
      unfold Coord.active
      rw [hw v hv]
    refine ⟨fun _ => rfl, fun v hv => ?_, fun v hv => ?_, fun v hv => ?_, fun v hv => ?_⟩
    · by_cases he : v = req.waiter
      · rw [he, hn] at hv; cases hv
      · rw [hw v he]; exact hv
    · by_cases he : v = req.waiter
      · rw [he]; exact .inr hn
      · rw [ha v he] at hv; exact .inl hv
    · by_cases he : v = req.waiter
      · have := active_isSome hv
        rw [he, hn] at this
        cases this
      · rw [ha v he]; exact .inl hv
    by_cases he : v = req.waiter
    · exact .inr ⟨req, hsub, he.symm⟩
    · rw [hw v he] at hv; exact .inl hv
  | refuse req rest err _ => exact .inl (hone rfl rfl (fun _ => rfl))
  | join req rest it _ _ _ _ => exact .inl (hone rfl rfl (fun _ => rfl))
  | enqueue now req rest _ _ _ => exact .inl (hone rfl rfl (fun _ => rfl))
  | cancelKeep pk it w hc _ =>
    exact .inl (Mute.cancel hc rfl (append_nil _).symm nofun)
  | cancelDrop pk it w hg hc _ hd =>
    rw [cancelDrop_eq]
    exact .inl (Mute.cancel hc rfl (append_nil _).symm nofun)
  | cancelFlight pk it w b hc _ _ hb =>
    rw [cancelFlight_eq hb]
    refine .inl (Mute.cancel hc rfl rfl ?_)
    intro eff he v
    split at he
    · rw [mem_singleton.1 he]; rfl
    · cases he
  | finish bid b hg hb => exact .inl (hone rfl rfl (fun _ => rfl))
  | resolve pk l l' it r hg hl hv =>
    exact .inr ⟨it, r, Delivers.of_resolve hok.nodup pk r⟩
  | shut pk it he _ =>
    rw [deliverAll_eq hok.nodup]
    exact .inr ⟨it, _, rfl, rfl, rfl⟩
  | cancelCtx bid _ =>
    left
    cases hb : c.inflight.lookup bid with
    | none => rw [cancelBatch_none hb]; exact Mute.quiet rfl rfl
    | some b => rw [cancelBatch_some hb]; exact hone rfl rfl (fun _ => rfl)
  | answer kept effs _ he =>
    refine .inl (Mute.of_eq rfl rfl ?_)
    intro eff hm w
    obtain ⟨b, -, err, rfl, -⟩ := he eff hm
    rfl
  | _ => exact .inl (Mute.quiet rfl rfl)

/-! ## What an action emits -/

/-- The effects an action can have, with where they come from. -/
inductive Emits (cfg : BindingConfig K) (es : List (Move K V E)) (g : Held K)
    (c c' : Coord K V E) : Effect K V E → Prop
  | refused (req : SubmitReq K) (err : GoError E) : req ∈ g.reqs → Emits cfg es g c c' (.reply req.waiter (some err))
  | admitted (req : SubmitReq K) (it : ItemId) : req ∈ g.reqs →
      req.waiter ∈ (c'.items it).waiters → Emits cfg es g c c' (.reply req.waiter none)
  | result (it : ItemId) (w : WaiterId) (r : Result V E) : w ∈ (c.items it).waiters →
      c.active w = true → Reason cfg es c it r → Emits cfg es g c c' (.result w r)
  | start (pk : GoString) (l : List ItemId) (reason : FlushReason) (a : Selection K) :
      g.queue = some (pk, l) → Selected c l a → (∀ it ∈ l, it ∈ (c.part pk).pending) →
      a.selected ≠ [] → Chosen cfg c a → c'.batchSeq = c.batchSeq + 1 →
      Emits cfg es g c c' (.start (c.batchSeq + 1) pk reason (c.batchContext a.selected) ⟨a.items⟩)
  | cancel (id : BatchId) : Emits cfg es g c c' (.cancel id)
  | barrier (b : Barrier) (err : Option (GoError E)) : b ∈ c.barriers →
      (err = none → c.barrierSatisfied b = true) → g.queue = none →
      Emits cfg es g c c' (.barrier b.reply err)

lemma SchedAct.emits (hok : CoordOK cfg es g c) (ha : SchedAct cfg g c g' c') :
    ∃ effs, c'.out = c.out ++ effs ∧ ∀ eff ∈ effs, Emits cfg es g c c' eff := by
  cases ha with
  | quiet hq => exact ⟨[], by rw [hq.out, append_nil], nofun⟩
  | tooLarge pk l l' it hg hl _ =>
    rw [resolve_eq hok.nodup]
    refine ⟨_, rfl, fun eff he => ?_⟩
    obtain ⟨w, hw, rfl⟩ := mem_map.1 he
    obtain ⟨hw, hact⟩ := mem_filter.1 hw
    exact Emits.result it w _ hw hact (Reason.tooLarge rfl)
  | dispatch pk l reason a hg hs hne hl hslot hch =>
    rw [dispatch_eq]
    refine ⟨_, rfl, fun eff he => ?_⟩
    rw [mem_singleton.1 he, hok.struct.enc]
    exact Emits.start pk l reason a hg hs hl hne hch rfl
  | _ => exact ⟨[], (append_nil _).symm, nofun⟩

/-- **What an action emits, and why.** -/
theorem Act.emits (hok : CoordOK cfg es g c) (ha : Act cfg es jn g c g' c') :
    ∃ effs, c'.out = c.out ++ effs ∧ ∀ eff ∈ effs, Emits cfg es g c c' eff := by
  have hone : ∀ {eff : Effect K V E}, Emits cfg es g c c' eff → ∀ e ∈ [eff], Emits cfg es g c c' e := by
    intro eff he e hm
    rw [mem_singleton.1 hm]
    exact he
  have hmem : ∀ {req : SubmitReq K} {rest : List (SubmitReq K)}, g.reqs = req :: rest → req ∈ g.reqs := by
    intro req rest hg
    rw [hg]
    exact mem_cons_self ..
  cases ha with
  | sched hs => exact hs.emits hok
  | refuse req rest err hg => exact ⟨_, rfl, hone (Emits.refused req err (hmem hg))⟩
  | join req rest it hg _ _ _ =>
    exact ⟨_, rfl, hone (Emits.admitted req it (hmem hg) (mem_waiters_join.2 (.inr ⟨rfl, rfl⟩)))⟩
  | enqueue now req rest hg _ _ =>
    refine ⟨_, rfl, hone (Emits.admitted req (c.requestSeq + 1) (hmem hg) ?_)⟩
    rw [items_enqueue_self]
    exact mem_singleton.2 rfl
  | cancelDrop pk it w hg hc _ hd =>
    rw [cancelDrop_eq]
    exact ⟨[], (append_nil _).symm, nofun⟩
  | cancelFlight pk it w b hc _ _ hb =>
    rw [cancelFlight_eq hb]
    refine ⟨_, rfl, fun eff he => ?_⟩
    split at he
    · rw [mem_singleton.1 he]; exact Emits.cancel _
    · cases he
  | finish bid b hg hb => exact ⟨_, rfl, hone (Emits.cancel bid)⟩
  | resolve pk l l' it r hg hl hv =>
    have hin := hok.struct.held_indexed hg (hl.mem_iff.2 (mem_cons_self ..))
    rw [resolve_eq hok.nodup]
    refine ⟨_, rfl, fun eff he => ?_⟩
    obtain ⟨w, hw, rfl⟩ := mem_map.1 he
    obtain ⟨hw, hact⟩ := mem_filter.1 hw
    exact Emits.result it w _ hw hact (Reason.verdict pk hin hv)
  | shut pk it he _ =>
    rw [deliverAll_eq hok.nodup]
    refine ⟨_, rfl, fun eff hm => ?_⟩
    obtain ⟨w, hw, rfl⟩ := mem_map.1 hm
    obtain ⟨hw, hact⟩ := mem_filter.1 hw
    exact Emits.result it w _ hw hact (Reason.closed he rfl)
  | cancelCtx bid _ =>
    cases hb : c.inflight.lookup bid with
    | none =>
      rw [cancelBatch_none hb]
      exact ⟨[], (append_nil _).symm, nofun⟩
    | some b =>
      rw [cancelBatch_some hb]
      refine ⟨_, rfl, fun eff he => ?_⟩
      rw [mem_singleton.1 he]
      exact Emits.cancel bid
  | answer kept effs _ he hg =>
    refine ⟨effs, rfl, fun eff hm => ?_⟩
    obtain ⟨b, hb, err, rfl, hs⟩ := he eff hm
    exact Emits.barrier b err hb hs hg
  | _ => exact ⟨[], (append_nil _).symm, nofun⟩

/-! ## Batches leave the table once -/

/-- The batch was started and is no longer in flight. -/
def Gone (c : Coord K V E) (id : BatchId) : Prop := c.inflight.lookup id = none ∧ id ≤ c.batchSeq

omit [Inhabited V] in
lemma Gone.of_same (h : Gone c bid) (hf : SameFlight c c') (hb : c'.batchSeq = c.batchSeq) : Gone c' bid := by
  refine ⟨?_, by rw [hb]; exact h.2⟩
  cases hl : c'.inflight.lookup bid with
  | none => rfl
  | some b =>
    obtain ⟨b', hb', -⟩ := hf.lookup bid b hl
    rw [h.1] at hb'
    cases hb'

section

variable (hok : CoordOK cfg es g c)
include hok

lemma Act.gone (ha : Act cfg es jn g c g' c') (h : Gone c bid) : Gone c' bid := by
  cases ha with
  | sched hs =>
    cases hs with
    | quiet hq => exact h.of_same (SameFlight.of_eq hq.inflight) hq.batchSeq
    | tooLarge pk l l' it hg hl _ =>
      rw [resolve_eq hok.nodup]
      exact h
    | dispatch pk l reason a hg hs hne hl hslot =>
      rw [dispatch_eq]
      refine ⟨?_, Nat.le_succ_of_le h.2⟩
      rw [Table.lookup_insert_if, if_neg]
      · exact h.1
      · rintro rfl
        exact absurd h.2 (Nat.not_succ_le_self _)
    | _ => exact h
  | cancelDrop pk it w hg hc _ hd => rw [cancelDrop_eq]; exact h
  | cancelFlight pk it w b hc _ _ hb =>
    rw [cancelFlight_eq hb]
    exact h.of_same (SameFlight.replace hb rfl rfl rfl rfl) rfl
  | finish id b hg hb =>
    refine ⟨?_, h.2⟩
    rw [Table.lookup_erase_if]
    split
    · rfl
    · exact h.1
  | resolve pk l l' it r hg hl _ =>
    rw [resolve_eq hok.nodup]
    exact h
  | shut pk it _ _ =>
    rw [deliverAll_eq hok.nodup]
    exact h
  | cancelCtx id _ =>
    cases hb : c.inflight.lookup id with
    | none => rw [cancelBatch_none hb]; exact h
    | some b =>
      rw [cancelBatch_some hb]
      exact h.of_same (SameFlight.replace hb rfl rfl rfl rfl) rfl
  | _ => exact h

lemma Acts.gone (ha : Acts cfg es jn g c g' c') (h : Gone c bid) : Gone c' bid :=
  (ha.keeps (I := fun g c => CoordOK cfg es g c ∧ Gone c bid)
    (fun _ _ _ _ hact hI => ⟨hI.1.act hact, hact.gone hI.1 hI.2⟩) ⟨hok, h⟩).2

/-- A batch is gone once its completion is settled. -/
lemma settle_gone (hg : g.queue = none) {b done}
    (hdone : done ∈ completed es) (hb : c.inflight.lookup done.batchID = some b) :
    Gone (c.settle cfg b done) done.batchID := by
  obtain ⟨g₁, c₁, h1, hf, hs, h2⟩ : ∃ g₁ c₁, Act cfg es anyJoin g c g₁ c₁ ∧ _ ∧ _ ∧ _ :=
    settle_acts hok hg hdone hb
  refine h2.gone (hok.act h1) ⟨?_, ?_⟩
  · rw [hf]; exact AList.lookup_erase _ _
  · rw [hs]; exact (hok.struct.batch _ b hb).2.1

lemma Act.mem_out (ha : Act cfg es jn g c g' c') {eff} (he : eff ∈ c'.out) : eff ∈ c.out ∨ Emits cfg es g c c' eff := by
  obtain ⟨effs, ho, hs⟩ := ha.emits hok
  rw [ho, mem_append] at he
  rcases he with he | he
  · exact .inl he
  · exact .inr (hs eff he)

end

end

end BatchWeaver
