import BatchWeaver.Proof.Routing

/-!
# Exactly-once delivery

* `DeliveryOK`: at most one result per waiter, none while it is active, and an inactive
  waiter of an item was answered or canceled.
* `Dead`: a waiter that can no longer be sent anything.
* `exactly_once`: at most one result is sent on any channel; a completed batch leaves no
  waiter of its items behind; and after a cancel message nothing is sent to its waiter
  exactly if the message was not marked blocked while the waiter was already admitted.
* `result_after_cancel`: a run in which it was.
-/

namespace BatchWeaver

open List Coord

variable {K V E : Type} {cfg : BindingConfig K} {es : List (Move K V E)}

/-- **Channels, replies and activity agree.** -/
structure DeliveryOK (es : List (Move K V E)) (c : Coord K V E) : Prop where
  once : ∀ w, (c.results w).length ≤ 1
  silent : ∀ w, c.waiters w = none ∨ c.active w = true → c.results w = []
  admitted : ∀ w, Effect.reply w none ∈ c.out ↔ ∃ it, w ∈ (c.items it).waiters
  answered : ∀ it w, w ∈ (c.items it).waiters → c.active w = false → c.results w ≠ [] ∨ Canceled es w

section Acts

variable {jn : JoinRule K V E} {g g' : Held K} {c c' : Coord K V E}

lemma cancellations_append (m : Move K V E) :
    cancellations (es ++ [m]) = cancellations es ++ m.cancellation.toList := by
  unfold cancellations
  rw [filterMap_append]
  cases h : m.cancellation with
  | none => rw [filterMap_cons_none h]; rfl
  | some r => rw [filterMap_cons_some h]; rfl

variable {w : WaiterId} {it : ItemId}

lemma Canceled.mono (h : Canceled es w) (m : Move K V E) : Canceled (es ++ [m]) w := by
  obtain ⟨cr, h1, h2⟩ := h
  exact ⟨cr, by rw [cancellations_append]; exact mem_append_left _ h1, h2⟩

lemma DeliveryOK.mono (h : DeliveryOK es c) (m : Move K V E) : DeliveryOK (es ++ [m]) c :=
  ⟨h.once, h.silent, h.admitted, fun it w hw ha => (h.answered it w hw ha).imp id (·.mono m)⟩

lemma filterMap_results {ws : List WaiterId} (hnd : ws.Nodup) (p : WaiterId → Bool)
    (r : Result V E) (w : WaiterId) :
    ((ws.filter p).map (Effect.result (K := K) · r)).filterMap (Effect.resultFor w) =
      if w ∈ ws ∧ p w = true then [r] else [] := by
  induction ws with
  | nil => simp
  | cons v ws ih =>
    obtain ⟨hv, hnd⟩ := nodup_cons.1 hnd
    by_cases hp : p v = true
    · rw [filter_cons_of_pos hp, map_cons]
      by_cases hw : v = w
      · subst hw
        rw [filterMap_cons_some (b := r) (by simp [Effect.resultFor]), ih hnd,
          if_neg (fun h => hv h.1), if_pos ⟨mem_cons_self .., hp⟩]
      · rw [filterMap_cons_none (by simp [Effect.resultFor, hw]), ih hnd]
        simp [Ne.symm hw]
    rw [filter_cons_of_neg hp, ih hnd]
    have hiff : (w ∈ ws ∧ p w = true) ↔ (w ∈ v :: ws ∧ p w = true) := by
      constructor
      · rintro ⟨h1, h2⟩; exact ⟨mem_cons_of_mem _ h1, h2⟩
      rintro ⟨h1, h2⟩
      rcases mem_cons.1 h1 with rfl | h1
      · exact absurd h2 hp
      · exact ⟨h1, h2⟩
    simp only [hiff]

/-- The item was dispatched in the batch `id`. -/
def Landed (c : Coord K V E) (it id : ℕ) : Prop :=
  (c.items it).dispatched = true ∧ (c.items it).batchID = id ∧ it ≤ c.requestSeq

lemma Landed.of_place {it id} (h : Landed c it id)
    (hp : (c'.items it).place = (c.items it).place) (hr : c.requestSeq ≤ c'.requestSeq) : Landed c' it id := by
  have h1 : (c'.items it).dispatched = (c.items it).dispatched := congrArg (·.2.1) hp
  have h2 : (c'.items it).batchID = (c.items it).batchID := congrArg (·.2.2) hp
  exact ⟨h1.trans h.1, h2.trans h.2.1, h.2.2.trans hr⟩

/-- An item of a batch that is gone has no active waiter. -/
lemma Landed.inactive (hok : CoordOK cfg es {} c) {it id} (h : Landed c it id) (hgone : Gone c id)
    (hw : w ∈ (c.items it).waiters) : c.active w = false := by
  cases hact : c.active w with
  | false => rfl
  | true =>
    exfalso
    obtain ⟨pk, hpk⟩ := hok.waiter.home it w hw hact
    obtain ⟨b, hb, -⟩ := hok.struct.flight_of_dispatched rfl hpk h.1
    rw [h.2.1, hgone.1] at hb
    cases hb

section

variable [Inhabited V]

section

variable (hok : CoordOK cfg es g c)
include hok

/-- A waiter stays in its item. -/
lemma Act.waiters_mono (ha : Act cfg es jn g c g' c') (hw : w ∈ (c.items it).waiters) : w ∈ (c'.items it).waiters := by
  rcases ha.still hok with hs | ⟨req, rest, x, -, -, -, -, rfl⟩ | ⟨now, req, rest, -, -, -, rfl⟩
  · rw [hs.waiters]; exact hw
  · exact mem_waiters_join.2 (.inl hw)
  have hne : it ≠ c.requestSeq + 1 := by
    rintro rfl
    rw [hok.waiter.fresh _ (Nat.lt_succ_self _)] at hw
    cases hw
  rw [items_enqueue_ne hne]
  exact hw

lemma Acts.waiters_mono (ha : Acts cfg es jn g c g' c') (hw : w ∈ (c.items it).waiters) : w ∈ (c'.items it).waiters :=
  (ha.keeps (I := fun g c => CoordOK cfg es g c ∧ w ∈ (c.items it).waiters)
    (fun _ _ _ _ ha hI => ⟨hI.1.act ha, ha.waiters_mono hI.1 hI.2⟩) ⟨hok, hw⟩).2

/-- A new waiter of an item was in the handler's hands. -/
lemma Act.waiter_origin (ha : Act cfg es jn g c g' c') (hw : w ∈ (c'.items it).waiters) : w ∈ (c.items it).waiters ∨
      ((∃ req ∈ g.reqs, req.waiter = w) ∧ c'.waiters = c.waiters ∧ Effect.reply w none ∈ c'.out) := by
  rcases ha.still hok with hs | ⟨req, rest, x, hg, -, -, -, rfl⟩ | ⟨now, req, rest, hg, -, -, rfl⟩
  · rw [hs.waiters] at hw; exact .inl hw
  · rcases mem_waiters_join.1 hw with hw | ⟨-, rfl⟩
    · exact .inl hw
    · exact .inr ⟨⟨req, by rw [hg]; simp, rfl⟩, rfl, mem_append_right _ (mem_singleton.2 rfl)⟩
  by_cases hx : it = c.requestSeq + 1
  · rw [hx, items_enqueue_self] at hw
    obtain rfl : w = req.waiter := mem_singleton.1 hw
    exact .inr ⟨⟨req, by rw [hg]; simp, rfl⟩, rfl, mem_append_right _ (mem_singleton.2 rfl)⟩
  · rw [items_enqueue_ne hx] at hw; exact .inl hw

end

omit [Inhabited V] in
/-- What a delivery adds to a waiter's channel. -/
lemma Delivers.results {r : Result V E} (hd : Delivers c c' it r) (hnd : (c.items it).waiters.Nodup)
    (w : WaiterId) :
    c'.results w = c.results w ++ if w ∈ (c.items it).waiters ∧ c.active w = true then [r] else [] := by
  rw [results_append hd.out, filterMap_results hnd]

/-- **Every action keeps channels, replies and activity in step.** -/
theorem DeliveryOK.act (h : DeliveryOK es c) (hok : CoordOK cfg es g c)
    (ha : Act cfg es jn g c g' c') : DeliveryOK es c' := by
  have hadm : ∀ w, Effect.reply w none ∈ c'.out ↔ ∃ it, w ∈ (c'.items it).waiters := by
    intro w
    constructor
    · intro hr
      rcases ha.mem_out hok hr with hr | hr
      · obtain ⟨it, hit⟩ := (h.admitted w).1 hr
        exact ⟨it, ha.waiters_mono hok hit⟩
      · cases hr with
        | admitted req it _ hw => exact ⟨it, hw⟩
    rintro ⟨it, hit⟩
    rcases ha.waiter_origin hok hit with hit | ⟨-, -, hr⟩
    · exact (ha.out_prefix hok.nodup).subset ((h.admitted w).2 ⟨it, hit⟩)
    · exact hr
  rcases ha.delivers hok with hm | ⟨it, r, hd⟩
  · refine ⟨fun w => by rw [hm.results]; exact h.once w, ?_, hadm, ?_⟩
    · intro w hw
      rw [hm.results]
      refine h.silent w ?_
      rcases hw with hw | hw
      · left
        cases hc : c.waiters w with
        | none => rfl
        | some x =>
          have := hm.born w (by rw [hc]; rfl)
          rw [hw] at this
          cases this
      · exact (hm.on w hw).symm
    intro it w hw hact
    rw [hm.results]
    rcases ha.waiter_origin hok hw with hw | ⟨⟨req, hreq, rfl⟩, hws, -⟩
    · cases hc : c.active w with
      | false => exact h.answered it w hw hc
      | true =>
        rcases hm.off w hc with h1 | h1
        · rw [h1] at hact; cases hact
        · exact .inr h1
    have := (hok.waiter.held req (mem_append_left _ hreq)).2.1
    rw [active_congr hws, this] at hact
    cases hact
  have hres := hd.results (hok.nodup it)
  have hact := active_quiet hd.waiters
  refine ⟨?_, ?_, hadm, ?_⟩
  · intro w
    rw [hres]
    split
    · rename_i hw
      rw [h.silent w (.inr hw.2)]
      simp
    · rw [append_nil]; exact h.once w
  · intro w hw
    rw [hres, if_neg, append_nil]
    · refine h.silent w ?_
      rcases hw with hw | hw
      · left
        rw [hd.waiters] at hw
        have := isSome_quiet c (c.items it).waiters w
        rw [hw] at this
        exact Option.isNone_iff_eq_none.1 (by simpa using this.symm)
      rw [hact] at hw
      split at hw
      · cases hw
      · exact .inr hw
    rintro ⟨h1, h2⟩
    rcases hw with hw | hw
    · rw [hd.waiters] at hw
      have := isSome_quiet c (c.items it).waiters w
      rw [hw, active_isSome h2] at this
      cases this
    · rw [hact, if_pos h1] at hw
      cases hw
  intro x w hw hoff
  rw [hd.items] at hw
  rw [hres]
  split
  · left; simp
  rename_i hn
  rw [append_nil]
  refine h.answered x w hw ?_
  rw [hact] at hoff
  split at hoff
  · rename_i hin
    cases hc : c.active w with
    | false => rfl
    | true => exact absurd ⟨hin, hc⟩ hn
  · exact hoff

/-! ## Items of completed batches -/

lemma Act.landed (hok : CoordOK cfg es g c) (ha : Act cfg es jn g c g' c') {it id}
    (h : Landed c it id) : Landed c' it id := by
  cases ha with
  | sched hs =>
    cases hs with
    | quiet hq => exact h.of_place (by rw [hq.items]) hq.requestSeq
    | tooLarge pk l l' x hg hl _ =>
      rw [resolve_eq hok.nodup]
      exact h
    | dispatch pk l reason a hg hs hne hl hslot =>
      rw [dispatch_eq]
      have hns : it ∉ a.selected := by
        intro hit
        have := hok.struct.queued pk it (hl it (hs.perm.mem_iff.2 (mem_append_left _ hit)))
        rw [h.1] at this
        cases this
      refine h.of_place ?_ le_rfl
      dsimp only
      rw [if_neg hns]
    | _ => exact h
  | join _ _ _ _ _ _ _ | cancelKeep _ _ _ _ _ => exact h.of_place (view_update _ (by rfl) it) le_rfl
  | enqueue now req rest _ _ _ =>
    have hne : it ≠ c.requestSeq + 1 := by
      rintro rfl
      exact absurd h.2.2 (Nat.not_succ_le_self _)
    exact h.of_place (by rw [items_enqueue_ne hne]) (Nat.le_succ _)
  | cancelDrop pk x w hg hc _ hd =>
    rw [cancelDrop_eq]
    exact h.of_place (view_update _ (by rfl) it) le_rfl
  | cancelFlight pk x w b hc _ _ hb =>
    rw [cancelFlight_eq hb]
    exact h.of_place (view_update _ (by rfl) it) le_rfl
  | resolve pk l l' x r hg hl _ =>
    rw [resolve_eq hok.nodup]
    exact h
  | shut pk x _ _ =>
    rw [deliverAll_eq hok.nodup]
    exact h
  | cancelCtx bid _ =>
    obtain ⟨_, _, hb⟩ := c.cancelBatch_eq bid
    rw [hb]
    exact h
  | _ => exact h

/-- **A completed batch leaves no waiter of its items behind.** -/
theorem complete_settles (hok : CoordOK cfg es {} c) (hD : DeliveryOK es c) {now : WaiterId → Time}
    {done : CompleteReq V E} {now' : Time} {ctxErr : ControlId → Option (GoError E)}
    (hl : Move.Legal cfg es c (.turn ⟨.complete now done, now', ctxErr⟩)) {b : BatchInflight}
    (hb : c.inflight.lookup done.batchID = some b) (hit : it ∈ b.items) (hw : w ∈ (c.items it).waiters) :
    let c' := c.move cfg (.turn ⟨.complete now done, now', ctxErr⟩)
    c'.active w = false ∧ ((c'.results w).length = 1 ∨ Canceled es w) := by
  intro c'
  set m : Move K V E := .turn ⟨.complete now done, now', ctxErr⟩ with hm
  have hacts : Acts cfg (es ++ [m]) anyJoin {} c {} c' := move_acts hok hl joinsOnly_true
  obtain ⟨hok₁, hgone₁, hacts₁⟩ := complete_acts hok now now' ctxErr hb
  have hgone : Gone c' done.batchID := hacts₁.gone hok₁ hgone₁
  have hfly := hok.struct.flying _ b it hb hit
  have hland : Landed c it done.batchID :=
    ⟨hfly.1, hfly.2, (hok.struct.range _ it (hok.struct.batch_indexed hb hit)).2⟩
  have hw' : w ∈ (c'.items it).waiters := hacts.waiters_mono (hok.mono m) hw
  have hall := hacts.keeps
    (I := fun g c => CoordOK cfg (es ++ [m]) g c ∧ DeliveryOK (es ++ [m]) c ∧ Landed c it done.batchID)
    (fun g c g' c' ha hI => ⟨hI.1.act ha, hI.2.1.act hI.1 ha, ha.landed hI.1 hI.2.2⟩)
    ⟨hok.mono m, hD.mono m, hland⟩
  have hoff := hall.2.2.inactive hall.1 hgone hw'
  refine ⟨hoff, ?_⟩
  rcases hall.2.1.answered it w hw' hoff with h1 | ⟨cr, h1, h2⟩
  · left
    have := hall.2.1.once w
    have := length_pos_of_ne_nil h1
    omega
  right
  rw [cancellations_append, mem_append] at h1
  rcases h1 with h1 | h1
  · exact ⟨cr, h1, h2⟩
  · cases h1

/-! ## Waiters that can no longer be sent anything -/

/-- The waiter exists, is not active in any item, and no submission of it is pending. -/
structure Dead (w : WaiterId) (g : Held K) (c : Coord K V E) : Prop where
  born : (c.waiters w).isSome = true
  idle : c.active w = true → ∀ it, w ∉ (c.items it).waiters
  free : ∀ req ∈ g.reqs ++ c.blocked, req.waiter ≠ w

/-- The submissions in hand or parked were there before, or are new. -/
lemma Act.reqs_origin (hok : CoordOK cfg es g c) (ha : Act cfg es jn g c g' c') {req}
    (hr : req ∈ g'.reqs ++ c'.blocked) : req ∈ g.reqs ++ c.blocked ∨ c.waiters req.waiter = none := by
  cases ha with
  | sched hs =>
    cases hs with
    | quiet hq => rw [hq.blocked] at hr; exact .inl hr
    | tooLarge pk l l' it hg hl _ =>
      rw [resolve_eq hok.nodup] at hr
      exact .inl hr
    | _ => exact .inl hr
  | spawn r dl hn _ hg =>
    rcases mem_append.1 hr with h1 | h1
    · rw [mem_singleton.1 h1]; exact .inr hn
    · exact .inl (mem_append_right _ h1)
  | refuse r rest err hg =>
    rw [hg, cons_append]; exact .inl (mem_cons_of_mem _ hr)
  | park r rest hg =>
    left
    rw [hg, cons_append]
    have : req ∈ rest ++ (c.blocked ++ [r]) := hr
    simp only [mem_append, mem_singleton] at this
    simp only [mem_cons, mem_append]
    tauto
  | unpark hg =>
    have : req ∈ c.blocked ++ [] := hr
    rw [append_nil] at this
    exact .inl (mem_append_right _ this)
  | unblock w =>
    rcases mem_append.1 hr with h1 | h1
    · exact .inl (mem_append_left _ h1)
    · exact .inl (mem_append_right _ (eraseP_subset h1))
  | join _ _ _ hg _ _ _ | enqueue _ _ _ hg _ _ => rw [hg, cons_append]; exact .inl (mem_cons_of_mem _ hr)
  | cancelDrop pk it w hg hc _ hd => rw [cancelDrop_eq] at hr; exact .inl hr
  | cancelFlight pk it w b hc _ _ hb =>
    rw [cancelFlight_eq hb] at hr
    exact .inl hr
  | resolve pk l l' it r hg hl _ =>
    rw [resolve_eq hok.nodup] at hr
    exact .inl hr
  | shut pk it _ _ =>
    rw [deliverAll_eq hok.nodup] at hr
    exact .inl hr
  | cancelCtx bid _ =>
    obtain ⟨_, _, hb⟩ := c.cancelBatch_eq bid
    rw [hb] at hr
    exact .inl hr
  | _ => exact .inl hr

/-- **Nothing is ever sent to a dead waiter, and it stays dead.** -/
theorem Dead.act (h : Dead w g c) (hok : CoordOK cfg es g c) (ha : Act cfg es jn g c g' c') :
    Dead w g' c' ∧ c'.results w = c.results w := by
  have hitems : (∀ it, w ∉ (c.items it).waiters) → ∀ it, w ∉ (c'.items it).waiters := by
    intro hn it hw
    rcases ha.waiter_origin hok hw with hw | ⟨⟨req, hreq, he⟩, -, -⟩
    · exact hn it hw
    · exact h.free req (mem_append_left _ hreq) he
  have hfree : ∀ req ∈ g'.reqs ++ c'.blocked, req.waiter ≠ w := by
    intro req hreq he
    rcases ha.reqs_origin hok hreq with h1 | h1
    · exact h.free req h1 he
    have := h.born
    rw [← he, h1] at this
    cases this
  rcases ha.delivers hok with hm | ⟨it, r, hd⟩
  · refine ⟨⟨hm.born w h.born, fun hact => hitems ?_, hfree⟩, hm.results w⟩
    rcases hm.on w hact with h1 | h1
    · exact h.idle h1
    have := h.born
    rw [h1] at this
    cases this
  have hact := active_quiet hd.waiters
  refine ⟨⟨?_, fun hon => hitems (h.idle ?_), hfree⟩, ?_⟩
  · rw [hd.waiters, isSome_quiet]; exact h.born
  · rw [hact] at hon
    split at hon
    · cases hon
    · exact hon
  rw [hd.results (hok.nodup it), if_neg, append_nil]
  rintro ⟨h1, h2⟩
  exact h.idle h2 it h1

lemma Acts.inactive (hok : CoordOK cfg es g c) (ha : Acts cfg es jn g c g' c')
    (hw : (c.waiters w).isSome = true) (hoff : c.active w = false) : c'.active w = false := by
  refine (ha.keeps (I := fun g c => CoordOK cfg es g c ∧ (c.waiters w).isSome = true ∧
    c.active w = false) ?_ ⟨hok, hw, hoff⟩).2.2
  rintro g c g' c' hact ⟨hok, hw, hoff⟩
  refine ⟨hok.act hact, Acts.born hok hact.one hw, ?_⟩
  rcases hact.delivers hok with hm | ⟨it, r, hd⟩
  · cases hon : c'.active w with
    | false => rfl
    | true =>
      rcases hm.on w hon with h1 | h1
      · rw [h1] at hoff; cases hoff
      · rw [h1] at hw; cases hw
  rw [active_quiet hd.waiters]
  split
  · rfl
  · exact hoff

lemma Dead.acts (h : Dead w g c) (hok : CoordOK cfg es g c) (ha : Acts cfg es jn g c g' c') :
    Dead w g' c' ∧ c'.results w = c.results w := by
  refine (ha.keeps (I := fun g c₁ => CoordOK cfg es g c₁ ∧ Dead w g c₁ ∧ c₁.results w = c.results w) ?_ ⟨hok, h, rfl⟩).2
  rintro g₁ c₁ g₂ c₂ hact ⟨hok₁, h₁, hr₁⟩
  obtain ⟨h₂, hr₂⟩ := h₁.act hok₁ hact
  exact ⟨hok₁.act hact, h₂, hr₂.trans hr₁⟩

end

/-! ## The cancel handler -/

lemma maybeRetire_frame (pk : GoString) : (c.maybeRetire pk).waiters = c.waiters ∧ (c.maybeRetire pk).out = c.out := by
  unfold maybeRetire
  dsimp only
  split <;> exact ⟨rfl, rfl⟩

lemma abandon_frame (it : ItemId) (v : WaiterId) : (c.abandon it).waiters = c.waiters ∧
    (c.abandon it).results v = c.results v := by
  unfold Coord.abandon
  split
  · exact ⟨rfl, rfl⟩
  dsimp only
  split
  · rename_i b _ _
    rw [cancelBatch_some (by exact AList.lookup_insert _)]
    refine ⟨rfl, ?_⟩
    rw [results_append rfl]
    exact append_nil _
  · exact ⟨rfl, rfl⟩

/-- A cancel message only ever deactivates its waiter, and sends no result. -/
lemma handleCancel_frame (cr : CancelReq) : ((c.handleCancel cr).waiters = c.waiters ∨
      (c.handleCancel cr).waiters = (c.deactivate cr.waiterID).waiters) ∧
    ∀ v, (c.handleCancel cr).results v = c.results v := by
  refine handleCancel_rule (P := fun c' => (c'.waiters = c.waiters ∨ c'.waiters = (c.deactivate cr.waiterID).waiters) ∧
      ∀ v, c'.results v = c.results v) (fun _ => ⟨.inl rfl, fun _ => rfl⟩) (fun _ => ⟨.inl rfl, fun _ => rfl⟩)
    (fun it _ _ _ => ⟨.inr (maybeRetire_frame cr.part).1, fun v => ?_⟩)
    (fun it _ _ _ => ⟨.inr (abandon_frame it 0).1, fun v => (abandon_frame it v).2⟩)
    (fun _ _ _ => ⟨.inr rfl, fun _ => rfl⟩)
  unfold Coord.results removePendingItem
  rw [(maybeRetire_frame cr.part).2]
  rfl

/-- An unblocked cancel message that finds its waiter deactivates it. -/
lemma handleCancel_found {cr} (hb : cr.blocked = false) (hin : it ∈ (c.part cr.part).indexed)
    (hw : cr.waiterID ∈ (c.items it).waiters) (ha : c.active cr.waiterID = true) :
    (c.handleCancel cr).waiters = (c.deactivate cr.waiterID).waiters := by
  refine handleCancel_rule (P := fun c' => c'.waiters = (c.deactivate cr.waiterID).waiters) (fun h => ?_)
    (fun h => absurd ⟨hb, hin, hw, ha⟩ (h it)) (fun _ _ _ _ => (maybeRetire_frame cr.part).1)
    (fun x _ _ _ => (abandon_frame x 0).1) (fun _ _ _ => rfl)
  rw [hb] at h
  cases h

lemma cancellation_eq_some {m : Move K V E} {cr : CancelReq} (h : m.cancellation = some cr) :
    ∃ now ctxErr, m = .turn ⟨.cancel cr, now, ctxErr⟩ := by
  cases m with
  | turn t =>
    obtain ⟨event, now, ctxErr⟩ := t
    cases event with
    | cancel cr' =>
      obtain rfl : cr' = cr := by simpa [Move.cancellation] using h
      exact ⟨now, ctxErr, rfl⟩
    | _ => cases h
  | _ => cases h

lemma cancelAll_frame : ∀ (ids : List BatchId) (c : Coord K V E),
    let c' := ids.foldl Coord.cancelBatch c
    c'.items = c.items ∧ c'.partitions = c.partitions ∧ c'.waiters = c.waiters := by
  intro ids
  induction ids with
  | nil => intro c; exact ⟨rfl, rfl, rfl⟩
  | cons id ids ih =>
    intro c
    rw [foldl_cons]
    have hone : (c.cancelBatch id).items = c.items ∧ (c.cancelBatch id).partitions = c.partitions ∧
        (c.cancelBatch id).waiters = c.waiters := by
      obtain ⟨_, _, hb⟩ := c.cancelBatch_eq id
      rw [hb]
      exact ⟨rfl, rfl, rfl⟩
    obtain ⟨h1, h2, h3⟩ := ih (c.cancelBatch id)
    exact ⟨h1.trans hone.1, h2.trans hone.2.1, h3.trans hone.2.2⟩

variable [Inhabited V]

/-- The end of a turn that handles a cancel message. -/
lemma cancel_acts (hok : CoordOK cfg es {} c)
    (cr : CancelReq) (now : Time) (ctxErr : CtxErrs E) :
    let m : Move K V E := .turn ⟨.cancel cr, now, ctxErr⟩
    CoordOK cfg (es ++ [m]) {} (c.handleCancel cr) ∧
      Acts cfg (es ++ [m]) anyJoin {} (c.handleCancel cr) {} (c.move cfg m) := by
  intro m
  have hcr : cr ∈ cancellations (es ++ [m]) := mem_filterMap_snoc rfl
  have h1 : Acts cfg (es ++ [m]) anyJoin {} c {} (c.handleCancel cr) :=
    handleCancel_acts (hok.mono m) rfl hcr
  have hok₁ := (hok.mono m).acts h1
  exact ⟨hok₁, turn_acts (t := ⟨.cancel cr, now, ctxErr⟩) hok₁⟩

/-! ## The engine's cancellation -/

lemma shutAll_frame : ∀ (its : List ItemId) (c : Coord K V E), CoordOK cfg es g c →
    c.engineDone = true → (∀ it ∈ its, ∃ pk, it ∈ (c.part pk).indexed) →
    let c' := its.foldl (fun c it => c.deliverAll it (.error .engineClosed)) c
    c'.items = c.items ∧ c'.partitions = c.partitions ∧
      ∀ it ∈ its, ∀ w ∈ (c.items it).waiters, c'.active w = false := by
  intro its
  induction its with
  | nil => intro c _ _ _; exact ⟨rfl, rfl, nofun⟩
  | cons it its ih =>
    intro c hok he hin
    obtain ⟨c₁, hc₁, hact, hitems, hparts, hquiet, he₁, hin₁⟩ := shut_step anyJoin hok he hin
    rw [foldl_cons, ← hc₁]
    obtain ⟨h1, h2, h3⟩ := ih c₁ (hok.act hact) he₁ hin₁
    have hrest : Acts cfg es anyJoin g c₁ g _ := (shutAll_acts its c₁ (hok.act hact) he₁ hin₁).1
    refine ⟨h1.trans hitems, h2.trans hparts, fun x hx w hw => ?_⟩
    rcases mem_cons.1 hx with rfl | hx
    · refine hrest.inactive (hok.act hact) ?_ ?_
      · have := hok.waiter.born x w hw
        rw [hquiet, isSome_quiet]
        exact this
      · rw [active_quiet hquiet, if_pos hw]
    · exact h3 x hx w (by rw [hitems]; exact hw)

section

variable (hok : CoordOK cfg es {} c)
include hok

section

variable (he : c.engineDone = true)
include he

/-- **After the engine's cancellation was handled no item has an active waiter**; queues
and indexes are as before. -/
theorem handleEngineCancel_silent : c.handleEngineCancel.partitions = c.partitions ∧
      ∀ it w, w ∈ (c.handleEngineCancel.items it).waiters → c.handleEngineCancel.active w = false := by
  have hacts : Acts cfg es anyJoin {} c {} c.handleEngineCancel := handleEngineCancel_acts hok rfl he
  have hok' := hok.acts hacts
  have hq : Act cfg es anyJoin {} c {} { c with closing := true } :=
    Act.sched (SchedAct.quiet { Quiet.refl cfg c with closing := fun _ => rfl })
  obtain ⟨h1, h2, h3⟩ := shutAll_frame (allIndexed { c with closing := true })
    { c with closing := true } (hok.act hq) he (fun it hit => mem_allIndexed.1 hit)
  obtain ⟨c', hdef⟩ : ∃ c', c' = c.handleEngineCancel := ⟨_, rfl⟩
  rw [← hdef] at hok' ⊢
  unfold handleEngineCancel at hdef
  set c₂ := (allIndexed { c with closing := true }).foldl
    (fun c it => c.deliverAll it (.error .engineClosed)) { c with closing := true } with hc₂
  obtain ⟨h4, h5, h6⟩ := cancelAll_frame c₂.inflight.keys c₂
  set c₃ := c₂.inflight.keys.foldl Coord.cancelBatch c₂ with hc₃
  rw [failBarriers_eq] at hdef
  have hparts : c'.partitions = c.partitions := by rw [hdef]; exact h5.trans h2
  have hitems : c'.items = c.items := by rw [hdef]; exact h4.trans h1
  have hws : c'.waiters = c₂.waiters := by rw [hdef]; exact h6
  refine ⟨hparts, fun it w hw => ?_⟩
  cases hact : c'.active w with
  | false => rfl
  | true =>
    obtain ⟨pk, hpk⟩ := hok'.waiter.home it w hw hact
    rw [part_congr hparts] at hpk
    rw [hitems] at hw
    rw [active_congr hws, h3 it (mem_allIndexed.2 ⟨pk, hpk⟩) w hw] at hact
    cases hact

/-- The end of a turn that handles the engine's cancellation. -/
lemma engine_acts (now : Time) (ctxErr : CtxErrs E) :
    let m : Move K V E := .turn ⟨.engine, now, ctxErr⟩
    CoordOK cfg (es ++ [m]) {} c.handleEngineCancel ∧
      Acts cfg (es ++ [m]) anyJoin {} c.handleEngineCancel {} (c.move cfg m) := by
  intro m
  have h1 : Acts cfg (es ++ [m]) anyJoin {} c {} c.handleEngineCancel :=
    handleEngineCancel_acts (hok.mono m) rfl he
  have hok₁ := (hok.mono m).acts h1
  exact ⟨hok₁, turn_acts (t := ⟨.engine, now, ctxErr⟩) hok₁⟩

/-- After the turn of the engine's cancellation the waiters of all items are inactive. -/
lemma engine_silent (now : Time) (ctxErr : CtxErrs E) (hw : w ∈ (c.items it).waiters) :
    (c.move cfg (.turn ⟨.engine, now, ctxErr⟩)).active w = false := by
  obtain ⟨hok₁, hacts⟩ := engine_acts hok he now ctxErr
  have h1 : Acts cfg es anyJoin {} c {} c.handleEngineCancel := handleEngineCancel_acts hok rfl he
  have hw₁ := h1.waiters_mono hok hw
  exact hacts.inactive hok₁ (hok₁.waiter.born it w hw₁) ((handleEngineCancel_silent hok he).2 it w hw₁)

end

end

/-! ## The end of the loop -/

lemma SchedActs.done (hok : CoordOK cfg es g c) (h : SchedActs cfg g c g' c') : c'.done = c.done := by
  refine (h.keeps (I := fun g₁ c₁ => CoordOK cfg es g₁ c₁ ∧ c₁.done = c.done) ?_ ⟨hok, rfl⟩).2
  rintro g₁ c₁ g₂ c₂ ha ⟨hok₁, hd⟩
  refine ⟨hok₁.sched ha, ?_⟩
  cases ha with
  | quiet hq => exact hq.done.trans hd
  | tooLarge pk l l' it _ _ _ =>
    rw [resolve_eq hok₁.nodup]
    exact hd
  | _ => exact hd

/-- A turn that ends the loop leaves nothing queued or in flight. -/
lemma finishTurn_done (hok : CoordOK cfg es {} c) (hd : c.done = false) (now : Time)
    (ctxErr : CtxErrs E) (h : (c.finishTurn cfg now ctxErr).done = true) :
    (c.finishTurn cfg now ctxErr).drained = true := by
  have hs := (schedule_acts hok rfl false now).done hok |>.trans hd
  unfold finishTurn at h ⊢
  dsimp only at h ⊢
  rw [tryCompleteBarriers_eq] at h ⊢
  split at h
  · rename_i hcd
    rw [if_pos hcd, failBarriers_eq]
    rw [Bool.and_eq_true] at hcd
    exact hcd.2
  · rw [hs] at h; cases h

end Acts

section Runs

variable {c : Coord K V E} {cr : CancelReq} {w : WaiterId}

lemma handleCancel_born (cr : CancelReq) (h : (c.waiters w).isSome = true) :
    ((c.handleCancel cr).waiters w).isSome = true := by
  rcases (handleCancel_frame cr).1 with hw | hw
  · rw [hw]; exact h
  rw [hw]
  show (Function.update c.waiters cr.waiterID _ w).isSome = true
  by_cases hv : w = cr.waiterID
  · subst hv
    rw [Function.update_self, Option.isSome_map]
    exact h
  · rw [Function.update_of_ne hv]; exact h

/-- A message marked blocked looks at the parked submissions only. -/
lemma handleCancel_blocked (hb : cr.blocked = true) : c.handleCancel cr =
      { c with blocked := c.blocked.eraseP fun req => req.waiter = cr.waiterID } := by
  unfold handleCancel
  rw [hb]
  rfl

lemma waiter_ne_of_mem_eraseP {l : List (SubmitReq K)} (hnd : (l.map (·.waiter)).Nodup) :
    ∀ req ∈ l.eraseP fun req => req.waiter = w, req.waiter ≠ w := by
  induction l with
  | nil => intro req h; cases h
  | cons r l ih =>
    rw [map_cons, nodup_cons] at hnd
    intro req h
    by_cases hr : r.waiter = w
    · rw [eraseP_cons_of_pos (by simpa using hr)] at h
      rintro rfl
      exact hnd.1 (by rw [hr]; exact mem_map_of_mem h)
    rw [eraseP_cons_of_neg (by simpa using hr)] at h
    rcases mem_cons.1 h with rfl | h
    · exact hr
    · exact ih hnd.2 req h

variable [Inhabited K] [Inhabited V]

section

variable (h : (coordinator cfg).Reach es c)
include h

lemma reach_delivery : DeliveryOK es c := by
  refine reach_always (J := fun es _ c => DeliveryOK es c) ?_ (fun es m g c hJ => hJ.mono m)
    (fun es g c g' c' hok ha hJ => hJ.act hok ha) h
  refine ⟨fun w => Nat.zero_le _, fun w _ => rfl, fun w => ?_, ?_⟩
  · constructor
    · intro hr; cases hr
    · rintro ⟨it, hit⟩; cases hit
  · intro it w hw; cases hw

lemma reach_origin : OriginOK cfg es c := by
  refine reach_always (J := fun es _ c => OriginOK cfg es c) ⟨?_, ?_, ?_⟩
    (fun es m g c hJ => hJ.mono m) (fun es g c g' c' hok ha hJ => hJ.act hok ha) h
  · intro it w hw; cases hw
  · intro pk it hit; cases hit
  · intro id pk reason dl req hs; cases hs

/-- **After an unblocked cancel message its waiter is not active.** -/
theorem handleCancel_inactive (hs : Sent es c cr) (hb : cr.blocked = false) :
    (c.handleCancel cr).active cr.waiterID = false := by
  have hok := reach_ok h
  cases hact : c.active cr.waiterID with
  | false =>
    rcases (handleCancel_frame cr).1 with hw | hw
    · rw [active_congr hw]; exact hact
    · rw [active_congr hw, active_deactivate, if_pos rfl]
  | true =>
    obtain ⟨req, hreq, hrw, hor⟩ := hs
    rw [hb] at hor
    obtain ⟨hpart, hrep⟩ := hor.resolve_left (by simp)
    obtain ⟨it, hit⟩ := ((reach_delivery h).admitted cr.waiterID).1 hrep
    obtain ⟨pk, hpk⟩ := hok.waiter.home it _ hit hact
    obtain ⟨req', h1, h2, -, h3⟩ := (reach_origin h).waiter it _ hit
    obtain rfl : req' = req := submitted_unique h h1 hreq (h2.trans hrw.symm)
    rw [h3 pk hpk, ← hpart] at hpk
    rw [active_congr (handleCancel_found hb hpk hit hact), active_deactivate, if_pos rfl]

end

lemma Sent.born (h : (coordinator cfg).Reach es c) (hs : Sent es c cr) : (c.waiters cr.waiterID).isSome = true := by
  obtain ⟨req, hreq, hrw, -⟩ := hs
  rw [← hrw]
  exact submitted_born h req hreq

/-- A canceled waiter is not active. -/
lemma canceled_inactive (h : (coordinator cfg).Reach es c) :
    ∀ w, Canceled es w → (c.waiters w).isSome = true ∧ c.active w = false := by
  refine h.invariant (I := fun es c => ∀ w, Canceled es w →
    (c.waiters w).isSome = true ∧ c.active w = false) (fun w hc => ?_) ?_
  · obtain ⟨cr, h1, -⟩ := hc; cases h1
  rintro es c m hr hl ih w ⟨cr, hcr, rfl, hb⟩
  have hok := reach_ok hr
  have hacts := move_acts hok hl joinsOnly_true
  rw [cancellations_append, mem_append] at hcr
  rcases hcr with hcr | hcr
  · obtain ⟨h1, h2⟩ := ih _ ⟨cr, hcr, rfl, hb⟩
    exact ⟨hacts.born (hok.mono m) h1, hacts.inactive (hok.mono m) h1 h2⟩
  obtain ⟨now, ctxErr, rfl⟩ := cancellation_eq_some (Option.mem_toList.1 hcr)
  obtain ⟨hok₁, h3⟩ := cancel_acts hok cr now ctxErr
  have hborn := handleCancel_born cr (Sent.born hr hl.2)
  exact ⟨h3.born hok₁ hborn, h3.inactive hok₁ hborn (handleCancel_inactive hr hl.2 hb)⟩

section

variable (h : (coordinator cfg).Reach es c)
include h

/-- **A cancel message ends the delivery to its waiter**, unless it is marked blocked and the
waiter waits in an item. -/
theorem handleCancel_dead (hs : Sent es c cr)
    (hn : ¬ (cr.blocked = true ∧ c.active cr.waiterID = true ∧ ∃ it, cr.waiterID ∈ (c.items it).waiters)) :
    Dead cr.waiterID {} (c.handleCancel cr) := by
  have hok := reach_ok h
  have hborn := handleCancel_born cr (Sent.born h hs)
  cases hb : cr.blocked with
  | true =>
    rw [handleCancel_blocked hb] at hborn ⊢
    exact ⟨hborn, fun hact it hit => hn ⟨hb, hact, it, hit⟩, waiter_ne_of_mem_eraseP hok.waiter.apart⟩
  | false =>
    have hoff := handleCancel_inactive h hs hb
    have hok₁ := (cancel_acts hok cr 0 fun _ => none).1
    refine ⟨hborn, fun hact => ?_, fun req hreq he => ?_⟩
    · rw [hoff] at hact; cases hact
    have := (hok₁.waiter.held req hreq).2.1
    rw [he, hoff] at this
    cases this

/-- The engine's cancellation answers a waiter of an item that was not canceled. -/
lemma engine_answers (hd : c.done = false) {it} (hw : w ∈ (c.items it).waiters)
    (hn : ¬ Canceled es w) : ∃ es' c', (coordinator cfg).Steps es c es' c' ∧ c'.results w ≠ [] := by
  have hl₁ : (coordinator cfg).ok es c .cancelEngine := trivial
  have h₁ := h.step _ hl₁
  set c₁ := (coordinator cfg).next c .cancelEngine with hc₁
  set m : Move K V E := .turn ⟨.engine, 0, fun _ => none⟩ with hm
  have hl₂ : (coordinator cfg).ok (es ++ [.cancelEngine]) c₁ m := ⟨hd, rfl⟩
  have h₂ := h₁.step _ hl₂
  refine ⟨_, _, (System.Steps.refl.step _ hl₁).step _ hl₂, ?_⟩
  have hw₁ := hw
  have hoff := engine_silent (reach_ok h₁) rfl 0 (fun _ => none) hw₁
  have hw₂ := (move_acts (m := m) (reach_ok h₁) hl₂ joinsOnly_true).waiters_mono ((reach_ok h₁).mono m) hw₁
  refine ((reach_delivery h₂).answered it w hw₂ hoff).resolve_right ?_
  rintro ⟨cr, h1, h2⟩
  rw [cancellations_append, cancellations_append] at h1
  refine hn ⟨cr, ?_, h2⟩
  simpa [hm, Move.cancellation] using h1

/-- A blocked cancel message that finds its waiter admitted does nothing, and the
waiter can still be sent a result. -/
lemma blocked_cancel_lost {now ctxErr}
    (hl : Move.Legal cfg es c (.turn ⟨.cancel cr, now, ctxErr⟩)) (hb : cr.blocked = true)
    (hact : c.active cr.waiterID = true) {it} (hit : cr.waiterID ∈ (c.items it).waiters) :
    ∃ es' c', (coordinator cfg).Steps (es ++ [.turn ⟨.cancel cr, now, ctxErr⟩])
        (c.move cfg (.turn ⟨.cancel cr, now, ctxErr⟩)) es' c' ∧ c'.results cr.waiterID ≠ c.results cr.waiterID := by
  set w := cr.waiterID with hw
  set m : Move K V E := .turn ⟨.cancel cr, now, ctxErr⟩ with hm
  have hok := reach_ok h
  have h₁ := h.step m hl
  have hok₁ := reach_ok h₁
  have hempty : c.results w = [] := (reach_delivery h).silent w (.inr hact)
  have hnot : ¬ Canceled (es ++ [m]) w := by
    rintro ⟨cr', h1, h2, h3⟩
    rw [cancellations_append, mem_append] at h1
    rcases h1 with h1 | h1
    · have := (canceled_inactive h w ⟨cr', h1, h2, h3⟩).2
      rw [hact] at this
      cases this
    obtain rfl : cr' = cr := (Option.some.inj (Option.mem_toList.1 h1)).symm
    rw [hb] at h3
    cases h3
  have hin : w ∈ ((c.move cfg m).items it).waiters :=
    (move_acts hok hl joinsOnly_true).waiters_mono (hok.mono m) hit
  by_cases hres : (c.move cfg m).results w = []
  · -- still waiting: the engine's cancellation answers it
    have hon : (c.move cfg m).active w = true := by
      cases hoff : (c.move cfg m).active w with
      | true => rfl
      | false =>
        rcases (reach_delivery h₁).answered it w hin hoff with h1 | h1
        · exact absurd hres h1
        · exact absurd h1 hnot
    have hdone : (c.move cfg m).done = false := by
      cases hd : (c.move cfg m).done with
      | false => rfl
      | true =>
        have hd₀ : (c.handleCancel cr).done = false := by
          rw [handleCancel_blocked hb]
          exact hl.1
        have := finishTurn_done (cancel_acts hok cr now ctxErr).1 hd₀ now ctxErr hd
        obtain ⟨pk, hpk⟩ := hok₁.waiter.home it w hin hon
        rw [((drained_iff hok₁.struct).1 this).2 pk] at hpk
        cases hpk
    obtain ⟨es', c', hs, hne⟩ := engine_answers h₁ hdone hin hnot
    exact ⟨es', c', hs, by rw [hempty]; exact hne⟩
  · exact ⟨_, _, System.Steps.refl, by rw [hempty]; exact hres⟩

end

/-- **Exactly-once delivery.** At most one result is sent on any waiter's channel. When a
batch's completion has been handled, every waiter of its items is settled: it got its one
result, or it was canceled. And once a cancel message has been handled nothing more is
sent to its waiter, exactly if the message is not marked blocked while the waiter waits
in an item already. -/
theorem exactly_once {es : List (Move K V E)} {c : Coord K V E}
    (h : (coordinator cfg).Reach es c) :
    (∀ w, (c.results w).length ≤ 1) ∧
    (∀ now done now' ctxErr, Move.Legal cfg es c (.turn ⟨.complete now done, now', ctxErr⟩) →
      ∀ b, c.inflight.lookup done.batchID = some b → ∀ it ∈ b.items, ∀ w ∈ (c.items it).waiters,
        let c' := c.move cfg (.turn ⟨.complete now done, now', ctxErr⟩)
        c'.active w = false ∧ ((c'.results w).length = 1 ∨ Canceled es w)) ∧
    (∀ cr now ctxErr, Move.Legal cfg es c (.turn ⟨.cancel cr, now, ctxErr⟩) →
      ((∀ es' c', (coordinator cfg).Steps (es ++ [.turn ⟨.cancel cr, now, ctxErr⟩])
          (c.move cfg (.turn ⟨.cancel cr, now, ctxErr⟩)) es' c' →
          c'.results cr.waiterID = c.results cr.waiterID) ↔
        ¬ (cr.blocked = true ∧ c.active cr.waiterID = true ∧ ∃ it, cr.waiterID ∈ (c.items it).waiters))) := by
  have hok := reach_ok h
  refine ⟨(reach_delivery h).once, ?_, ?_⟩
  · intro now done now' ctxErr hl b hb it hit w hw
    exact complete_settles hok (reach_delivery h) hl hb hit hw
  intro cr now ctxErr hl
  constructor
  · rintro hall ⟨hb, hact, it, hit⟩
    obtain ⟨es', c', hs, hne⟩ := blocked_cancel_lost h hl hb hact hit
    exact hne (hall es' c' hs)
  intro hn es' c' hs
  obtain ⟨hok₁, hacts⟩ := cancel_acts hok cr now ctxErr
  obtain ⟨hdead, hres⟩ := (handleCancel_dead h hl.2 hn).acts hok₁ hacts
  rw [(handleCancel_frame cr).2] at hres
  refine (steps_always (J := fun _ g c₁ => Dead cr.waiterID g c₁ ∧
    c₁.results cr.waiterID = c.results cr.waiterID) (reach_move h hl) ⟨hdead, hres⟩
    (fun _ _ _ _ hJ => hJ) ?_ hs).2
  rintro es₁ g₁ c₁ g₂ c₂ hok₁ ha ⟨hd₁, hr₁⟩
  obtain ⟨hd₂, hr₂⟩ := hd₁.act hok₁ ha
  exact ⟨hd₂, hr₂.trans hr₁⟩

end Runs

/-- One call in flight: if it is canceled nothing is sent to it any more, if its batch
completes it is settled. -/
theorem exactly_once_demo :
    let c := demoRun .manual [demoSubmit [1] 1 1 none, demoControl .flush 1]
    (c.results 1).length ≤ 1 ∧
    (∀ es' c', (coordinator (demo .manual)).Steps
      [demoSubmit [1] 1 1 none, demoControl .flush 1, demoCancel [1] 1 false]
      (c.move (demo .manual) (demoCancel [1] 1 false)) es' c' → c'.results 1 = c.results 1) ∧
    (c.move (demo .manual) (demoComplete 1 [])).active 1 = false := by
  intro c
  have hr : (coordinator (demo .manual)).Reach [demoSubmit [1] 1 1 none, demoControl .flush 1] c :=
    System.reach_of_allowed (show _ by decide)
  have h := exactly_once hr
  refine ⟨h.1 1, (h.2.2 ⟨[1], 1, false⟩ 0 (fun _ => none) (by decide)).2 (fun hb => by cases hb.1), ?_⟩
  exact (h.2.1 (fun _ => 0) ⟨1, ⟨[]⟩, none, false, ""⟩ 0 (fun _ => none) (by decide) _
    (Option.some_get (by decide)).symm 1 (by decide) 1 (by decide)).1

/-- **A result after a cancellation.** The caller gave up before it saw the reply to its
submission; the message, marked blocked, finds nothing parked, and the call is carried
out and answered all the same. -/
theorem result_after_cancel :
    let es := [demoSubmit [1] 1 1 none, demoCancel [] 1 true]
    let es' := es ++ [demoControl .flush 1, demoComplete 1 [.success 1 7]]
    (coordinator (demo .manual)).Reach es' (demoRun .manual es') ∧
      (demoRun .manual es).results 1 = [] ∧ (demoRun .manual es').results 1 = [⟨7, none, true⟩] :=
  ⟨System.reach_of_allowed (show _ by decide), by decide, by decide⟩

end BatchWeaver
