import BatchWeaver.Proof.Waiters

/-!
# The invariant of the coordinator

`CoordOK` joins the structural invariant, the waiter invariant and the fact that every
batch in flight was started with the items it has (`Started`). It is what the
decomposition of the handlers into actions relies on.

* `Act.out_prefix`: effects are only appended.
* `CoordOK.act`, `CoordOK.acts`: every action, and every sequence of them, keeps it.
-/

namespace BatchWeaver

open List Coord

variable {K V E : Type}

/-- **Every batch in flight was started with its items**, under the keys they have. -/
def Started (c : Coord K V E) : Prop := ∀ id b, c.inflight.lookup id = some b → ∃ reason dl req,
    Effect.start id b.partition reason dl req ∈ c.out ∧ req.items.map (·.id) = b.items ∧
      ∀ bi ∈ req.items, bi.key = (c.items bi.id).key

/-- **The invariant of the coordinator**, also while a handler runs. -/
structure CoordOK (cfg : BindingConfig K) (es : List (Move K V E)) (g : Held K) (c : Coord K V E) : Prop where
  struct : StructOK cfg g c
  waiter : WaiterOK es g c
  started : Started c

section

variable {cfg : BindingConfig K} {es : List (Move K V E)}
  {jn : JoinRule K V E} {g g' : Held K} {c c' : Coord K V E}

lemma CoordOK.nodup (hok : CoordOK cfg es g c) (x : ItemId) : (c.items x).waiters.Nodup := hok.waiter.nodup x

/-! ## Effects are only appended -/

section

variable [Inhabited V]

lemma SchedAct.out_prefix (hnd : ∀ it, (c.items it).waiters.Nodup) (ha : SchedAct cfg g c g' c') :
    c.out <+: c'.out := by
  cases ha with
  | quiet hq => rw [hq.out]
  | tooLarge pk l l' it hg hl _ =>
    rw [resolve_eq hnd]
    exact prefix_append _ _
  | dispatch pk l reason a hg hs hne hl hslot =>
    rw [dispatch_eq]
    exact prefix_append _ _
  | _ => exact prefix_refl _

lemma Act.out_prefix (hnd : ∀ it, (c.items it).waiters.Nodup) (ha : Act cfg es jn g c g' c') : c.out <+: c'.out := by
  cases ha with
  | sched hs => exact hs.out_prefix hnd
  | refuse req rest err _ => exact prefix_append _ _
  | join req rest it _ _ _ _ => exact prefix_append _ _
  | enqueue now req rest _ _ _ => exact prefix_append _ _
  | cancelDrop pk it w hg hc _ hd => rw [cancelDrop_eq]
  | cancelFlight pk it w b _ _ _ hb =>
    rw [cancelFlight_eq hb]
    exact prefix_append _ _
  | finish bid b hg hb => exact prefix_append _ _
  | resolve pk l l' it r hg hl _ =>
    rw [resolve_eq hnd]
    exact prefix_append _ _
  | shut pk it _ _ =>
    rw [deliverAll_eq hnd]
    exact prefix_append _ _
  | cancelCtx bid _ =>
    unfold Coord.cancelBatch
    split
    · exact prefix_refl _
    · exact prefix_append _ _
  | answer kept effs _ _ => exact prefix_append _ _
  | _ => exact prefix_refl _

end

/-! ## Every batch in flight was started -/

lemma Started.frame (h : Started c) (hf : SameFlight c c') (ho : c.out <+: c'.out)
    (hk : ∀ id b it, c.inflight.lookup id = some b → it ∈ b.items →
      (c'.items it).key = (c.items it).key) : Started c' := by
  intro id b' hb'
  obtain ⟨b, hb, -, hi, hp⟩ := hf.lookup id b' hb'
  obtain ⟨reason, dl, req, h1, h2, h3⟩ := h id b hb
  refine ⟨reason, dl, req, by rw [hp]; exact ho.subset h1, by rw [hi]; exact h2, ?_⟩
  intro bi hbi
  rw [hk id b bi.id hb (by rw [← h2]; exact mem_map.2 ⟨bi, hbi, rfl⟩)]
  exact h3 bi hbi

lemma batchItem_id (it : ItemId) : (c.batchItem it).id = it := by
  unfold batchItem
  split <;> rfl

lemma batchItem_key (it : ItemId) : (c.batchItem it).key = (c.items it).key := by
  unfold batchItem
  split <;> rfl

lemma batchItems_ids (l : List ItemId) : (l.map c.batchItem).map (·.id) = l := by
  rw [List.map_map]
  exact (map_congr_left fun it _ => batchItem_id it).trans (map_id _)

lemma Started.dispatch (h : Started c) {pk l}
    (reason : FlushReason) {a} (hs : Selected c l a) :
    Started ((c.setPart pk { c.part pk with pending := a.remaining }).startBatch pk reason a ⟨a.items⟩) := by
  rw [dispatch_eq]
  have hkey : ∀ it, (if it ∈ a.selected then
      { c.items it with dispatched := true, batchID := c.batchSeq + 1 } else c.items it).key =
      (c.items it).key := by
    intro it
    split <;> rfl
  intro id b hb
  rcases Table.of_lookup_insert hb with ⟨he, rfl⟩ | ⟨-, hb⟩
  · refine ⟨reason, c.batchContext a.selected, ⟨a.items⟩, ?_, ?_, ?_⟩
    · rw [he]; exact mem_append_right _ (mem_singleton.2 rfl)
    · rw [hs.items, batchItems_ids]
    intro bi hbi
    rw [hs.items] at hbi
    obtain ⟨it, -, rfl⟩ := mem_map.1 hbi
    rw [hkey, batchItem_key, batchItem_id]
  obtain ⟨reason', dl, req, h1, h2, h3⟩ := h id b hb
  refine ⟨reason', dl, req, mem_append_left _ h1, h2, fun bi hbi => ?_⟩
  rw [hkey]
  exact h3 bi hbi

section

variable [Inhabited V]

lemma Started.sched (h : Started c) (hnd : ∀ it, (c.items it).waiters.Nodup)
    (ha : SchedAct cfg g c g' c') : Started c' := by
  have ho := ha.out_prefix hnd
  cases ha with
  | quiet hq => exact h.frame (SameFlight.of_eq hq.inflight) ho (fun _ _ _ _ _ => by rw [hq.items])
  | tooLarge pk l l' it hg hl _ =>
    rw [resolve_eq hnd] at ho ⊢
    exact h.frame (SameFlight.of_eq rfl) ho (fun _ _ _ _ _ => rfl)
  | dispatch pk l reason a hg hs hne hl hslot => exact h.dispatch reason hs
  | _ => exact h

lemma Started.act (h : Started c) (hS : StructOK cfg g c)
    (hnd : ∀ it, (c.items it).waiters.Nodup) (ha : Act cfg es jn g c g' c') : Started c' := by
  have ho := ha.out_prefix hnd
  cases ha with
  | sched hs => exact h.sched hnd hs
  | refuse _ _ _ _ | answer _ _ _ _ => exact h.frame (SameFlight.of_eq rfl) ho (fun _ _ _ _ _ => rfl)
  | join _ _ _ _ _ _ _ | cancelKeep _ _ _ _ _ =>
    exact h.frame (SameFlight.of_eq rfl) ho (fun _ _ y _ _ => view_update _ (by rfl) y)
  | enqueue now req rest _ _ _ =>
    refine h.frame (SameFlight.of_eq rfl) ho (fun id b y hb hy => ?_)
    have hne : y ≠ c.requestSeq + 1 := by
      rintro rfl
      exact absurd (hS.range _ _ (hS.batch_indexed hb hy)).2 (Nat.not_succ_le_self _)
    show (Function.update c.items (c.requestSeq + 1) _ y).key = _
    rw [Function.update_of_ne hne]
  | cancelDrop pk it w hg hc _ hd =>
    rw [cancelDrop_eq] at ho ⊢
    exact h.frame (SameFlight.of_eq rfl) ho (fun _ _ y _ _ => view_update _ (by rfl) y)
  | cancelFlight pk it w b _ _ _ hb =>
    rw [cancelFlight_eq hb] at ho ⊢
    exact h.frame (SameFlight.replace hb rfl rfl rfl rfl) ho (fun _ _ y _ _ => view_update _ (by rfl) y)
  | finish bid b hg hb =>
    intro id' b' hb'
    have hl : (c.inflight.erase bid).lookup id' = some b' := hb'
    obtain ⟨-, hl⟩ := Table.of_lookup_erase hl
    obtain ⟨reason, dl, req, h1, h2⟩ := h id' b' hl
    exact ⟨reason, dl, req, ho.subset h1, h2⟩
  | resolve pk l l' it r hg hl _ =>
    rw [resolve_eq hnd] at ho ⊢
    exact h.frame (SameFlight.of_eq rfl) ho (fun _ _ _ _ _ => rfl)
  | shut pk it _ _ =>
    rw [deliverAll_eq hnd] at ho ⊢
    exact h.frame (SameFlight.of_eq rfl) ho (fun _ _ _ _ _ => rfl)
  | cancelCtx bid _ =>
    cases hb : c.inflight.lookup bid with
    | none => rw [cancelBatch_none hb]; exact h
    | some b =>
      rw [cancelBatch_some hb] at ho ⊢
      exact h.frame (SameFlight.replace hb rfl rfl rfl rfl) ho (fun _ _ _ _ _ => rfl)
  | _ => exact h

/-! ## All of it -/

section

variable (h : CoordOK cfg es g c)
include h

lemma CoordOK.sched (ha : SchedAct cfg g c g' c') : CoordOK cfg es g' c' :=
  ⟨h.struct.sched h.waiter.nodup ha, h.waiter.sched h.struct ha, h.started.sched h.waiter.nodup ha⟩

lemma CoordOK.act (ha : Act cfg es jn g c g' c') : CoordOK cfg es g' c' :=
  ⟨h.struct.act h.waiter.nodup ha, h.waiter.act h.struct ha, h.started.act h.struct h.waiter.nodup ha⟩

lemma CoordOK.scheds (ha : SchedActs cfg g c g' c') : CoordOK cfg es g' c' :=
  ha.keeps (fun _ _ _ _ hact hok => hok.sched hact) h

lemma CoordOK.acts (ha : Acts cfg es jn g c g' c') : CoordOK cfg es g' c' :=
  ha.keeps (fun _ _ _ _ hact hok => hok.act hact) h

end

end

lemma CoordOK.init [Inhabited K] : CoordOK cfg [] {} (Coord.init : Coord K V E) :=
  ⟨StructOK.init, WaiterOK.init, by rintro _ _ h; cases h⟩

lemma CoordOK.mono (h : CoordOK cfg es g c) (m : Move K V E) : CoordOK cfg (es ++ [m]) g c :=
  ⟨h.struct, h.waiter.mono m, h.started⟩

end

end BatchWeaver
