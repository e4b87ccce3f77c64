import BatchWeaver.Proof.Act

/-!
# The structural invariant

`StructOK`: index, queue and in-flight batches of every partition agree, while a
handler runs as well as between events.

* `StructOK.init`: it holds at the start.
* `StructOK.act`: every action keeps it.
-/

namespace BatchWeaver

open List Coord PartitionState

variable {K V E : Type} {cfg : BindingConfig K} {g g' : Held K} {c c' : Coord K V E} {it : ItemId}
  {pk : GoString} {p : PartitionState} {b : BatchInflight} {l : List ItemId} {id : BatchId}

/-- **Index, queues and in-flight batches agree.** -/
structure StructOK (cfg : BindingConfig K) (g : Held K) (c : Coord K V E) : Prop where
  enc : ∀ pk, (c.part pk).part.encoded = pk
  full : ∀ pk h l, (c.part pk).active.lookup h = some l → l ≠ []
  hash : ∀ pk h it, it ∈ (c.part pk).bucket h → (c.items it).hash = h
  perm : ∀ pk, (c.part pk).indexed.Perm (g.queueOf c pk ++ c.flight pk)
  nodup : ∀ pk, (c.part pk).indexed.Nodup
  home : ∀ pk pk' it, it ∈ (c.part pk).indexed → it ∈ (c.part pk').indexed → pk = pk'
  live : ∀ pk, (c.part pk).live = (c.part pk).indexed.length
  range : ∀ pk (it : ℕ), it ∈ (c.part pk).indexed → 0 < it ∧ it ≤ c.requestSeq
  queued : ∀ pk it, it ∈ (c.part pk).pending → (c.items it).dispatched = false
  batch : ∀ id b, c.inflight.lookup id = some b → b.id = id ∧ id ≤ c.batchSeq ∧ b.items ≠ []
  flying : ∀ id b it, c.inflight.lookup id = some b → it ∈ b.items →
    (c.items it).dispatched = true ∧ (c.items it).batchID = id
  slots : c.activeProvider = c.inflight.entries.length
  conc : c.activeProvider ≤ cfg.maxConcurrency
  dyn : ∀ d, c.dyn = some d → 1 ≤ d.maxConcurrency ∧ d.maxConcurrency ≤ cfg.maxConcurrency

/-- The same queue and index, whatever the counters. -/
structure SamePart (p p' : PartitionState) : Prop where
  part : p'.part = p.part
  pending : p'.pending = p.pending
  active : p'.active = p.active
  live : p'.live = p.live

/-- The same batches in flight, whatever their contexts and counters. -/
structure SameFlight (c c' : Coord K V E) : Prop where
  lookup : ∀ id b', c'.inflight.lookup id = some b' →
    ∃ b, c.inflight.lookup id = some b ∧ b'.id = b.id ∧ b'.items = b.items ∧ b'.partition = b.partition
  flight : ∀ pk, (c'.flight pk).Perm (c.flight pk)
  length : c'.inflight.entries.length = c.inflight.entries.length

section Views

lemma SamePart.refl (p : PartitionState) : SamePart p p := ⟨rfl, rfl, rfl, rfl⟩

lemma SamePart.indexed {p p'} (h : SamePart p p') : p'.indexed = p.indexed := by
  unfold PartitionState.indexed; rw [h.active]

lemma SameFlight.of_eq (h : c'.inflight = c.inflight) : SameFlight c c' :=
  ⟨fun id b hb => ⟨b, by rw [← h]; exact hb, rfl, rfl, rfl⟩, fun pk => by rw [flight_congr h], by rw [h]⟩

lemma SameFlight.replace {b b'} (hb : c.inflight.lookup id = some b) (h : c'.inflight = c.inflight.insert id b')
    (hid : b'.id = b.id) (hi : b'.items = b.items) (hp : b'.partition = b.partition) : SameFlight c c' := by
  refine ⟨?_, flight_replace hb h hi hp, ?_⟩
  · intro id' x hx
    rw [h] at hx
    rcases Table.of_lookup_insert hx with ⟨rfl, rfl⟩ | ⟨-, hx⟩
    · exact ⟨b, hb, hid, hi, hp⟩
    · exact ⟨x, hx, rfl, rfl, rfl⟩
  · rw [h, Table.length_replace hb]

/-- Replacing a partition by one with the same queue and index. -/
lemma SamePart.insert {pk} (hp : SamePart (c.part pk) p)
    (h : c'.partitions = c.partitions.insert pk p) (pk' : GoString) : SamePart (c.part pk') (c'.part pk') := by
  rw [part_insert h]
  split
  · rename_i he; subst he; exact hp
  · exact SamePart.refl _

lemma SamePart.of_eq (h : c'.partitions = c.partitions) (pk : GoString) : SamePart (c.part pk) (c'.part pk) := by
  rw [part_congr h]; exact SamePart.refl _

lemma Held.queueOf_none {g : Held K} (hg : g.queue = none) (pk : GoString) : g.queueOf c pk = (c.part pk).pending := by
  unfold queueOf; rw [hg]

lemma Held.queueOf_some {g : Held K} {k : GoString} (hg : g.queue = some (k, l)) (pk : GoString) :
    g.queueOf c pk = if k = pk then l else (c.part pk).pending := by
  unfold queueOf; rw [hg]

lemma Held.queueOf_congr {g g' : Held K} (hg : g'.queue = g.queue)
    (h : ∀ pk, SamePart (c.part pk) (c'.part pk)) (pk : GoString) : g'.queueOf c' pk = g.queueOf c pk := by
  unfold queueOf
  rw [hg, (h pk).pending]

end Views

/-- What the structural invariant reads of an item. -/
def QItem.place (x : QItem K) : UInt64 × Bool × BatchId := (x.hash, x.dispatched, x.batchID)

/-- The dynamic settings respect the configured limits. -/
def DynOK (cfg : BindingConfig K) (c : Coord K V E) : Prop :=
  ∀ d, c.dyn = some d → 1 ≤ d.maxConcurrency ∧ d.maxConcurrency ≤ cfg.maxConcurrency

/-- The index of a partition loses items at most. -/
structure Shrinks (pk : GoString) (p p' : PartitionState) : Prop where
  enc : p'.part.encoded = pk
  full : ∀ h l, p'.active.lookup h = some l → l ≠ []
  bucket : ∀ h it, it ∈ p'.bucket h → it ∈ p.bucket h
  nodup : p'.indexed.Nodup
  live : p'.live = p'.indexed.length

section Frame

section

variable (h : StructOK cfg g c)
include h

/-- **No partition gains an indexed item**: what is left to show of the invariant. -/
theorem StructOK.shrink (hp : ∀ k, Shrinks k (c.part k) (c'.part k))
    (hhash : ∀ it, (c'.items it).hash = (c.items it).hash) (hr : c.requestSeq ≤ c'.requestSeq)
    (hperm : ∀ k, (c'.part k).indexed.Perm (g'.queueOf c' k ++ c'.flight k))
    (hqueued : ∀ k it, it ∈ (c'.part k).pending → (c'.items it).dispatched = false)
    (hbatch : ∀ id b, c'.inflight.lookup id = some b → b.id = id ∧ id ≤ c'.batchSeq ∧ b.items ≠ [])
    (hflying : ∀ id b it, c'.inflight.lookup id = some b → it ∈ b.items →
      (c'.items it).dispatched = true ∧ (c'.items it).batchID = id)
    (hslots : c'.activeProvider = c'.inflight.entries.length) (hconc : c'.activeProvider ≤ cfg.maxConcurrency)
    (hd : DynOK cfg c') : StructOK cfg g' c' := by
  have hsub : ∀ k it, it ∈ (c'.part k).indexed → it ∈ (c.part k).indexed := by
    intro k it hit
    obtain ⟨x, hx⟩ := mem_indexed.1 hit
    exact mem_indexed.2 ⟨x, (hp k).bucket x it hx⟩
  refine ⟨fun k => (hp k).enc, fun k => (hp k).full, fun k x it hx => ?_, hperm, fun k => (hp k).nodup,
    fun k k' it h1 h2 => h.home k k' it (hsub k it h1) (hsub k' it h2), fun k => (hp k).live,
    fun k it hit => ?_, hqueued, hbatch, hflying, hslots, hconc, hd⟩
  · rw [hhash]
    exact h.hash k x it ((hp k).bucket x it hx)
  · have hrange := h.range k it (hsub k it hit)
    exact ⟨hrange.1, hrange.2.trans hr⟩

lemma Shrinks.of_index {pk} (hpart : p.part = (c.part pk).part)
    (hact : p.active = (c.part pk).active) (hlive : p.live = (c.part pk).live) : Shrinks pk (c.part pk) p := by
  have hidx : p.indexed = (c.part pk).indexed := by unfold indexed; rw [hact]
  refine ⟨by rw [hpart]; exact h.enc pk, by rw [hact]; exact h.full pk, fun x it hx => ?_, ?_, ?_⟩
  · rwa [PartitionState.bucket, ← hact]
  · rw [hidx]; exact h.nodup pk
  · rw [hidx, hlive]; exact h.live pk

/-- One partition is replaced. -/
lemma Shrinks.at {pk} (hpart : ∀ k, c'.part k = if k = pk then p else c.part k)
    (hp : Shrinks pk (c.part pk) p) (k : GoString) : Shrinks k (c.part k) (c'.part k) := by
  rw [hpart]
  split
  · rename_i he; rw [he]; exact hp
  · exact Shrinks.of_index h rfl rfl rfl

/-- **Whatever keeps queues, indexes and batches keeps the invariant.** -/
theorem StructOK.frame (hp : ∀ pk, SamePart (c.part pk) (c'.part pk))
    (hq : ∀ pk, (g'.queueOf c' pk).Perm (g.queueOf c pk)) (hf : SameFlight c c')
    (hi : ∀ it, (c'.items it).place = (c.items it).place) (hr : c.requestSeq ≤ c'.requestSeq)
    (hb : c'.batchSeq = c.batchSeq) (ha : c'.activeProvider = c.activeProvider) (hd : DynOK cfg c') :
    StructOK cfg g' c' := by
  have hdis : ∀ it, (c'.items it).dispatched = (c.items it).dispatched := fun it => congrArg (·.2.1) (hi it)
  have hbid : ∀ it, (c'.items it).batchID = (c.items it).batchID := fun it => congrArg (·.2.2) (hi it)
  refine h.shrink (fun k => Shrinks.of_index h (hp k).part (hp k).active (hp k).live)
    (fun it => congrArg Prod.fst (hi it)) hr (fun pk => ?_) ?_ ?_ ?_ ?_ ?_ hd
  · rw [(hp pk).indexed]
    exact (h.perm pk).trans ((hq pk).symm.append (hf.flight pk).symm)
  · intro pk it hit
    rw [(hp pk).pending] at hit
    rw [hdis]
    exact h.queued pk it hit
  · intro id b' hb'
    obtain ⟨b, hlb, h1, h2, -⟩ := hf.lookup id b' hb'
    rw [h1, h2, hb]
    exact h.batch id b hlb
  · intro id b' it hb' hit
    obtain ⟨b, hlb, -, h2, -⟩ := hf.lookup id b' hb'
    rw [h2] at hit
    rw [hdis, hbid]
    exact h.flying id b it hlb hit
  · rw [ha, hf.length]; exact h.slots
  · rw [ha]; exact h.conc

/-- The frame rule for a handler that holds the same queue. -/
lemma StructOK.same (hg : g'.queue = g.queue) (hp : ∀ pk, SamePart (c.part pk) (c'.part pk))
    (hf : SameFlight c c') (hi : ∀ it, (c'.items it).place = (c.items it).place)
    (hr : c'.requestSeq = c.requestSeq) (hb : c'.batchSeq = c.batchSeq)
    (ha : c'.activeProvider = c.activeProvider) (hd : c'.dyn = c.dyn) : StructOK cfg g' c' :=
  h.frame hp (fun pk => by rw [Held.queueOf_congr hg hp]) hf hi hr.ge hb ha (fun d hd' => h.dyn d (hd ▸ hd'))

omit h in
lemma dynOK_apply (s : AdaptiveSettings) (hc : c'.dyn = some (applyAdaptiveSettings cfg s)) : DynOK cfg c' := by
  intro d hd
  rw [hc] at hd
  cases hd
  have hpos := cfg.maxConcurrency_pos
  unfold applyAdaptiveSettings clampInt
  dsimp only
  split
  · split <;> split <;> omega
  · omega

lemma StructOK.quiet (hq : Quiet cfg c c') : StructOK cfg g c' := by
  have hp := SamePart.of_eq hq.partitions
  refine h.frame hp (fun pk => by rw [Held.queueOf_congr rfl hp]) (SameFlight.of_eq hq.inflight)
    (fun it => by rw [hq.items]) hq.requestSeq hq.batchSeq hq.activeProvider ?_
  intro d hd
  exact h.dyn d (hq.dyn ▸ hd)

/-- What the adaptive controller may set is within the configured limits. -/
lemma StructOK.adapt {d}
    (hd : d = none ∨ ∃ s, d = some (applyAdaptiveSettings cfg s)) : StructOK cfg g { c with dyn := d } := by
  refine h.frame (SamePart.of_eq rfl) (fun _ => Perm.refl _) (SameFlight.of_eq rfl) (fun _ => rfl) le_rfl rfl rfl ?_
  rcases hd with rfl | ⟨s, rfl⟩
  · rintro _ ⟨⟩
  · exact dynOK_apply s rfl

end

end Frame

/-! ## What the invariant says about single items -/

section Facts

section

variable (h : StructOK cfg g c)
include h

lemma StructOK.queue_indexed (hit : it ∈ g.queueOf c pk) : it ∈ (c.part pk).indexed :=
  (h.perm pk).mem_iff.2 (mem_append_left _ hit)

lemma StructOK.held_indexed (hg : g.queue = some (pk, l)) (hit : it ∈ l) : it ∈ (c.part pk).indexed :=
  h.queue_indexed (by rwa [Held.queueOf_some hg, if_pos rfl])

/-- Without live items nothing is indexed. -/
lemma StructOK.indexed_nil (hlive : (c.part pk).live = 0) : (c.part pk).indexed = [] := by
  have := h.live pk
  rw [hlive] at this
  exact eq_nil_of_length_eq_zero (by exact_mod_cast this.symm)

lemma StructOK.part_retire (k : GoString) :
    Coord.part { c with partitions := c.partitions.erase (c.part pk).part.encoded } k =
      if k = pk then PartitionState.new ⟨k⟩ else c.part k := by
  rw [part_erase rfl, h.enc]

lemma StructOK.batch_indexed (hb : c.inflight.lookup id = some b)
    (hit : it ∈ b.items) : it ∈ (c.part b.partition).indexed :=
  (h.perm _).mem_iff.2 (mem_append_right _ (mem_flight.2 ⟨id, b, hb, rfl, hit⟩))

lemma StructOK.mem_bucket (hit : it ∈ (c.part pk).indexed) : it ∈ (c.part pk).bucket (c.items it).hash := by
  obtain ⟨k, hk⟩ := mem_indexed.1 hit
  rw [h.hash pk k it hk]
  exact hk

lemma StructOK.queue_nodup (pk : GoString) :
    (g.queueOf c pk ++ c.flight pk).Nodup := (h.perm pk).nodup_iff.1 (h.nodup pk)

/-- An item of the index that is not dispatched is in the queue. -/
lemma StructOK.pending_of_not_dispatched (hit : it ∈ (c.part pk).indexed)
    (hd : (c.items it).dispatched = false) : it ∈ g.queueOf c pk := by
  rcases mem_append.1 ((h.perm pk).mem_iff.1 hit) with hq | hf
  · exact hq
  obtain ⟨id, b, hb, -, hib⟩ := mem_flight.1 hf
  rw [(h.flying id b it hb hib).1] at hd
  cases hd

/-- A dispatched item of the index is in flight, in the batch it names. -/
lemma StructOK.flight_of_dispatched (hg : g.queue = none) (hit : it ∈ (c.part pk).indexed)
    (hd : (c.items it).dispatched = true) :
    ∃ b, c.inflight.lookup (c.items it).batchID = some b ∧ b.partition = pk ∧ it ∈ b.items := by
  rcases mem_append.1 ((h.perm pk).mem_iff.1 hit) with hq | hf
  · rw [Held.queueOf_none hg] at hq
    rw [h.queued pk it hq] at hd
    cases hd
  obtain ⟨id, b, hb, hpk, hib⟩ := mem_flight.1 hf
  rw [(h.flying id b it hb hib).2]
  exact ⟨b, hb, hpk, hib⟩

omit h in
/-- A partition that holds an item is in the table. -/
lemma Coord.mem_partitions_of_indexed (hit : it ∈ (c.part pk).indexed) : pk ∈ c.partitions := by
  by_contra hn
  rw [part_of_none c (AList.lookup_eq_none.2 hn)] at hit
  cases hit

lemma StructOK.batch_nodup (hb : c.inflight.lookup id = some b) : b.items.Nodup := by
  have hn := (nodup_append.1 (h.queue_nodup b.partition)).2.1
  unfold Coord.flight at hn
  have hp := (Table.gather_erase hb
    (fun x : BatchInflight => if x.partition = b.partition then x.items else [])).nodup_iff.1 hn
  rw [if_pos rfl] at hp
  exact (nodup_append.1 hp).1

end

end Facts

/-! ## Items enter and leave the index -/

section Steps

section

variable (h : StructOK cfg g c)
include h

/-- **An item leaves its queue and the index.** -/
theorem StructOK.remove (hc : c'.partitions = c.partitions.insert pk p)
    (hpart : p.part = (c.part pk).part) (hpend : ∀ x ∈ p.pending, x ∈ (c.part pk).pending)
    (hact : p.active = unindex (c.part pk).active (c.items it).hash it) (hlive : p.live = (c.part pk).live - 1)
    (hq : ∀ k, (g.queueOf c k).Perm (if k = pk then it :: g'.queueOf c' k else g'.queueOf c' k))
    (hf : c'.inflight = c.inflight) (hi : ∀ it, (c'.items it).place = (c.items it).place)
    (hr : c'.requestSeq = c.requestSeq) (hb : c'.batchSeq = c.batchSeq)
    (ha : c'.activeProvider = c.activeProvider) (hd : c'.dyn = c.dyn) : StructOK cfg g' c' := by
  have hq' := hq pk
  rw [if_pos rfl] at hq'
  have hin : it ∈ (c.part pk).indexed := h.queue_indexed (hq'.mem_iff.2 (mem_cons_self ..))
  have hidx : (c.part pk).indexed.Perm (it :: p.indexed) := by
    have := gather_unindex (h.mem_bucket hin)
    unfold indexed
    rw [hact]
    exact this
  have hpk : ∀ k, c'.part k = if k = pk then p else c.part k := part_insert hc
  have hfl : c'.flight = c.flight := flight_congr hf
  have hdis : ∀ it, (c'.items it).dispatched = (c.items it).dispatched := fun it => congrArg (·.2.1) (hi it)
  refine h.shrink (Shrinks.at h hpk ⟨?_, ?_, ?_, ?_, ?_⟩) (fun it => congrArg Prod.fst (hi it)) hr.ge ?_ ?_ ?_ ?_ ?_ ?_ ?_
  · rw [hpart]; exact h.enc pk
  · intro x l hl
    rw [hact] at hl
    exact full_unindex (h.full pk) hl
  · intro x it' hx
    unfold bucket at hx ⊢
    rw [hact, lookup_unindex] at hx
    split at hx
    · exact mem_of_mem_erase hx
    · exact hx
  · exact (nodup_cons.1 (hidx.nodup_iff.1 (h.nodup pk))).2
  · rw [hlive, h.live pk, hidx.length_eq, length_cons]; push_cast; ring
  · intro k
    rw [hpk, hfl]
    by_cases hk : k = pk
    · subst hk
      rw [if_pos rfl]
      exact Perm.cons_inv (hidx.symm.trans ((h.perm k).trans (hq'.append_right _)))
    have hqk := hq k
    rw [if_neg hk] at hqk ⊢
    exact (h.perm k).trans (hqk.append_right _)
  · intro k x hx
    rw [hpk] at hx
    rw [hdis]
    split at hx
    · exact h.queued pk x (hpend x hx)
    · exact h.queued k x hx
  · rw [hf, hb]; exact h.batch
  · intro id b x hl hx
    rw [hf] at hl
    rw [hdis, show (c'.items x).batchID = (c.items x).batchID from congrArg (·.2.2) (hi x)]
    exact h.flying id b x hl hx
  · rw [ha, hf]; exact h.slots
  · rw [ha]; exact h.conc
  · intro d hd'; exact h.dyn d (hd ▸ hd')

lemma StructOK.cancelDrop (hg : g.queue = none) (w : WaiterId) (hin : it ∈ (c.part pk).indexed)
    (hdis : (c.items it).dispatched = false) : StructOK cfg g ((c.cancelWaiter pk it w).unqueue pk it) := by
  have hpend : it ∈ (c.part pk).pending := by
    have := h.pending_of_not_dispatched hin hdis
    rwa [Held.queueOf_none hg] at this
  obtain ⟨c', hc'⟩ : ∃ c', c' = (c.cancelWaiter pk it w).unqueue pk it := ⟨_, rfl⟩
  rw [← hc']
  rw [cancelDrop_eq] at hc'
  have hc : c'.partitions = c.partitions.insert pk _ := congrArg Coord.partitions hc'
  have hq : ∀ k, (g.queueOf c k).Perm (if k = pk then it :: g.queueOf c' k else g.queueOf c' k) := by
    intro k
    rw [Held.queueOf_none hg, Held.queueOf_none hg, part_insert hc]
    split
    · rename_i he; subst he; exact perm_cons_erase hpend
    · exact Perm.refl _
  subst hc'
  exact h.remove rfl rfl (fun x hx => mem_of_mem_erase hx) rfl rfl hq rfl (view_update _ rfl) rfl rfl rfl rfl

lemma StructOK.resolve {l l' : List ItemId} (hg : g.queue = some (pk, l)) (hl : l.Perm (it :: l'))
    (r : Result V E) (hnd : ∀ x, (c.items x).waiters.Nodup) :
    StructOK cfg { g with queue := some (pk, l') } ((c.deliverAll it r).dropItem pk it) := by
  obtain ⟨c', hc'⟩ : ∃ c', c' = (c.deliverAll it r).dropItem pk it := ⟨_, rfl⟩
  rw [← hc']
  rw [resolve_eq hnd] at hc'
  have hc : c'.partitions = c.partitions.insert pk _ := congrArg Coord.partitions hc'
  set g' : Held K := { g with queue := some (pk, l') } with hg'
  have hq : ∀ k, (g.queueOf c k).Perm (if k = pk then it :: g'.queueOf c' k else g'.queueOf c' k) := by
    intro k
    rw [Held.queueOf_some hg, Held.queueOf_some rfl, part_insert hc]
    by_cases hk : k = pk
    · rw [if_pos hk.symm, if_pos hk.symm, if_pos hk]; exact hl
    · rw [if_neg (Ne.symm hk), if_neg (Ne.symm hk), if_neg hk, if_neg hk]
  subst hc'
  exact h.remove rfl rfl (fun x hx => hx) rfl rfl hq rfl (fun _ => rfl) rfl rfl rfl rfl

/-- **A new item enters the queue and the index.** -/
theorem StructOK.enqueue (hg : g.queue = none) (now : Time) (req : SubmitReq K) (rs : List (SubmitReq K)) :
    StructOK cfg { g with reqs := rs } (c.enqueue now req) := by
  set pk := req.part.encoded with hpk
  set n := c.requestSeq + 1 with hn
  have hnew : ∀ k, n ∉ (c.part k).indexed := by
    intro k hk
    have := (h.range k n hk).2
    omega
  have hpart := part_enqueue c now req
  have hitem : ∀ k it, it ∈ (c.part k).indexed → (c.enqueue now req).items it = c.items it := by
    intro k it hit
    apply items_enqueue_ne
    rintro rfl
    exact hnew k hit
  have hself := items_enqueue_self c now req
  have hidx := indexed_enqueue_perm c now req
  have hcases : ∀ k it, it ∈ ((c.enqueue now req).part k).indexed → it ∈ (c.part k).indexed ∨ (it = n ∧ k = pk) :=
    fun k it hit => mem_indexed_enqueue.1 hit
  have hfl : (c.enqueue now req).flight = c.flight := flight_congr rfl
  refine ⟨?_, ?_, ?_, ?_, ?_, ?_, ?_, ?_, ?_, h.batch, ?_, h.slots, h.conc, h.dyn⟩
  · intro k
    rw [hpart]
    split <;> exact h.enc k
  · intro k x l hl
    rw [hpart] at hl
    split at hl
    · rcases Table.of_lookup_insert hl with ⟨-, rfl⟩ | ⟨-, hl⟩
      · simp
      · exact h.full k x l hl
    · exact h.full k x l hl
  · intro k x it hx
    rw [hpart] at hx
    split at hx
    · rcases mem_bucket_insert rfl hx with h1 | ⟨h1, h2⟩
      · rw [hitem k it (mem_indexed.2 ⟨x, h1⟩)]
        exact h.hash k x it h1
      · rw [h1, hself, h2]
    · rw [hitem k it (mem_indexed.2 ⟨x, hx⟩)]
      exact h.hash k x it hx
  · intro k
    have hp := h.perm k
    rw [Held.queueOf_none hg] at hp
    rw [Held.queueOf_none (by exact hg), hfl]
    by_cases hk : k = pk
    · rw [hk] at hp ⊢
      refine hidx.trans ?_
      rw [hpart, if_pos rfl]
      have hmid : ((c.part pk).pending ++ [n] ++ c.flight pk).Perm (n :: ((c.part pk).pending ++ c.flight pk)) := by
        rw [append_assoc, singleton_append]; exact perm_middle
      exact (hp.cons n).trans hmid.symm
    · rw [hpart, if_neg hk]; exact hp
  · intro k
    by_cases hk : k = pk
    · rw [hk]; exact hidx.nodup_iff.2 (nodup_cons.2 ⟨hnew pk, h.nodup pk⟩)
    · rw [hpart, if_neg hk]; exact h.nodup k
  · intro k k' it h1 h2
    rcases hcases k it h1 with h1 | ⟨h1, h1'⟩ <;> rcases hcases k' it h2 with h2 | ⟨h2, h2'⟩
    · exact h.home k k' it h1 h2
    · exact absurd (h2 ▸ h1) (hnew k)
    · exact absurd (h1 ▸ h2) (hnew k')
    · rw [h1', h2']
  · intro k
    by_cases hk : k = pk
    · rw [hk, hidx.length_eq, hpart, if_pos rfl, length_cons]
      rw [h.live pk]
      push_cast
      ring
    · rw [hpart, if_neg hk]; exact h.live k
  · intro k it hit
    show 0 < it ∧ it ≤ c.requestSeq + 1
    rcases hcases k it hit with h1 | ⟨h1, -⟩
    · have := h.range k it h1; omega
    · rw [h1]; omega
  · intro k it hit
    rcases mem_pending_enqueue.1 hit with h1 | ⟨h1, -⟩
    · rw [hitem k it (h.queue_indexed (by rwa [Held.queueOf_none hg]))]
      exact h.queued k it h1
    · rw [h1, hself]
  intro id b it hb hit
  rw [hitem _ it (h.batch_indexed hb hit)]
  exact h.flying id b it hb hit

lemma StructOK.inflight_new : c.inflight.lookup (c.batchSeq + 1) = none := by
  cases hl : c.inflight.lookup (c.batchSeq + 1) with
  | none => rfl
  | some b =>
    have hle : c.batchSeq + 1 ≤ c.batchSeq := (h.batch _ b hl).2.1
    omega

/-- **Selected items move from the queue into a new batch.** -/
theorem StructOK.dispatch (reason : FlushReason) {a : Selection K} (hg : g.queue = some (pk, l))
    (hl : l.Perm (a.selected ++ a.remaining)) (hne : a.selected ≠ []) (hpend : ∀ it ∈ l, it ∈ (c.part pk).pending)
    (hslot : c.activeProvider < cfg.maxConcurrency) :
    StructOK cfg { g with queue := none }
      ((c.setPart pk { c.part pk with pending := a.remaining }).startBatch pk reason a ⟨a.items⟩) := by
  obtain ⟨c', hc'⟩ : ∃ c', c' =
    (c.setPart pk { c.part pk with pending := a.remaining }).startBatch pk reason a ⟨a.items⟩ := ⟨_, rfl⟩
  rw [← hc']
  rw [dispatch_eq] at hc'
  have hnone := h.inflight_new
  have hpart : ∀ k, c'.part k = if k = pk then _ else c.part k := part_insert (congrArg Coord.partitions hc')
  have hfl : ∀ k, c'.flight k = (if pk = k then a.selected else []) ++ c.flight k := by
    intro k
    have := flight_insert hnone (congrArg Coord.inflight hc') k
    rwa [h.enc pk] at this
  have hidx : ∀ k, (c'.part k).indexed = (c.part k).indexed := by
    intro k
    rw [hpart]
    split
    · rename_i he; rw [he]; rfl
    · rfl
  have hitem : ∀ it, it ∉ a.selected → c'.items it = c.items it := by
    intro it hit; rw [hc']; exact if_neg hit
  have hsel : ∀ it ∈ a.selected, c'.items it = { c.items it with dispatched := true, batchID := c.batchSeq + 1 } := by
    intro it hit; rw [hc']; exact if_pos hit
  have hhash : ∀ it, (c'.items it).hash = (c.items it).hash := by
    intro it
    by_cases hit : it ∈ a.selected
    · rw [hsel it hit]
    · rw [hitem it hit]
  have hlsel : ∀ it ∈ a.selected, it ∈ l := fun it hit => hl.mem_iff.2 (mem_append_left _ hit)
  have hqpk : g.queueOf c pk = l := by rw [Held.queueOf_some hg, if_pos rfl]
  have hnd : (a.selected ++ a.remaining).Nodup := by
    have := (nodup_append.1 (h.queue_nodup pk)).1
    rw [hqpk] at this
    exact hl.nodup_iff.1 this
  -- a selected item was queued, so no batch has it yet
  have hfree : ∀ id b it, c.inflight.lookup id = some b → it ∈ b.items → it ∉ a.selected := by
    intro id b it hb hib hit
    have h1 := h.queued pk it (hpend it (hlsel it hit))
    rw [(h.flying id b it hb hib).1] at h1
    cases h1
  have hlook : ∀ id b, c'.inflight.lookup id = some b →
      (id = c.batchSeq + 1 ∧ b.id = c.batchSeq + 1 ∧ b.items = a.selected) ∨
      c.inflight.lookup id = some b := by
    intro id b hb
    rw [hc'] at hb
    rcases Table.of_lookup_insert hb with ⟨he, rfl⟩ | ⟨-, hb⟩
    · exact .inl ⟨he, rfl, rfl⟩
    · exact .inr hb
  refine h.shrink (Shrinks.at h hpart (Shrinks.of_index h rfl rfl rfl)) hhash (by rw [hc']) ?_ ?_ ?_ ?_ ?_ ?_ ?_
  · intro k
    rw [hidx, Held.queueOf_none rfl, hfl, hpart]
    by_cases hk : k = pk
    · subst hk
      have hp := h.perm k
      rw [hqpk] at hp
      rw [if_pos rfl, if_pos rfl, ← append_assoc]
      exact hp.trans ((hl.trans perm_append_comm).append_right _)
    have hp := h.perm k
    rw [Held.queueOf_some hg, if_neg (Ne.symm hk)] at hp
    rw [if_neg hk, if_neg (Ne.symm hk)]
    exact hp
  · intro k it hit
    rw [hpart] at hit
    split at hit
    · have hr : it ∈ a.remaining := hit
      rw [hitem it (fun hs => disjoint_of_nodup_append hnd hs hr)]
      exact h.queued pk it (hpend it (hl.mem_iff.2 (mem_append_right _ hr)))
    rename_i hk
    have hin : it ∈ (c.part k).indexed :=
      h.queue_indexed (by rw [Held.queueOf_some hg, if_neg (Ne.symm hk)]; exact hit)
    rw [hitem it ?_]
    · exact h.queued k it hit
    intro hs
    have hin' : it ∈ (c.part pk).indexed := h.queue_indexed (by rw [hqpk]; exact hlsel it hs)
    exact hk (h.home k pk it hin hin')
  · intro id b hb
    have hseq : c'.batchSeq = c.batchSeq + 1 := by rw [hc']
    rcases hlook id b hb with ⟨h1, h2, h3⟩ | hb
    · rw [h2, h3, h1, hseq]; exact ⟨rfl, le_rfl, hne⟩
    · obtain ⟨h1, h2, h3⟩ := h.batch id b hb
      exact ⟨h1, by rw [hseq]; exact Nat.le_succ_of_le h2, h3⟩
  · intro id b it hb hit
    rcases hlook id b hb with ⟨h1, -, h3⟩ | hb
    · rw [hsel it (h3 ▸ hit), h1]; exact ⟨rfl, rfl⟩
    · rw [hitem it (hfree id b it hb hit)]
      exact h.flying id b it hb hit
  · rw [hc']
    rw [Table.length_insert_new hnone, h.slots]
    push_cast
    ring
  · rw [hc']
    dsimp only
    omega
  · rw [hc']; exact h.dyn

/-- A completed batch hands its items to the handler. -/
lemma StructOK.finish (hg : g.queue = none)
    (hb : c.inflight.lookup id = some b) :
    StructOK cfg { g with queue := some (b.partition, (c.part b.partition).pending ++ b.items) }
      { c.emit (.cancel id) with
        inflight := c.inflight.erase id
        activeProvider := c.activeProvider - 1 } := by
  set c' : Coord K V E := { c.emit (.cancel id) with
    inflight := c.inflight.erase id
    activeProvider := c.activeProvider - 1 } with hc'
  have hlook : ∀ id' b', c'.inflight.lookup id' = some b' → c.inflight.lookup id' = some b' := by
    intro id' b' hb'
    have : (c.inflight.erase id).lookup id' = some b' := hb'
    obtain ⟨-, this⟩ := Table.of_lookup_erase this
    exact this
  have hlen := Table.length_erase hb
  have hslots := h.slots
  refine ⟨h.enc, h.full, h.hash, ?_, h.nodup, h.home, h.live, h.range, h.queued, ?_, ?_, ?_, ?_, h.dyn⟩
  · intro k
    have hp := h.perm k
    rw [Held.queueOf_none hg] at hp
    rw [Held.queueOf_some rfl]
    have hfl := flight_erase hb (show c'.inflight = c.inflight.erase id from rfl) k
    split
    · rename_i he
      subst he
      rw [if_pos rfl] at hfl
      rw [append_assoc]
      exact hp.trans (hfl.append_left _)
    rename_i he
    rw [if_neg he] at hfl
    exact hp.trans (hfl.append_left _)
  · intro id' b' hb'; exact h.batch id' b' (hlook id' b' hb')
  · intro id' b' it hb' hit; exact h.flying id' b' it (hlook id' b' hb') hit
  · show c.activeProvider - 1 = ((c.inflight.erase id).entries.length : ℤ)
    omega
  show c.activeProvider - 1 ≤ cfg.maxConcurrency
  have := h.conc
  omega

lemma StructOK.retire (hg : g.queue = none) (hlive : (c.part pk).live = 0) :
    StructOK cfg g { c with partitions := c.partitions.erase (c.part pk).part.encoded } := by
  have hidx := h.indexed_nil hlive
  set c' : Coord K V E := { c with partitions := c.partitions.erase (c.part pk).part.encoded }
  have hpart : ∀ k, c'.part k = if k = pk then PartitionState.new ⟨k⟩ else c.part k := h.part_retire
  refine h.shrink (fun k => ?_) (fun _ => rfl) le_rfl (fun k => ?_) (fun k it hit => ?_) h.batch h.flying h.slots
    h.conc h.dyn
  · rw [hpart]
    split
    · exact ⟨rfl, nofun, nofun, nodup_nil, rfl⟩
    · exact Shrinks.of_index h rfl rfl rfl
  · have hp := h.perm k
    rw [Held.queueOf_none hg] at hp
    rw [Held.queueOf_none hg, show c'.flight k = c.flight k from rfl, hpart]
    split
    · rename_i he
      subst he
      rw [hidx] at hp
      have hnil := append_eq_nil_iff.1 hp.nil_eq.symm
      rw [hnil.2]
      exact Perm.refl _
    · exact hp
  rw [hpart] at hit
  split at hit
  · cases hit
  · exact h.queued k it hit

lemma StructOK.openPart {part} (hn : c.partitions.lookup part.encoded = none) :
    StructOK cfg g (c.setPart part.encoded (PartitionState.new part)) := by
  refine h.same rfl (fun pk => ?_) (SameFlight.of_eq rfl) (fun _ => rfl) rfl rfl rfl rfl
  rw [part_setPart]
  split
  · rename_i he
    rw [he, part_of_none c hn]
    exact SamePart.refl _
  · exact SamePart.refl _

lemma StructOK.join (req : SubmitReq K) (it : ItemId) (rs : List (SubmitReq K)) :
    StructOK cfg { g with reqs := rs } (c.join req it) :=
  h.same rfl (SamePart.insert (p := { c.part req.part.encoded with
    waiters := (c.part req.part.encoded).waiters + 1 }) ⟨rfl, rfl, rfl, rfl⟩ rfl)
    (SameFlight.of_eq rfl) (view_update _ rfl) rfl rfl rfl rfl

lemma StructOK.cancelWaiter (pk : GoString) (it : ItemId) (w : WaiterId) : StructOK cfg g (c.cancelWaiter pk it w) :=
  h.same rfl (SamePart.insert (p := { c.part pk with waiters := (c.part pk).waiters - 1 })
    ⟨rfl, rfl, rfl, rfl⟩ rfl) (SameFlight.of_eq rfl) (view_update _ rfl) rfl rfl rfl rfl

lemma StructOK.cancelFlight (pk : GoString) (w : WaiterId) (hb : c.inflight.lookup (c.items it).batchID = some b) :
    StructOK cfg g ((c.cancelWaiter pk it w).abandon it) := by
  rw [cancelFlight_eq hb]
  have hb' := hb
  exact (h.cancelWaiter pk it w).same rfl (SamePart.of_eq rfl) (SameFlight.replace hb' rfl rfl rfl rfl)
    (fun _ => rfl) rfl rfl rfl rfl

lemma StructOK.cancelBatch (id : BatchId) : StructOK cfg g (c.cancelBatch id) := by
  unfold Coord.cancelBatch
  split
  · exact h
  rename_i b hb
  exact h.same rfl (SamePart.of_eq rfl) (SameFlight.replace hb rfl rfl rfl rfl) (fun _ => rfl) rfl rfl rfl rfl

lemma StructOK.hold (hg : g.queue = none) (pk : GoString) :
    StructOK cfg { g with queue := some (pk, (c.part pk).pending) } c := by
  refine h.frame (fun _ => SamePart.refl _) (fun k => ?_) (SameFlight.of_eq rfl) (fun _ => rfl) le_rfl rfl rfl h.dyn
  rw [Held.queueOf_none hg, Held.queueOf_some rfl]
  split
  · rename_i he; rw [he]
  · exact Perm.refl _

lemma StructOK.unhold (hg : g.queue = some (pk, l)) (hl : l.Perm (c.part pk).pending) :
    StructOK cfg { g with queue := none } c := by
  refine h.frame (fun _ => SamePart.refl _) (fun k => ?_) (SameFlight.of_eq rfl) (fun _ => rfl) le_rfl rfl rfl h.dyn
  rw [Held.queueOf_some hg, Held.queueOf_none rfl]
  split
  · rename_i he; rw [← he]; exact hl.symm
  · exact Perm.refl _

lemma StructOK.release {l l' : List ItemId} (hg : g.queue = some (pk, l)) (hp : l.Perm l')
    (hl : ∀ it ∈ l', it ∈ (c.part pk).pending) :
    StructOK cfg { g with queue := none } (c.setPart pk { c.part pk with pending := l' }) := by
  set c' := c.setPart pk { c.part pk with pending := l' } with hc'
  have hpart : ∀ k, c'.part k = if k = pk then { c.part pk with pending := l' } else c.part k :=
    fun k => part_setPart c pk k _
  have hshrink : Shrinks pk (c.part pk) { c.part pk with pending := l' } := Shrinks.of_index h rfl rfl rfl
  refine h.shrink (Shrinks.at h hpart hshrink) (fun _ => rfl) le_rfl (fun k => ?_) (fun k it hit => ?_) h.batch
    h.flying h.slots h.conc h.dyn
  · have hperm := h.perm k
    rw [Held.queueOf_some hg] at hperm
    rw [Held.queueOf_none rfl, show c'.flight k = c.flight k from rfl, hpart]
    by_cases hk : k = pk
    · subst hk
      rw [if_pos rfl] at hperm ⊢
      exact hperm.trans (hp.append_right _)
    rw [if_neg (Ne.symm hk)] at hperm
    rw [if_neg hk]
    exact hperm
  rw [hpart] at hit
  split at hit
  · exact h.queued pk it (hl it hit)
  · exact h.queued k it hit

end

end Steps

/-! ## Every action -/

section Act

variable [Inhabited V] {es : List (Move K V E)} {jn : JoinRule K V E}

lemma StructOK.sched (h : StructOK cfg g c) (hnd : ∀ it, (c.items it).waiters.Nodup)
    (ha : SchedAct cfg g c g' c') : StructOK cfg g' c' := by
  cases ha with
  | quiet hq => exact h.quiet hq
  | hold pk hg => exact h.hold hg pk
  | release pk l l' hg hp hl => exact h.release hg hp hl
  | tooLarge pk l l' it hg hl _ => exact h.resolve hg hl _ hnd
  | dispatch pk l reason a hg hs hne hl hslot => exact h.dispatch reason hg hs.perm hne hl hslot
  | retire pk hg hl _ => exact h.retire hg hl

/-- **Every action keeps the structural invariant.** -/
theorem StructOK.act (h : StructOK cfg g c) (hnd : ∀ it, (c.items it).waiters.Nodup)
    (ha : Act cfg es jn g c g' c') : StructOK cfg g' c' := by
  have hkeep : ∀ {g₁ : Held K} {c₁ : Coord K V E}, g₁.queue = g.queue →
      c₁.partitions = c.partitions → c₁.inflight = c.inflight → c₁.items = c.items →
      c₁.requestSeq = c.requestSeq → c₁.batchSeq = c.batchSeq →
      c₁.activeProvider = c.activeProvider → c₁.dyn = c.dyn → StructOK cfg g₁ c₁ := by
    intro g₁ c₁ hg hp hf hi hr hb ha hd
    exact h.same hg (SamePart.of_eq hp) (SameFlight.of_eq hf) (fun _ => by rw [hi]) hr hb ha hd
  cases ha with
  | sched hs => exact h.sched hnd hs
  | openPart part hn => exact h.openPart hn
  | join req rest it _ _ _ _ => exact h.join req it rest
  | enqueue now req rest _ hg _ => exact h.enqueue hg now req rest
  | cancelKeep pk it w _ _ => exact h.cancelWaiter pk it w
  | cancelDrop pk it w hg hc _ hd => exact h.cancelDrop hg w hc.indexed hd
  | cancelFlight pk it w b _ _ _ hb => exact h.cancelFlight pk w hb
  | finish id b hg hb => exact h.finish hg hb
  | resolve pk l l' it r hg hl _ => exact h.resolve hg hl r hnd
  | unhold pk l hg hl => exact h.unhold hg hl
  | shut pk it _ _ =>
    rw [deliverAll_eq hnd]
    exact hkeep rfl rfl rfl rfl rfl rfl rfl rfl
  | cancelCtx id _ => exact h.cancelBatch id
  | adapt d hd => exact h.adapt hd
  | _ => exact hkeep rfl rfl rfl rfl rfl rfl rfl rfl

omit [Inhabited V] in
lemma StructOK.init [Inhabited K] : StructOK cfg {} (Coord.init : Coord K V E) where
  enc := fun _ => rfl
  full := by rintro _ _ _ h; cases h
  hash := by rintro _ _ _ h; cases h
  perm := fun _ => Perm.refl _
  nodup := fun _ => nodup_nil
  home := by rintro _ _ _ h; cases h
  live := fun _ => rfl
  range := by rintro _ _ h; cases h
  queued := by rintro _ _ h; cases h
  batch := by rintro _ _ h; cases h
  flying := by rintro _ _ _ h; cases h
  slots := rfl
  conc := by have := cfg.maxConcurrency_pos; show (0 : ℤ) ≤ _; omega
  dyn := by rintro _ h; cases h

end Act

end BatchWeaver
