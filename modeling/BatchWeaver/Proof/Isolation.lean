import BatchWeaver.Proof.Engine
import BatchWeaver.Proof.Limits

/-!
# Scopes and coalescing

The request that `Do` hands to the coordinator has a partition and a key, but not the scope of the
call. So what keeps the requests of two scopes apart is their partitions, and nothing else.

* `Homed`, `reach_homes`: an item is of one partition. Its waiters were submitted to it, its index
  entry is there, and so are the batches it is in.
* `scopes_isolated`: if calls of different scopes never have one partition, they never share an item
  or a batch.
* `scopes_merged`: two scopes, one partition, one item.
-/

namespace BatchWeaver

open Coord

/-! ## The partition of an item -/

variable {it : ItemId}

section Homes

variable {K V E : Type}

/-- The item is of this partition. -/
structure Homed (es : List (Move K V E)) (c : Coord K V E) (it : ItemId) (pk : GoString) : Prop where
  waiter : ∀ w ∈ (c.items it).waiters, ∃ req ∈ submitted es, req.waiter = w ∧ req.part.encoded = pk
  index : ∀ k, it ∈ (c.part k).indexed → k = pk
  sent : ∀ id k reason dl req, Effect.start id k reason dl req ∈ c.out → it ∈ req.ids → k = pk

/-- **Every item is of one partition**; batches are of known items. -/
structure HomesOK (es : List (Move K V E)) (c : Coord K V E) : Prop where
  home : ∀ it, ∃ pk, Homed es c it pk
  old : ∀ id k reason dl req, Effect.start id k reason dl req ∈ c.out → ∀ it ∈ req.ids, it ≤ c.requestSeq

variable {es : List (Move K V E)} {c c' : Coord K V E}

lemma HomesOK.mono (h : HomesOK es c) (m : Move K V E) : HomesOK (es ++ [m]) c := by
  refine ⟨fun it => ?_, h.old⟩
  obtain ⟨pk, hpk⟩ := h.home it
  refine ⟨pk, fun w hw => ?_, hpk.index, hpk.sent⟩
  obtain ⟨req, h1, h2⟩ := hpk.waiter w hw
  exact ⟨req, mem_submitted_mono h1 m, h2⟩

variable [Inhabited V] {cfg : BindingConfig K} {jn : JoinRule K V E}
  {g g' : Held K}

/-- A batch with an item was sent before, or the item is queued in its partition. -/
lemma Act.sent (hok : CoordOK cfg es g c) (ha : Act cfg es jn g c g' c') {id k reason dl req}
    (hs : Effect.start id k reason dl req ∈ c'.out) (hit : it ∈ req.ids) :
    Effect.start id k reason dl req ∈ c.out ∨ it ∈ (c.part k).indexed := by
  rcases ha.mem_out hok hs with hs | hs
  · exact .inl hs
  cases hs with
  | start _ l _ a hg hsel hp _ _ _ =>
    right
    unfold BatchRequest.ids at hit
    rw [hsel.items, batchItems_ids] at hit
    exact hok.struct.held_indexed hg (hsel.perm.mem_iff.2 (List.mem_append_left _ hit))

/-- **Every action keeps each item in its partition.** -/
theorem HomesOK.act (h : HomesOK es c) (hok : CoordOK cfg es g c) (ha : Act cfg es jn g c g' c') : HomesOK es c' := by
  have hsent : ∀ {it pk}, Homed es c it pk → ∀ id k reason dl req,
      Effect.start id k reason dl req ∈ c'.out → it ∈ req.ids → k = pk := by
    intro it pk hpk id k reason dl req hs hit
    rcases ha.sent hok hs hit with hs | hin
    · exact hpk.sent id k reason dl req hs hit
    · exact hpk.index k hin
  refine ⟨fun it => ?_, fun id k reason dl req hs it hit => ?_⟩
  · obtain ⟨pk, hpk⟩ := h.home it
    rcases ha.still hok with hs | ⟨req, rest, x, hg, -, hj, -, rfl⟩ | ⟨now, req, rest, hg, -, -, rfl⟩
    · refine ⟨pk, fun w hw => hpk.waiter w ?_, fun k hk => hpk.index k (hs.indexed k it hk), hsent hpk⟩
      rw [← hs.waiters]
      exact hw
    · -- the item that is joined is in the index of the submission's partition
      have hreq := (hok.waiter.held req (by rw [hg]; simp)).1
      have hin := PartitionState.mem_indexed.2 ⟨_, (joinTarget_some hj).1⟩
      refine ⟨pk, fun w hw => ?_, fun k hk => ?_, hsent hpk⟩
      · rcases mem_waiters_join.1 hw with hw | ⟨rfl, rfl⟩
        · exact hpk.waiter w hw
        · exact ⟨req, hreq, rfl, hpk.index _ hin⟩
      · rw [indexed_join] at hk
        exact hpk.index k hk
    have hreq := (hok.waiter.held req (by rw [hg]; simp)).1
    by_cases hx : it = c.requestSeq + 1
    · -- a new item, in no batch so far
      have hnew : ∀ k, it ∉ (c.part k).indexed := fun k hk => hok.struct.fresh_item hk hx
      refine ⟨req.part.encoded, fun w hw => ?_, fun k hk => ?_, fun id k reason dl r hs hit => ?_⟩
      · rw [hx, items_enqueue_self] at hw
        obtain rfl : w = req.waiter := List.mem_singleton.1 hw
        exact ⟨req, hreq, rfl, rfl⟩
      · rcases mem_indexed_enqueue.1 hk with hk | ⟨-, hk⟩
        · exact absurd hk (hnew k)
        · exact hk
      rcases ha.sent hok hs hit with hs | hin
      · have hle := h.old id k reason dl r hs it hit
        rw [hx] at hle
        exact absurd hle (Nat.not_succ_le_self _)
      · exact absurd hin (hnew k)
    refine ⟨pk, fun w hw => hpk.waiter w ?_, fun k hk => ?_, hsent hpk⟩
    · rw [items_enqueue_ne hx] at hw
      exact hw
    · exact hpk.index k ((mem_indexed_enqueue.1 hk).resolve_right fun h5 => hx h5.1)
  refine le_trans ?_ (ha.requestSeq_le hok)
  rcases ha.sent hok hs hit with hs | hin
  · exact h.old id k reason dl req hs it hit
  · exact (hok.struct.range k it hin).2

lemma reach_homes [Inhabited K] (h : (coordinator cfg).Reach es c) : HomesOK es c := by
  refine reach_always (J := fun es _ c => HomesOK es c) ?_ (fun es m g c hJ => hJ.mono m)
    (fun es g c g' c' hok ha hJ => hJ.act hok ha) h
  refine ⟨fun it => ⟨[], ?_, ?_, ?_⟩, ?_⟩ <;> exact nofun

end Homes

/-! ## Calls of different scopes -/

section Scopes

variable {O : Type} [DecidableEq O] {K V : O → Type} {E : Type}

/-- The call of `Do` that an event starts: its operation, scope and partition. -/
def EngineEvent.starting : EngineEvent O K V E → Option (O × ScopeID × Partition)
  | .op o (.start _ scope part _) => some (o, scope, part)
  | _ => none

/-- A call has a partition that no call of another scope has, on the same operation. -/
def ScopedPartition (_ : List (EngineEvent O K V E)) (s : Engine O K V E) (e : EngineEvent O K V E) : Prop :=
  ∀ x ∈ e.starting, ∀ d ∈ (s.bound x.1).dos.entries, d.2.scope ≠ x.2.1 → d.2.part.encoded ≠ x.2.2.encoded

instance (es : List (EngineEvent O K V E)) (s : Engine O K V E) (e : EngineEvent O K V E) :
    Decidable (ScopedPartition es s e) :=
  inferInstanceAs (Decidable (∀ x ∈ e.starting, ∀ d ∈ (s.bound x.1).dos.entries, _))

variable {id : DoId}

lemma EngineEvent.starting_of_at {o scope part key} {e : EngineEvent O K V E}
    (h : e.at o = some (.start id scope part key)) : e.starting = some (o, scope, part) := by
  cases e with
  | op o' d =>
    by_cases ho : o' = o
    · subst ho
      obtain rfl : d = .start id scope part key := by simpa [EngineEvent.at] using h
      rfl
    · simp [EngineEvent.at, ho] at h
  | send _ _ _ _ _ _ | drop _ _ _ => cases (Option.ite_none_right_eq_some.1 h).2
  | _ => cases h

/-- Calls of different scopes have different partitions. -/
def PartsApart {K V E : Type} (b : Bound K V E) : Prop :=
  ∀ id d id' d', b.dos.lookup id = some d → b.dos.lookup id' = some d' → d.scope ≠ d'.scope →
    d.part.encoded ≠ d'.part.encoded

lemma PartsApart.step {K V E : Type} [Inhabited V] {cfg : OpConfig K} {b b' : Bound K V E} {e} (h : PartsApart b)
    (hs : BoundStep cfg b e b')
    (hq : ∀ id scope part key, e = .start id scope part key → ∀ x ∈ b.dos.entries, x.2.scope ≠ scope →
      x.2.part.encoded ≠ part.encoded) : PartsApart b' := by
  intro i x i' x' hx hx' hne
  rcases hs.origin hx with ⟨he, -⟩ | ⟨d, w, st, hd, rfl, -⟩ <;>
    rcases hs.origin hx' with ⟨he', -⟩ | ⟨d', w', st', hd', rfl, -⟩
  · rw [he] at he'
    injection he' with _ hsc _ _
    exact absurd hsc hne
  · exact fun heq => hq _ _ _ _ he ⟨i', d'⟩ (Table.mem_entries.2 hd') hne.symm heq.symm
  · exact hq _ _ _ _ he' ⟨i, d⟩ (Table.mem_entries.2 hd) hne
  · exact h i d i' d' hd hd' hne

variable [∀ o, Inhabited (K o)] [∀ o, Inhabited (V o)] {cfg : (o : O) → OpConfig (K o)}

variable {es : List (EngineEvent O K V E)} {s : Engine O K V E}

lemma reach_partsApart (h : ((engine cfg).only ScopedPartition).Reach es s) (o : O) : PartsApart (s.bound o) := by
  refine h.invariant (I := fun _ s => PartsApart (s.bound o)) (fun _ _ _ _ hd => by cases hd) ?_
  intro es s e hr hok ih
  show PartsApart ((s.next cfg e).bound o)
  cases he : e.at o with
  | none =>
    rw [bound_next_none he]
    exact ih
  | some d =>
    obtain ⟨hd, hnext⟩ := bound_next_some hok.1 he
    rw [hnext]
    refine ih.step (boundStep_of_ok hd) ?_
    rintro id scope part key rfl
    exact hok.2 _ (EngineEvent.starting_of_at he)

/-- The waiters of an item were submitted to its partition, by calls with that partition. -/
lemma waiter_part (h : (engine cfg).Reach es s) {o d} (hd : (s.bound o).dos.lookup id = some d) {w}
    (hw : d.waiter = some w) {ms} (hms : ∀ req ∈ submitted ms, (s.bound o).net.reqOf req.waiter = some req) {pk}
    (hh : Homed ms (s.bound o).net.coord it pk) (hit : w ∈ ((s.bound o).net.coord.items it).waiters) :
    d.part.encoded = pk := by
  obtain ⟨req, hreq, hrw, hpart⟩ := hh.waiter w hit
  obtain ⟨r, hr, hrpart, -⟩ := reach_agrees ((engine_bound cfg o).reach h) id d w hd hw
  have hreqw := hms req hreq
  rw [hrw, hr] at hreqw
  obtain rfl : r = req := Option.some.inj hreqw
  rw [← hrpart]
  exact hpart

/-- **Scopes are isolated where their partitions differ**: calls of different scopes never wait for
one item, nor for two items of one provider batch. -/
theorem scopes_isolated {es : List (EngineEvent O K V E)} {s : Engine O K V E}
    (h : ((engine cfg).only ScopedPartition).Reach es s) {o : O} {id₁ id₂ : DoId}
    {d₁ d₂ : DoCall (K o) (V o) E} (h₁ : (s.bound o).dos.lookup id₁ = some d₁)
    (h₂ : (s.bound o).dos.lookup id₂ = some d₂) (hne : d₁.scope ≠ d₂.scope) {w₁ w₂ : WaiterId}
    (hw₁ : d₁.waiter = some w₁) (hw₂ : d₂.waiter = some w₂) :
    let c := (s.bound o).net.coord
    (∀ it, ¬(w₁ ∈ (c.items it).waiters ∧ w₂ ∈ (c.items it).waiters)) ∧
    ∀ id req, c.Sent id req → ∀ it₁ ∈ req.ids, ∀ it₂ ∈ req.ids,
      ¬(w₁ ∈ (c.items it₁).waiters ∧ w₂ ∈ (c.items it₂).waiters) := by
  intro c
  have hr := h.of_only
  have hn := ((engine_bound cfg o).comp (bound_net (cfg o))).reach hr
  have hsub := net_submitted hn
  have hhomes := reach_homes (net_refines hn).1
  have hparts := reach_partsApart h o id₁ d₁ id₂ d₂ h₁ h₂ hne
  refine ⟨fun it hit => ?_, fun id req hs it₁ hit₁ it₂ hit₂ hit => ?_⟩
  · obtain ⟨pk, hpk⟩ := hhomes.home it
    refine hparts ?_
    rw [waiter_part hr h₁ hw₁ hsub hpk hit.1, waiter_part hr h₂ hw₂ hsub hpk hit.2]
  obtain ⟨k, reason, dl, hs⟩ := hs
  obtain ⟨pk₁, hpk₁⟩ := hhomes.home it₁
  obtain ⟨pk₂, hpk₂⟩ := hhomes.home it₂
  refine hparts ?_
  rw [waiter_part hr h₁ hw₁ hsub hpk₁ hit.1, waiter_part hr h₂ hw₂ hsub hpk₂ hit.2,
    ← hpk₁.sent id k reason dl req hs hit₁, ← hpk₂.sent id k reason dl req hs hit₂]

end Scopes

/-- Two calls in scopes 1 and 2, with one key, are admitted and flushed. -/
def demoTwoScopes (part₁ part₂ : GoString) : List DemoEvent :=
  [.newScope none .isolateChild, .newScope none .isolateChild] ++ demoEnter 1 1 part₁ 7 ++
    demoArrive part₁ 7 1 ++ demoEnter 2 2 part₂ 7 ++ demoArrive part₂ 7 3 ++
    [demoNet (.turn (flushTurn 0 0 1 fun _ => none))]

/-- In two partitions they are two items of two batches. -/
theorem scopes_isolated_demo :
    let s := (demoEngine false).run (demoEngine false).init (demoTwoScopes [1] [2])
    let c := (s.bound ()).net.coord
    1 ∈ (c.items 2).waiters ∧ 3 ∈ (c.items 4).waiters ∧
      ∀ it, ¬(1 ∈ (c.items it).waiters ∧ 3 ∈ (c.items it).waiters) := by
  intro s c
  have hr : ((demoEngine false).only ScopedPartition).Reach (demoTwoScopes [1] [2]) s :=
    System.reach_of_allowed (by decide)
  have h1 : (s.bound ()).dos.lookup 1 = some ⟨1, ⟨[1]⟩, 7, some 1, .calling⟩ := by decide
  have h2 : (s.bound ()).dos.lookup 2 = some ⟨2, ⟨[2]⟩, 7, some 3, .calling⟩ := by decide
  exact ⟨by decide, by decide, (scopes_isolated hr h1 h2 (by decide) rfl rfl).1⟩

/-- **In one partition the calls of two open scopes share an item, and a batch.** -/
theorem scopes_merged : ∃ es : List DemoEvent, ∃ s : DemoEngine, (demoEngine false).Reach es s ∧
    s.scopes.state 1 = some .open ∧ s.scopes.state 2 = some .open ∧
    ((s.bound ()).dos.lookup 1).map (fun d => (d.scope, d.waiter)) = some (1, some 1) ∧
    ((s.bound ()).dos.lookup 2).map (fun d => (d.scope, d.waiter)) = some (2, some 3) ∧
    ((s.bound ()).net.coord.items 2).waiters = [1, 3] ∧ ∃ req, (s.bound ()).net.coord.Sent 1 req ∧ req.ids = [2] :=
  ⟨demoTwoScopes [1] [1], _, System.reach_of_allowed (by decide), by decide,
    by decide, by decide, by decide, by decide, ⟨[(newBatchItem 2 7).withWeight 1]⟩,
    ⟨[1], .manual, none, by decide⟩, by decide⟩

end BatchWeaver
