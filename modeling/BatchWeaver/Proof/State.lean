import BatchWeaver.Spec.Loop

/-!
# Views of the state

How the elementary updates change what the invariants read: the partition under a
key, the items of an index, the activity of a waiter, the items in flight.

* `part_setPart`, `part_erase`: the partition read back after an update.
* `indexed_insert`, `gather_unindex`: an index gains or loses exactly one item.
* `deliverAll_eq`: delivering to all waiters of an item, in closed form.
-/

namespace BatchWeaver

open List

variable {K V E : Type} {p : PartitionState} {m : Table UInt64 (List ItemId)}

/-- One item changes, not what a view of it shows. -/
lemma view_update {β : Type} (view : QItem K → β) {f : ItemId → QItem K} {it x}
    (hx : view x = view (f it)) (y : ItemId) : view (Function.update f it x y) = view (f y) := by
  by_cases hy : y = it
  · subst hy; rw [Function.update_self]; exact hx
  · rw [Function.update_of_ne hy]

/-! ## The deduplication index of a partition -/

namespace PartitionState

lemma mem_indexed {it} : it ∈ p.indexed ↔ ∃ h, it ∈ p.bucket h := by
  unfold indexed bucket
  rw [Table.mem_gather]
  constructor
  · rintro ⟨h, l, hl, hit⟩; exact ⟨h, by rw [hl]; exact hit⟩
  rintro ⟨h, hit⟩
  cases hl : p.active.lookup h with
  | none => rw [hl] at hit; simp at hit
  | some l => rw [hl] at hit; exact ⟨h, l, hl, hit⟩

/-- Adding an item to its bucket adds it to the index. -/
lemma indexed_insert (p : PartitionState) (h : UInt64) (it : ItemId) :
    (Table.gather (p.active.insert h (p.bucket h ++ [it])) id).Perm (it :: p.indexed) := by
  rw [Table.gather_insert]
  unfold indexed bucket
  cases hl : p.active.lookup h with
  | none =>
    rw [Table.erase_of_lookup_none hl]
    simp
  | some l =>
    have hg := Table.gather_erase hl id
    simp only [id, Option.getD_some, append_assoc, singleton_append] at hg ⊢
    exact (perm_middle).trans (hg.symm.cons it)

lemma mem_bucket_insert {h h' it x} (hm : m = p.active.insert h (p.bucket h ++ [it])) (hx : x ∈ (m.lookup h').getD []) :
    x ∈ p.bucket h' ∨ (x = it ∧ h' = h) := by
  rw [hm, Table.lookup_insert_if] at hx
  split at hx
  · rename_i hh
    subst hh
    simp only [Option.getD_some, mem_append, mem_singleton] at hx
    rcases hx with hx | hx
    · exact .inl hx
    · exact .inr ⟨hx, rfl⟩
  · exact .inl hx

end PartitionState

namespace Coord

variable (c : Coord K V E)

/-- An index without an item of the bucket `h`. -/
def unindex (m : Table UInt64 (List ItemId)) (h : UInt64) (it : ItemId) : Table UInt64 (List ItemId) :=
  if (((m.lookup h).getD []).erase it).length = 0 then m.erase h
  else m.insert h (((m.lookup h).getD []).erase it)

lemma removeActive_eq (p : PartitionState) (it : ItemId) :
    c.removeActive p it = { p with active := unindex p.active (c.items it).hash it } := by
  unfold removeActive unindex PartitionState.bucket
  dsimp only
  split <;> rfl

lemma lookup_unindex (m : Table UInt64 (List ItemId)) (h h' : UInt64) (it : ItemId) :
    ((unindex m h it).lookup h').getD [] =
      if h' = h then ((m.lookup h').getD []).erase it else (m.lookup h').getD [] := by
  unfold unindex
  by_cases hh : h' = h
  · subst hh
    rw [if_pos rfl]
    split
    · rename_i he
      rw [Table.lookup_erase_if, if_pos rfl]
      exact (eq_nil_of_length_eq_zero he).symm
    · rw [Table.lookup_insert_if, if_pos rfl]; rfl
  rw [if_neg hh]
  split
  · rw [Table.lookup_erase_if, if_neg hh]
  · rw [Table.lookup_insert_if, if_neg hh]

variable {pk : GoString} {it : ItemId}

/-- Removing an item from its bucket removes it from the index. -/
lemma gather_unindex {h} (hit : it ∈ (m.lookup h).getD []) :
    (Table.gather m id).Perm (it :: Table.gather (unindex m h it) id) := by
  cases hl : m.lookup h with
  | none => rw [hl] at hit; simp at hit
  | some l =>
    rw [hl, Option.getD_some] at hit
    have hg := Table.gather_erase hl id
    have hkey : (l ++ Table.gather (m.erase h) id).Perm (it :: (l.erase it ++ Table.gather (m.erase h) id)) :=
      (perm_cons_erase hit).append_right _
    refine (hg.trans hkey).trans (Perm.cons it ?_)
    unfold unindex
    rw [hl, Option.getD_some]
    split
    · rename_i he
      rw [eq_nil_of_length_eq_zero he]; rfl
    · rw [Table.gather_insert]; rfl

lemma full_unindex {h h' l}
    (hp : ∀ h l, m.lookup h = some l → l ≠ []) (hl : (unindex m h it).lookup h' = some l) : l ≠ [] := by
  unfold unindex at hl
  split at hl
  · obtain ⟨-, hl⟩ := Table.of_lookup_erase hl
    exact hp h' l hl
  rename_i he
  rcases Table.of_lookup_insert hl with ⟨-, rfl⟩ | ⟨-, hl⟩
  · intro h0
    rw [h0] at he
    exact he rfl
  · exact hp h' l hl

/-! ## Partitions -/

lemma part_setPart (pk pk' : GoString) (p : PartitionState) :
    (c.setPart pk p).part pk' = if pk' = pk then p else c.part pk' := by
  unfold part setPart
  rw [Table.lookup_insert_if]
  split <;> rfl

lemma part_eq_of_lookup (h : c.partitions.lookup pk = some p) :
    c.part pk = p := by unfold part; rw [h]; rfl

lemma part_of_none (h : c.partitions.lookup pk = none) :
    c.part pk = PartitionState.new ⟨pk⟩ := by unfold part; rw [h]; rfl

/-- The partition under a key depends on the table only. -/
lemma part_congr {c c' : Coord K V E} (h : c'.partitions = c.partitions) : c'.part = c.part := by
  funext pk; unfold part; rw [h]

lemma part_erase {c c' : Coord K V E} (h : c'.partitions = c.partitions.erase pk) (pk' : GoString) :
    c'.part pk' = if pk' = pk then PartitionState.new ⟨pk'⟩ else c.part pk' := by
  unfold part
  rw [h, Table.lookup_erase_if]
  split <;> rfl

lemma part_insert {c c' : Coord K V E} (h : c'.partitions = c.partitions.insert pk p)
    (pk' : GoString) : c'.part pk' = if pk' = pk then p else c.part pk' := by
  unfold part
  rw [h, Table.lookup_insert_if]
  split <;> rfl

/-! ## Items in flight -/

/-- The items of the in-flight batches of a partition. -/
def flight (pk : GoString) : List ItemId := Table.gather c.inflight fun b => if b.partition = pk then b.items else []

lemma mem_flight {c : Coord K V E} :
    it ∈ c.flight pk ↔ ∃ id b, c.inflight.lookup id = some b ∧ b.partition = pk ∧ it ∈ b.items := by
  unfold flight
  rw [Table.mem_gather]
  constructor
  · rintro ⟨id, b, hb, hit⟩
    split at hit
    · rename_i h; exact ⟨id, b, hb, h, hit⟩
    · simp at hit
  · rintro ⟨id, b, hb, hpk, hit⟩
    exact ⟨id, b, hb, by rw [if_pos hpk]; exact hit⟩

lemma flight_congr {c c' : Coord K V E} (h : c'.inflight = c.inflight) : c'.flight = c.flight := by
  funext pk; unfold flight; rw [h]

variable {id : BatchId} {b : BatchInflight}

/-- Replacing a batch by one with the same items and partition keeps what is in flight. -/
lemma flight_replace {c c' : Coord K V E} {b' : BatchInflight}
    (hb : c.inflight.lookup id = some b) (h : c'.inflight = c.inflight.insert id b')
    (hi : b'.items = b.items) (hp : b'.partition = b.partition) (pk : GoString) :
    (c'.flight pk).Perm (c.flight pk) := by
  unfold flight
  rw [h]
  apply Table.gather_replace hb
  rw [hi, hp]

lemma flight_insert {c c' : Coord K V E}
    (hb : c.inflight.lookup id = none) (h : c'.inflight = c.inflight.insert id b) (pk : GoString) :
    c'.flight pk = (if b.partition = pk then b.items else []) ++ c.flight pk := by
  unfold flight
  rw [h, Table.gather_insert, Table.erase_of_lookup_none hb]

lemma flight_erase {c c' : Coord K V E}
    (hb : c.inflight.lookup id = some b) (h : c'.inflight = c.inflight.erase id) (pk : GoString) :
    (c.flight pk).Perm ((if b.partition = pk then b.items else []) ++ c'.flight pk) := by
  unfold flight
  rw [h]
  exact Table.gather_erase hb _

/-! ## Waiters -/

lemma active_congr {c c' : Coord K V E} (h : c'.waiters = c.waiters) : c'.active = c.active := by
  funext w; unfold active; rw [h]

lemma active_isSome {c : Coord K V E} {w : WaiterId} (h : c.active w = true) : (c.waiters w).isSome = true := by
  unfold active at h
  cases hw : c.waiters w with
  | none => rw [hw] at h; exact absurd h (by decide)
  | some x => rfl

lemma active_deactivate (w v : WaiterId) : (c.deactivate w).active v = if v = w then false else c.active v := by
  unfold deactivate active
  dsimp only
  by_cases hv : v = w
  · subst hv
    rw [if_pos rfl, Function.update_self]
    cases c.waiters v <;> rfl
  · rw [if_neg hv, Function.update_of_ne hv]

/-- The waiters of a list, deactivated. -/
def quiet (ws : List WaiterId) : WaiterId → Option Waiter := fun v =>
  if v ∈ ws then (c.waiters v).map fun x => { x with active := false } else c.waiters v

lemma active_quiet {c c' : Coord K V E} {ws : List WaiterId} (h : c'.waiters = c.quiet ws)
    (v : WaiterId) : c'.active v = if v ∈ ws then false else c.active v := by
  unfold active
  rw [h]
  unfold quiet
  by_cases hv : v ∈ ws
  · rw [if_pos hv, if_pos hv]; cases c.waiters v <;> rfl
  · rw [if_neg hv, if_neg hv]

lemma isSome_quiet (ws : List WaiterId) (v : WaiterId) : (c.quiet ws v).isSome = (c.waiters v).isSome := by
  unfold quiet
  split
  · rw [Option.isSome_map]
  · rfl

/-- `deliver`, in closed form. -/
lemma deliver_eq (w : WaiterId) (r : Result V E) : c.deliver w r = { c with
      waiters := c.quiet [w]
      out := c.out ++ ([w].filter c.active).map (Effect.result · r)
      queuedWaiters := c.queuedWaiters - ([w].filter c.active).length } := by
  have hq : ∀ v, c.quiet [w] v = (if v = w then (c.waiters w).map fun x => { x with active := false }
      else c.waiters v) := by
    intro v
    unfold quiet
    by_cases hv : v = w
    · subst hv; simp
    · simp [hv]
  unfold deliver
  cases ha : c.active w with
  | false =>
    have hw : c.quiet [w] = c.waiters := by
      funext v
      rw [hq]
      split
      · rename_i hv; subst hv
        unfold active at ha
        cases hx : c.waiters v with
        | none => rfl
        | some x =>
          rw [hx] at ha
          simp only at ha
          rw [Option.map_some, ← ha]
      · rfl
    rw [hw]
    simp [ha]
  | true =>
    have hw : Function.update c.waiters w ((c.waiters w).map fun x => { x with active := false }) = c.quiet [w] := by
      funext v
      rw [hq, Function.update_apply]
    simp [ha, deactivate, emit, hw]

/-- **Delivering to a list of distinct waiters, in closed form**: each that was active is
sent the result, and none is active afterwards. -/
theorem deliverList_eq (r : Result V E) : ∀ (ws : List WaiterId) (c : Coord K V E), ws.Nodup →
    ws.foldl (fun c w => c.deliver w r) c = { c with
      waiters := c.quiet ws
      out := c.out ++ (ws.filter c.active).map (Effect.result · r)
      queuedWaiters := c.queuedWaiters - (ws.filter c.active).length } := by
  intro ws
  induction ws with
  | nil =>
    intro c _
    have : c.quiet [] = c.waiters := by funext v; simp [quiet]
    simp [this]
  | cons w ws ih =>
    intro c hnd
    obtain ⟨hw, hnd⟩ := nodup_cons.1 hnd
    rw [foldl_cons, ih _ hnd, deliver_eq]
    set c₁ : Coord K V E := { c with
      waiters := c.quiet [w]
      out := c.out ++ ([w].filter c.active).map (Effect.result · r)
      queuedWaiters := c.queuedWaiters - ([w].filter c.active).length } with hc₁
    -- the waiters left are untouched so far
    have hact : ws.filter c₁.active = ws.filter c.active := by
      apply filter_congr
      intro v hv
      rw [active_quiet (show c₁.waiters = c.quiet [w] from rfl), if_neg]
      rw [mem_singleton]
      rintro rfl
      exact hw hv
    have hqt : c₁.quiet ws = c.quiet (w :: ws) := by
      funext v
      simp only [quiet, hc₁, mem_cons, not_mem_nil, or_false]
      by_cases h1 : v ∈ ws
      · have h2 : v ≠ w := by rintro rfl; exact hw h1
        simp [h1, h2]
      · simp [h1]
    rw [hact, hqt, hc₁]
    have hcons : (w :: ws).filter c.active = [w].filter c.active ++ ws.filter c.active := by
      rw [← filter_append]; rfl
    rw [hcons]
    simp only [map_append, append_assoc, length_append, Nat.cast_add]
    congr 1
    ring

variable {c} in
lemma deliverAll_eq {r} (hnd : ∀ x, (c.items x).waiters.Nodup) : c.deliverAll it r = { c with
      waiters := c.quiet (c.items it).waiters
      out := c.out ++ ((c.items it).waiters.filter c.active).map (Effect.result · r)
      queuedWaiters := c.queuedWaiters - ((c.items it).waiters.filter c.active).length } :=
  deliverList_eq r _ c (hnd it)

end Coord

/-- A loop whose body keeps a view of the state keeps it. -/
lemma foldl_view {α β : Type} {f : Coord K V E → α → Coord K V E} (view : Coord K V E → β)
    (hf : ∀ c x, view (f c x) = view c) (l : List α) (c : Coord K V E) : view (l.foldl f c) = view c := by
  induction l generalizing c with
  | nil => rfl
  | cons x l ih => rw [foldl_cons, ih, hf]

end BatchWeaver
