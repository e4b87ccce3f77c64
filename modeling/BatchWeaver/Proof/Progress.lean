import BatchWeaver.Proof.Barrier
import BatchWeaver.Proof.Due

/-!
# Progress of barriers

A control request forces one `schedule`, which stops when the provider slots are used up.
What is then left in the queues needs another reason to be dispatched.

* `Coord.batchesNeeded`: the number of batches a queue is split into.
* `schedule_served`: `schedule` leaves nothing queued that is due, or fills the slots; with
  a slot for every batch it leaves nothing queued that is due.
* `barrier_progress`: with a time trigger, or if every control request so far found a slot
  for every batch, an open barrier has a batch in flight or a timer armed.
* `flush_stuck`: a flush that is never answered.
-/

namespace BatchWeaver

open List Coord

variable {K V E : Type} {cfg : BindingConfig K} {es : List (Move K V E)} {pk : GoString}

/-! ## How a queue is split -/

/-- The items of the queue that a pass of `dispatchBatch` leaves, when `n` items are already
selected, of the given weight and bytes. -/
def Coord.leftOver (cfg : BindingConfig K) (c : Coord K V E) : List ItemId → ℕ → ℤ → ℤ → List ItemId
  | [], _, _, _ => []
  | it :: rest, n, weight, bytes =>
    let x := c.items it
    if n = 0 ∧ Coord.itemTooLarge cfg x = true then c.leftOver cfg rest n weight bytes
    else if 0 < n ∧ Coord.fits cfg (c.effectiveMaxBatchSize cfg) n weight bytes x = false then
      it :: c.leftOver cfg rest n weight bytes
    else c.leftOver cfg rest (n + 1) (wrap64 (weight + x.weight)) (wrap64 (bytes + x.bytes))

/-- The passes until a queue is empty; every pass takes at least its first item. -/
def Coord.passes (cfg : BindingConfig K) (c : Coord K V E) : ℕ → List ItemId → ℕ
  | 0, _ => 0
  | _ + 1, [] => 0
  | n + 1, it :: rest => 1 + c.passes cfg n (c.leftOver cfg (it :: rest) 0 0 0)

/-- The number of batches a queue is split into. -/
def Coord.batchesNeeded (cfg : BindingConfig K) (c : Coord K V E) (l : List ItemId) : ℕ := c.passes cfg l.length l

/-- There is a provider slot for every batch the queues are split into. -/
def Coord.HasRoom (cfg : BindingConfig K) (c : Coord K V E) : Prop :=
  c.activeProvider + (c.partitionKeys.map fun pk => c.batchesNeeded cfg (c.part pk).pending).sum ≤
    c.effectiveMaxConcurrency cfg

section

variable {c c' c'' : Coord K V E}

lemma leftOver_length_le (l : List ItemId) : ∀ n weight bytes, (c.leftOver cfg l n weight bytes).length ≤ l.length := by
  induction l with
  | nil => intro _ _ _; exact le_rfl
  | cons it rest ih =>
    intro n weight bytes
    unfold leftOver
    dsimp only
    split
    · exact (ih _ _ _).trans (Nat.le_succ _)
    split
    · exact Nat.succ_le_succ (ih _ _ _)
    · exact (ih _ _ _).trans (Nat.le_succ _)

/-- A pass takes the first item. -/
lemma leftOver_length_lt (it : ItemId) (rest : List ItemId) (weight bytes : ℤ) :
    (c.leftOver cfg (it :: rest) 0 weight bytes).length < (it :: rest).length := by
  unfold leftOver
  dsimp only
  split
  · exact Nat.lt_succ_of_le (leftOver_length_le _ _ _ _)
  · rw [if_neg (fun h => absurd h.1 (lt_irrefl 0))]
    exact Nat.lt_succ_of_le (leftOver_length_le _ _ _ _)

lemma passes_fuel : ∀ (n m : ℕ) (l : List ItemId), l.length ≤ n → l.length ≤ m →
    c.passes cfg n l = c.passes cfg m l := by
  intro n
  induction n with
  | zero =>
    intro m l hn hm
    obtain rfl := eq_nil_of_length_eq_zero (Nat.le_zero.1 hn)
    cases m <;> rfl
  | succ n ih =>
    intro m l hn hm
    cases l with
    | nil => cases m <;> rfl
    | cons it rest =>
      cases m with
      | zero => exact absurd hm (Nat.not_succ_le_zero _)
      | succ m =>
        have hlt : (c.leftOver cfg (it :: rest) 0 0 0).length < (it :: rest).length := leftOver_length_lt it rest 0 0
        unfold passes
        rw [ih m _ (by omega) (by omega)]

lemma batchesNeeded_cons (it : ItemId) (rest : List ItemId) :
    c.batchesNeeded cfg (it :: rest) = 1 + c.batchesNeeded cfg (c.leftOver cfg (it :: rest) 0 0 0) := by
  have hlt : (c.leftOver cfg (it :: rest) 0 0 0).length < (it :: rest).length := leftOver_length_lt it rest 0 0
  unfold Coord.batchesNeeded
  rw [length_cons]
  conv_lhs => unfold passes
  rw [passes_fuel rest.length _ _ (Nat.le_of_lt_succ hlt) le_rfl]

section

variable (hs : ∀ it, (c'.items it).size = (c.items it).size)
include hs

lemma leftOver_congr (hd : c'.dyn = c.dyn) (l : List ItemId) : ∀ n weight bytes,
      c'.leftOver cfg l n weight bytes = c.leftOver cfg l n weight bytes := by
  induction l with
  | nil => intro _ _ _; rfl
  | cons it rest ih =>
    intro n weight bytes
    have hw : (c'.items it).weight = (c.items it).weight := congrArg Prod.fst (hs it)
    have hb : (c'.items it).bytes = (c.items it).bytes := congrArg Prod.snd (hs it)
    have hl : Coord.itemTooLarge cfg (c'.items it) = Coord.itemTooLarge cfg (c.items it) := by
      unfold Coord.itemTooLarge; rw [hw, hb]
    have hf : Coord.fits cfg (c'.effectiveMaxBatchSize cfg) n weight bytes (c'.items it) =
        Coord.fits cfg (c.effectiveMaxBatchSize cfg) n weight bytes (c.items it) := by
      unfold Coord.fits effectiveMaxBatchSize; rw [hw, hb, hd]
    unfold leftOver
    simp only [hl, hf, hw, hb, ih]

lemma passes_congr (hd : c'.dyn = c.dyn) : ∀ (n : ℕ) (l : List ItemId), c'.passes cfg n l = c.passes cfg n l := by
  intro n
  induction n with
  | zero => intro l; rfl
  | succ n ih =>
    intro l
    cases l with
    | nil => rfl
    | cons it rest =>
      unfold passes
      rw [leftOver_congr hs hd, ih]

end

lemma Onward.batchesNeeded (h : Onward c c') (l : List ItemId) : c'.batchesNeeded cfg l = c.batchesNeeded cfg l :=
  passes_congr h.size h.dyn _ l

end

/-! ## A pass of `dispatchBatch` -/

section Passes

variable {c c' : Coord K V E}

section

variable [Inhabited V]

/-- The loop of `dispatchBatch` leaves over what `leftOver` says. -/
lemma select_leftOver (cfg : BindingConfig K) (pk : GoString) : ∀ (l : List ItemId) (c : Coord K V E) (a : Selection K),
    (∀ it ∈ l, 0 < (c.items it).activeWaiters) → a.count = a.selected.length →
    let s := l.foldl (selectItem cfg pk) (c, a)
    s.2.remaining = a.remaining ++ c.leftOver cfg l a.selected.length a.weight a.bytes ∧
      s.1.activeProvider = c.activeProvider := by
  intro l
  induction l with
  | nil =>
    intro c a _ _
    exact ⟨(append_nil _).symm, rfl⟩
  | cons it rest ih =>
    intro c a hpos hcount
    have hit := hpos it (mem_cons_self ..)
    have hrest : ∀ x ∈ rest, 0 < (c.items x).activeWaiters := fun x hx => hpos x (mem_cons_of_mem _ hx)
    rw [foldl_cons]
    unfold leftOver
    by_cases hbig : a.selected.length = 0 ∧ Coord.itemTooLarge cfg (c.items it) = true
    · obtain ⟨-, h3, h4⟩ := failItem_view (c := c) pk it .itemTooLarge
      have hsel : selectItem cfg pk (c, a) it = ({ c.failItem pk it .itemTooLarge with
          queuedItems := c.queuedItems - 1 }, a) := by
        unfold selectItem
        dsimp only
        rw [if_neg (by omega), if_pos hbig]
      have hb : Elsewhere pk c { c.failItem pk it .itemTooLarge with queuedItems := c.queuedItems - 1 } :=
        (failItem_elsewhere it .itemTooLarge).queuedItems _
      obtain ⟨h5, h6⟩ := ih { c.failItem pk it .itemTooLarge with
        queuedItems := c.queuedItems - 1 } a (fun x hx => by dsimp only; rw [h3]; exact hrest x hx) hcount
      rw [hsel, if_pos hbig]
      exact ⟨h5.trans (by rw [leftOver_congr hb.size hb.dyn]), h6.trans h4⟩
    rw [if_neg hbig]
    by_cases hfit : 0 < a.selected.length ∧ Coord.fits cfg (c.effectiveMaxBatchSize cfg)
        a.selected.length a.weight a.bytes (c.items it) = false
    · have hsel : selectItem cfg pk (c, a) it = (c, { a with remaining := a.remaining ++ [it] }) := by
        unfold selectItem
        dsimp only
        rw [if_neg (by omega), if_neg hbig, hcount, if_pos hfit]
      obtain ⟨h5, h6⟩ := ih c { a with remaining := a.remaining ++ [it] } hrest hcount
      rw [hsel, if_pos hfit]
      exact ⟨h5.trans (by rw [append_assoc]; rfl), h6⟩
    obtain ⟨a', ha'⟩ : ∃ a' : Selection K, a' = { a with
        selected := a.selected ++ [it]
        items := a.items ++ [c.batchItem it]
        count := a.count + 1
        weight := wrap64 (a.weight + (c.items it).weight)
        bytes := wrap64 (a.bytes + (c.items it).bytes)
        minSeq := if ((c.items it).seq : WithTop ℕ) < a.minSeq then ((c.items it).seq : WithTop ℕ)
          else a.minSeq } := ⟨_, rfl⟩
    have hsel : selectItem cfg pk (c, a) it = (c, a') := by
      unfold selectItem
      dsimp only
      rw [if_neg (by omega), if_neg hbig, hcount, if_neg hfit, ha', hcount]
    have hlen : a'.selected.length = a.selected.length + 1 := by
      rw [ha', length_append, length_singleton]
    obtain ⟨h5, h6⟩ := ih c a' hrest (by rw [hlen, ha', hcount, Nat.cast_succ])
    rw [hsel, if_neg hfit]
    refine ⟨h5.trans ?_, h6⟩
    rw [hlen, ha']

/-- **A pass of `dispatchBatch`** leaves over what `leftOver` says and takes at most one slot. -/
theorem dispatchBatch_pass (cfg : BindingConfig K)
    (hpos : ∀ it ∈ (c.part pk).pending, 0 < (c.items it).activeWaiters)
    (reason : FlushReason) : let c' := c.dispatchBatch cfg pk reason
    (c'.part pk).pending = c.leftOver cfg (c.part pk).pending 0 0 0 ∧ c'.activeProvider ≤ c.activeProvider + 1 := by
  obtain ⟨h1, h3⟩ := select_leftOver cfg pk (c.part pk).pending c {} hpos rfl
  rw [nil_append] at h1
  unfold dispatchBatch
  dsimp only at h1 h3 ⊢
  set s := (c.part pk).pending.foldl (selectItem cfg pk) (c, {}) with hs
  set c₁ := s.1.setPart pk { s.1.part pk with pending := s.2.remaining } with hc₁
  have hp : (c₁.part pk).pending = c.leftOver cfg (c.part pk).pending 0 0 0 := by
    rw [hc₁, part_setPart, if_pos rfl]
    exact h1
  have ha : c₁.activeProvider = c.activeProvider := h3
  split
  · exact ⟨hp, by omega⟩
  split
  · -- `NewBatchRequest` refuses the batch: its items fail one by one
    rename_i err _
    have hslots : ∀ (l : List ItemId) (c₀ : Coord K V E),
        (l.foldl (fun c it => { c.failItem pk it (.contract cfg.opID err.error) with
          queuedItems := c.queuedItems - 1 }) c₀).activeProvider = c₀.activeProvider :=
      foldl_view (fun c => c.activeProvider) fun c it => (failItem_view pk it _).2.2
    exact ⟨(failAll_pass pk _ s.2.selected c₁).2.trans hp, ((hslots _ c₁).trans ha).le.trans (by omega)⟩
  rename_i req _
  refine ⟨(startBatch_pass pk reason s.2 req).2.trans hp, ?_⟩
  show c₁.activeProvider + 1 ≤ c.activeProvider + 1
  omega

end

/-! ## What `schedule` leaves queued -/

/-- Every queued item is due, whatever the time. -/
def Eager (cfg : BindingConfig K) (force : Bool) : Prop := force = true ∨ cfg.flushMode = .immediate

variable {g g' : Held K} {force : Bool} {t : Turn K V E} {b : Barrier} {n : ℕ}

variable {p : PartitionState}

lemma Eager.shouldDispatch (h : Eager cfg force) (hp : p.pending.length ≠ 0) (now : Time) :
    ∃ reason, c.shouldDispatch cfg p force now = some reason := by
  unfold Coord.shouldDispatch
  rw [if_neg hp]
  rcases h with h | h
  · rw [h]; exact ⟨_, rfl⟩
  split
  · exact ⟨_, rfl⟩
  split
  · exact ⟨_, rfl⟩
  split
  · exact ⟨_, rfl⟩
  split
  · exact ⟨_, rfl⟩
  · rw [h]; exact ⟨_, rfl⟩

/-- What a part of `schedule` does to the queue of `pk`: what is left of it is not due or the slots are used up, and
each batch took one slot. -/
structure Served (cfg : BindingConfig K) (pk : GoString) (force : Bool) (now : Time) (c c' : Coord K V E) : Prop where
  frame : Elsewhere pk c c'
  left : (c'.part pk).pending.Sublist (c.part pk).pending
  done : c'.shouldDispatch cfg (c'.part pk) force now = none ∨ c.effectiveMaxConcurrency cfg ≤ c'.activeProvider
  slots : c'.activeProvider + c.batchesNeeded cfg (c'.part pk).pending ≤
    c.activeProvider + c.batchesNeeded cfg (c.part pk).pending

lemma Onward.effectiveMaxConcurrency (h : Onward c c') :
    c'.effectiveMaxConcurrency cfg = c.effectiveMaxConcurrency cfg := by
  unfold Coord.effectiveMaxConcurrency
  rw [h.dyn]

/-- An empty queue is not due. -/
lemma shouldDispatch_nil (hp : p.pending = []) (force : Bool) (now : Time) :
    c.shouldDispatch cfg p force now = none := by
  unfold Coord.shouldDispatch
  rw [hp]
  rfl

lemma Served.refl {now}
    (hdone : c.shouldDispatch cfg (c.part pk) force now = none ∨ c.effectiveMaxConcurrency cfg ≤ c.activeProvider) :
    Served cfg pk force now c c :=
  ⟨.refl pk c, .refl _, hdone, le_rfl⟩

section

variable [Inhabited V]

lemma dispatchLoop_served (force : Bool) (now : Time) :
    ∀ (n : ℕ) (c : Coord K V E), CoordOK cfg es {} c → (c.part pk).pending.length ≤ n →
      Served cfg pk force now c (dispatchLoop cfg pk force now n c) := by
  intro n
  induction n with
  | zero =>
    intro c _ hn
    exact .refl (.inl (shouldDispatch_nil (eq_nil_of_length_eq_zero (Nat.le_zero.1 hn)) force now))
  | succ n ih =>
    intro c hok hn
    unfold dispatchLoop
    split
    · rename_i hc
      rw [prune_eq (hok.waiter.pos pk)]
      have hne : (c.part pk).pending.length ≠ 0 := by omega
      rw [if_neg hne]
      split
      · rename_i hnone
        exact .refl (.inl hnone)
      rename_i reason _
      obtain ⟨h1, hsub⟩ := dispatchBatch_pending cfg c pk reason
      obtain ⟨h2, h4⟩ := dispatchBatch_pass cfg (hok.waiter.pos pk) reason
      have hok₁ := hok.scheds (dispatchBatch_acts hok rfl pk reason (length_pos_iff.1 hc.1)
        (lt_of_lt_of_le hc.2 (effectiveMaxConcurrency_le hok.struct).2))
      -- the first item is gone
      obtain ⟨it, rest, hl⟩ : ∃ it rest, (c.part pk).pending = it :: rest :=
        exists_cons_of_ne_nil (fun h => hne (by rw [h]; rfl))
      have hneed : c.batchesNeeded cfg (c.part pk).pending =
          1 + c.batchesNeeded cfg (c.leftOver cfg (c.part pk).pending 0 0 0) := by
        rw [hl]; exact batchesNeeded_cons it rest
      have hlt := dispatchBatch_shorter cfg reason hne
      obtain ⟨g1, g2, g3, g4⟩ := ih _ hok₁ (by omega)
      refine ⟨h1.trans g1, g2.trans (hsub.trans (tail_sublist _)), ?_, ?_⟩
      · rw [h1.effectiveMaxConcurrency] at g3; exact g3
      rw [h1.batchesNeeded, h1.batchesNeeded, h2] at g4
      rw [hneed]
      push_cast
      omega
    rename_i hc
    refine .refl ?_
    by_cases hp : (c.part pk).pending = []
    · exact .inl (shouldDispatch_nil hp force now)
    · have := length_pos_of_ne_nil hp
      exact .inr (by omega)

end

section

variable (hok : CoordOK cfg es {} c)
include hok

/-- A partition that is retired has nothing queued. -/
lemma retired_pending (hlive : (c.part pk).live = 0) : (c.part pk).pending = [] := by
  refine eq_nil_iff_forall_not_mem.2 fun it hit => ?_
  have hin : it ∈ (c.part pk).indexed := hok.struct.queue_indexed (by rw [Held.queueOf_none rfl]; exact hit)
  rw [hok.struct.indexed_nil hlive] at hin
  cases hin

lemma maybeRetire_pending (k : GoString) : ((c.maybeRetire pk).part k).pending = (c.part k).pending := by
  unfold maybeRetire
  dsimp only
  split
  · rename_i h
    rw [hok.struct.enc pk, part_erase rfl]
    split
    · rename_i he
      rw [he, retired_pending hok h.1]
      rfl
    · rfl
  · rfl

/-- Retiring a partition changes nothing for the others. -/
lemma maybeRetire_elsewhere : Elsewhere pk c (c.maybeRetire pk) := by
  unfold maybeRetire
  dsimp only
  split
  · refine ⟨⟨rfl, fun _ => rfl, fun _ => rfl, fun _ => rfl, fun w x h => ⟨x, h, .refl x⟩, le_rfl, rfl⟩, fun k hk => ?_⟩
    rw [hok.struct.enc pk, part_erase rfl, if_neg hk]
  · exact .refl pk c

end

section

variable [Inhabited V]

lemma schedulePart_served (force : Bool) (now : Time) (pk : GoString) (hok : CoordOK cfg es {} c) :
    Served cfg pk force now c (schedulePart cfg force now c pk) := by
  unfold schedulePart
  split
  · rename_i hp
    refine .refl (.inl (shouldDispatch_nil ?_ force now))
    rw [part_of_none c hp]
    rfl
  rename_i p hp
  have hpart := part_eq_of_lookup c hp
  obtain ⟨h1, h2, h3, h4⟩ := dispatchLoop_served force now p.pending.length c hok (by rw [hpart])
  have hok₁ := hok.scheds (dispatchLoop_acts rfl pk force now p.pending.length c hok)
  set c₁ := dispatchLoop cfg pk force now p.pending.length c with hc₁
  have hret : ((c₁.maybeRetire pk).part pk).pending = (c₁.part pk).pending := maybeRetire_pending hok₁ pk
  have hslots : (c₁.maybeRetire pk).activeProvider = c₁.activeProvider := by
    unfold maybeRetire
    dsimp only
    split <;> rfl
  refine ⟨h1.trans (maybeRetire_elsewhere hok₁), by rw [hret]; exact h2, ?_, by rw [hret, hslots]; exact h4⟩
  refine h3.imp ?_ fun h => by rw [hslots]; exact h
  intro hnone
  unfold maybeRetire at hret ⊢
  dsimp only at hret ⊢
  split
  · -- a partition that is retired has nothing queued
    rename_i hidle
    rw [if_pos hidle] at hret
    exact shouldDispatch_nil (hret.trans (retired_pending hok₁ hidle.1)) force now
  · exact hnone

/-- What is left of the queues of the partitions `pks` is not due, or the slots are used up. -/
lemma scheduleParts_served (force : Bool) (now : Time) :
    ∀ (pks : List GoString) (c : Coord K V E), pks.Nodup → CoordOK cfg es {} c →
      let c' := pks.foldl (schedulePart cfg force now) c
      Onward c c' ∧ (∀ k, k ∉ pks → c'.part k = c.part k) ∧
      (∀ k, (c'.part k).pending.Sublist (c.part k).pending) ∧
      ((∀ k ∈ pks, c'.shouldDispatch cfg (c'.part k) force now = none) ∨
        c.effectiveMaxConcurrency cfg ≤ c'.activeProvider) ∧
      c'.activeProvider + (pks.map fun k => c.batchesNeeded cfg (c'.part k).pending).sum ≤
        c.activeProvider + (pks.map fun k => c.batchesNeeded cfg (c.part k).pending).sum := by
  intro pks
  induction pks with
  | nil =>
    intro c _ _
    exact ⟨.refl c, fun _ _ => rfl, fun _ => .refl _, .inl (nofun), le_rfl⟩
  | cons pk pks ih =>
    intro c hnd hok
    obtain ⟨hpk, hnd⟩ := nodup_cons.1 hnd
    have hserved := schedulePart_served force now pk hok
    have hok₁ := hok.scheds (schedulePart_acts hok rfl force now pk)
    rw [foldl_cons]
    set c₁ := schedulePart cfg force now c pk with hc₁
    obtain ⟨h1, h2, h3, h4, h5⟩ := ih c₁ hnd hok₁
    set c₂ := pks.foldl (schedulePart cfg force now) c₁ with hc₂
    have hb := hserved.frame
    refine ⟨hb.toOnward.trans h1, fun k hk => ?_, fun k => ?_, ?_, ?_⟩
    · rw [mem_cons, not_or] at hk
      exact (h2 k hk.2).trans (hb.part k hk.1)
    · by_cases hk : k = pk
      · rw [hk]
        exact (h3 pk).trans hserved.left
      · rw [← hb.part k hk]
        exact h3 k
    · rw [hb.effectiveMaxConcurrency] at h4
      rcases h4 with h4 | h4
      · rcases hserved.done with hd | hd
        · left
          intro k hk
          rcases mem_cons.1 hk with rfl | hk
          · rw [h2 k hpk]
            exact h1.shouldDispatch_none hd
          · exact h4 k hk
        · exact .inr (hd.trans h1.provider)
      · exact .inr h4
    have hsame : (pks.map fun k => c.batchesNeeded cfg (c₁.part k).pending) =
        pks.map fun k => c.batchesNeeded cfg (c.part k).pending := by
      refine map_congr_left fun k hk => ?_
      rw [hb.part k (by rintro rfl; exact hpk hk)]
    simp only [hb.batchesNeeded, hsame] at h5
    have hs := hserved.slots
    rw [map_cons, map_cons, sum_cons, sum_cons, h2 pk hpk, Nat.cast_add, Nat.cast_add]
    omega

end

lemma mem_partitionKeys {k} : k ∈ c.partitionKeys ↔ k ∈ c.partitions := by
  unfold Coord.partitionKeys
  rw [mem_insertionSort]
  exact Iff.rfl

lemma nodup_partitionKeys : c.partitionKeys.Nodup := (perm_insertionSort _ _).nodup_iff.2 c.partitions.keys_nodup

lemma computeNextTimer_onward (now : Time) : Onward c (c.computeNextTimer cfg now) := by
  unfold computeNextTimer
  split <;> exact ⟨rfl, fun _ => rfl, fun _ => rfl, fun _ => rfl, fun w x h => ⟨x, h, .refl x⟩, le_rfl, rfl⟩

lemma foldl_isSome {α β : Type} {f : Option β → α → Option β} {p : α → Prop}
    (hf : ∀ o a, o.isSome = true ∨ p a → (f o a).isSome = true) (l : List α) :
    ∀ o, o.isSome = true ∨ (∃ a ∈ l, p a) → (l.foldl f o).isSome = true := by
  induction l with
  | nil =>
    rintro o (h | ⟨a, ha, -⟩)
    · exact h
    · cases ha
  | cons x l ih =>
    rintro o (h | ⟨a, ha, hp⟩)
    · exact ih _ (.inl (hf o x (.inl h)))
    rcases mem_cons.1 ha with rfl | ha
    · exact ih _ (.inl (hf o a (.inr hp)))
    · exact ih _ (.inr ⟨a, ha, hp⟩)

/-- With a wait configured there is a next flush as long as something is queued. -/
lemma nextFlush_isSome (hm : cfg.flushMode = .fixedWindow ∨ cfg.flushMode = .deadlineAware)
    (hw : 0 < c.effectiveMaxWait cfg) (hp : (c.part pk).pending ≠ []) : (c.nextFlush cfg).isSome = true := by
  have hlook : ∃ p, c.partitions.lookup pk = some p ∧ p.pending ≠ [] := by
    cases hl : c.partitions.lookup pk with
    | none => rw [part_of_none c hl] at hp; exact absurd rfl hp
    | some p => exact ⟨p, rfl, by rw [part_eq_of_lookup c hl] at hp; exact hp⟩
  obtain ⟨p, hl, hne⟩ := hlook
  unfold nextFlush
  refine foldl_isSome (p := fun e => e.2.pending ≠ []) (fun o e h => ?_) _ _
    (.inr ⟨⟨pk, p⟩, Table.mem_entries.2 hl, hne⟩)
  have hcons : ∀ (o : Option Time) (t : Time), (consider o t).isSome = true := by
    intro o t
    unfold consider
    cases o with
    | none => rfl
    | some n => dsimp only; split <;> rfl
  cases hq : e.2.pending with
  | nil =>
    exact h.resolve_right fun hn => hn hq
  | cons it rest =>
    dsimp only
    rw [if_pos hw]
    rcases hm with hm | hm
    · rw [hm]; exact hcons o _
    rw [hm]
    dsimp only
    split
    · exact hcons _ _
    · exact hcons o _

/-- An open barrier waits for a batch in flight or for a queued item. -/
lemma open_barrier (hb : c.barrierSatisfied b = false) :
    c.inflight ≠ ∅ ∨ ∃ pk, ∃ it ∈ (c.part pk).pending, (c.items it).seq ≤ b.seq := by
  unfold barrierSatisfied at hb
  split at hb
  · rename_i hp
    exact .inr (anyPending_iff.1 hp)
  split at hb
  · cases hb
  left
  intro hi
  unfold anyInflight at hb
  rw [hi] at hb
  cases hb

variable [Inhabited V]

/-- **`schedule` leaves nothing queued that is due, or fills the slots**; with a slot for every batch it leaves nothing
queued that is due. -/
theorem schedule_served (force : Bool) (now : Time) (hok : CoordOK cfg es {} c) :
    let c' := c.schedule cfg force now
    Onward c c' ∧ (∀ k, (c'.part k).pending.Sublist (c.part k).pending) ∧
      ((∀ k, c'.shouldDispatch cfg (c'.part k) force now = none) ∨ c.effectiveMaxConcurrency cfg ≤ c'.activeProvider) ∧
      (c.HasRoom cfg → ∀ k, c'.shouldDispatch cfg (c'.part k) force now = none) := by
  obtain ⟨h1, h2, h3, h4, h5⟩ := scheduleParts_served force now c.partitionKeys c nodup_partitionKeys hok
  unfold schedule
  set c₁ := c.partitionKeys.foldl (schedulePart cfg force now) c with hc₁
  have hq : Quiet cfg c₁ (c₁.computeNextTimer cfg now) := computeNextTimer_quiet now
  have htimer : Onward c₁ (c₁.computeNextTimer cfg now) := computeNextTimer_onward now
  have hall : (∀ k ∈ c.partitionKeys, c₁.shouldDispatch cfg (c₁.part k) force now = none) →
      ∀ k, (c₁.computeNextTimer cfg now).shouldDispatch cfg ((c₁.computeNextTimer cfg now).part k) force now = none := by
    intro h k
    rw [part_congr hq.partitions]
    refine htimer.shouldDispatch_none ?_
    by_cases hk : k ∈ c.partitionKeys
    · exact h k hk
    refine shouldDispatch_nil ?_ force now
    rw [h2 k hk, part_of_none c (AList.lookup_eq_none.2 fun hin => hk (mem_partitionKeys.2 hin))]
    rfl
  refine ⟨h1.trans htimer, fun k => ?_, ?_, fun hroom => hall ?_⟩
  · rw [part_congr hq.partitions]
    exact h3 k
  · rw [hq.activeProvider]
    exact h4.imp_left hall
  rcases h4 with h4 | h4
  · exact h4
  -- all slots are used, so no batch is left to start
  unfold Coord.HasRoom at hroom
  have hzero : (c.partitionKeys.map fun k => c.batchesNeeded cfg (c₁.part k).pending).sum = 0 := by
    omega
  intro k hk
  have hk0 := sum_eq_zero_iff.1 hzero _ (mem_map_of_mem hk)
  refine shouldDispatch_nil ?_ force now
  cases hp : (c₁.part k).pending with
  | nil => rfl
  | cons it rest =>
    rw [hp, batchesNeeded_cons] at hk0
    omega

/-- **An eager `schedule` empties the queues or fills the slots**; with a slot for every
batch it empties the queues. -/
theorem schedule_eager (he : Eager cfg force) (now : Time) (hok : CoordOK cfg es {} c) :
    let c' := c.schedule cfg force now
    ((∀ k, (c'.part k).pending = []) ∨ c.effectiveMaxConcurrency cfg ≤ c'.activeProvider) ∧
      (c.HasRoom cfg → ∀ k, (c'.part k).pending = []) := by
  intro c'
  obtain ⟨-, -, h1, h2⟩ := schedule_served force now hok
  have hempty : (∀ k, c'.shouldDispatch cfg (c'.part k) force now = none) → ∀ k, (c'.part k).pending = [] := by
    intro h k
    by_contra hne
    obtain ⟨reason, hr⟩ := he.shouldDispatch (fun hlen => hne (eq_nil_of_length_eq_zero hlen)) now
    rw [h k] at hr
    cases hr
  exact ⟨h1.imp_left hempty, fun hroom => hempty (h2 hroom)⟩

/-! ## The flush timer -/

/-- The binding has a time trigger: everything queued is due at once, or after a wait. -/
def TimeTriggered (cfg : BindingConfig K) (c : Coord K V E) : Prop := cfg.flushMode = .immediate ∨
    ((cfg.flushMode = .fixedWindow ∨ cfg.flushMode = .deadlineAware) ∧ 0 < c.effectiveMaxWait cfg)

/-! ## The end of a turn -/

/-- `schedule` reads the dynamic settings only. -/
lemma SchedActs.dyn (h : SchedActs cfg g c g' c') : c'.dyn = c.dyn := by
  refine h.keeps (I := fun _ c₁ => c₁.dyn = c.dyn) ?_ rfl
  rintro g₁ c₁ g₂ c₂ ha hd
  rw [← hd]
  cases ha with
  | quiet hq => exact hq.dyn
  | tooLarge pk l l' it _ _ _ =>
    have ht : (c₁.deliverAll it (.error .itemTooLarge)).tally = c₁.tally := deliverAll_tally it _
    exact congrArg (·.2.2) ht
  | _ => rfl

/-- With no batch in flight a slot is free. -/
lemma schedule_free (hok : CoordOK cfg es {} c) (now : Time) (hidle : (c.schedule cfg force now).inflight = ∅) :
    ¬ c.effectiveMaxConcurrency cfg ≤ (c.schedule cfg force now).activeProvider := by
  have hslots := (hok.scheds (schedule_acts hok rfl force now)).struct.slots
  rw [hidle] at hslots
  have hzero : (c.schedule cfg force now).activeProvider = 0 := hslots
  have hone := (effectiveMaxConcurrency_le hok.struct).1
  omega

/-- **A time trigger leaves nothing queued without a batch in flight or a timer.** -/
theorem schedule_moves (hok : CoordOK cfg es {} c) (ht : TimeTriggered cfg c) (now : Time)
    (hp : ((c.schedule cfg false now).part pk).pending ≠ []) :
    (c.schedule cfg false now).inflight ≠ ∅ ∨ (c.schedule cfg false now).timer.isSome = true ∧
      (c.schedule cfg false now).timerActive = true := by
  rcases ht with hi | ⟨hm, hw⟩
  · -- everything queued was due, so the slots are used up
    left
    have hfull := (schedule_eager (.inr hi) now hok).1.resolve_left fun h => hp (h pk)
    exact fun hidle => schedule_free hok now hidle hfull
  right
  have hacts : SchedActs cfg {} c {} (c.partitionKeys.foldl (schedulePart cfg false now) c) :=
    scheduleParts_acts rfl false now c.partitionKeys c hok
  unfold schedule at hp ⊢
  set c₁ := c.partitionKeys.foldl (schedulePart cfg false now) c with hc₁
  have hq : Quiet cfg c₁ (c₁.computeNextTimer cfg now) := computeNextTimer_quiet now
  rw [part_congr hq.partitions] at hp
  have hw₁ : 0 < c₁.effectiveMaxWait cfg := by
    unfold Coord.effectiveMaxWait at hw ⊢
    rw [hacts.dyn]
    exact hw
  have hsome := nextFlush_isSome hm hw₁ hp
  unfold computeNextTimer
  cases hn : c₁.nextFlush cfg with
  | none => rw [hn] at hsome; cases hsome
  | some next => exact ⟨rfl, rfl⟩

/-- Nothing numbered up to `n` is queued, and new items are numbered beyond. -/
structure Above (n : ℕ) (c : Coord K V E) : Prop where
  le : n ≤ c.submitSeq
  lt : ∀ pk, ∀ it ∈ (c.part pk).pending, n < (c.items it).seq

variable {jn : JoinRule K V E}

lemma Above.act (h : Above n c) (hok : CoordOK cfg es g c) (ha : Act cfg es jn g c g' c') : Above n c' := by
  rcases ha.still hok with hs | ⟨req, rest, x, -, -, -, -, rfl⟩ | ⟨now, req, rest, -, -, -, rfl⟩
  · refine ⟨by rw [hs.submitSeq]; exact h.le, fun pk it hit => ?_⟩
    rw [hs.seq]
    exact h.lt pk it (hs.pending pk it hit)
  · refine ⟨h.le, fun pk it hit => ?_⟩
    rw [pending_join] at hit
    rw [seq_join]
    exact h.lt pk it hit
  refine ⟨h.le.trans (Nat.le_succ _), fun pk it hit => ?_⟩
  rcases mem_pending_enqueue.1 hit with hp | ⟨rfl, -⟩
  · by_cases hx : it = c.requestSeq + 1
    · rw [hx, items_enqueue_self]; exact Nat.lt_succ_of_le h.le
    · rw [items_enqueue_ne hx]; exact h.lt pk it hp
  · rw [items_enqueue_self]; exact Nat.lt_succ_of_le h.le

lemma Above.acts (h : Above n c) (hok : CoordOK cfg es g c) (ha : Acts cfg es jn g c g' c') : Above n c' :=
  (ha.keeps (I := fun g c => CoordOK cfg es g c ∧ Above n c)
    (fun _ _ _ _ ha hI => ⟨hI.1.act ha, hI.2.act hI.1 ha⟩) ⟨hok, h⟩).2

lemma Above.scheds (h : Above n c) (hok : CoordOK cfg es g c) (ha : SchedActs cfg g c g' c') : Above n c' :=
  have hacts : Acts cfg es anyJoin g c g' c' := ha.acts
  h.acts hok hacts

/-- Nothing is queued, dispatched or completed after the closing `schedule` of a turn. -/
lemma finishTurn_view (cfg : BindingConfig K) (now : Time) (ctxErr : CtxErrs E) :
    (c.finishTurn cfg now ctxErr).partitions = (c.schedule cfg false now).partitions ∧
      (c.finishTurn cfg now ctxErr).inflight = (c.schedule cfg false now).inflight ∧
      (c.finishTurn cfg now ctxErr).timer = (c.schedule cfg false now).timer ∧
      (c.finishTurn cfg now ctxErr).timerActive = (c.schedule cfg false now).timerActive := by
  obtain ⟨bs, out, d, h⟩ := finishTurn_eq cfg c now ctxErr
  rw [h]
  exact ⟨rfl, rfl, rfl, rfl⟩

/-- A barrier that is still open at the end of a turn is not satisfied. -/
lemma finishTurn_open {now ctxErr}
    (hb : b ∈ (c.finishTurn cfg now ctxErr).barriers) : let c₁ := c.schedule cfg false now
    b ∈ c₁.barriers ∧ c₁.barrierSatisfied b = false := by
  intro c₁
  unfold finishTurn at hb
  dsimp only at hb
  rw [tryCompleteBarriers_eq] at hb
  split at hb
  · rw [failBarriers_eq] at hb
    cases hb
  obtain ⟨hin, hans⟩ := mem_filter.1 hb
  refine ⟨hin, ?_⟩
  unfold answerTo at hans
  split at hans
  · cases hans
  split at hans
  · cases hans
  · rename_i hs
    simpa using hs

/-- So do the handlers. -/
lemma handle_dyn (hok : CoordOK cfg es {} c) (event : Event K V E) : (c.handle cfg event).dyn = c.dyn := by
  cases event with
  | submit now req dl => exact congrArg (·.2.2) (handleSubmit_tally now req)
  | cancel cr => exact congrArg (·.2.2) (handleCancel_tally cr)
  | complete now done => exact congrArg (·.2.2) (handleComplete_tally now done)
  | timer now => exact (timer_scheds hok rfl now).dyn
  | engine => exact handleEngineCancel_tally.2
  | control now ctrl =>
    exact (control_scheds hok rfl (ctrl.kind = .close) now).dyn

/-- A turn handles its event, then ends. -/
lemma turn_eq_finishTurn (h : t.event ≠ .engine) :
    c.turn cfg t = (c.handle cfg t.event).finishTurn cfg t.now t.ctxErr := by
  obtain ⟨event, now, ctxErr⟩ := t
  unfold Coord.turn
  cases event with
  | engine => exact absurd rfl h
  | _ => rfl

/-- The end of a turn opens no barrier. -/
lemma turn_barriers (hok : CoordOK cfg es {} (c.handle cfg t.event)) (hb : b ∈ (c.turn cfg t).barriers) :
    b ∈ (c.handle cfg t.event).barriers := by
  rcases turn_cases cfg c t with h | ⟨-, h⟩
  · rw [h] at hb
    have hin := (finishTurn_open hb).1
    rwa [((schedule_acts hok rfl false t.now).answers hok).1] at hin
  · rw [h] at hb
    exact hb

/-- A control request that finds a slot for every batch empties the queues. -/
lemma handleControl_empty (hok : CoordOK cfg es {} c) (now : Time) (ctrl : ControlReq)
    (hroom : c.HasRoom cfg) (k : GoString) : ((c.handleControl cfg now ctrl).part k).pending = [] := by
  unfold handleControl
  refine (schedule_eager (.inl rfl) now (hok.sched (.quiet (.close cfg c _)))).2 ?_ k
  split
  · have hb : Onward c { c with closing := true } := { Onward.refl c with }
    have hneed : ∀ l, Coord.batchesNeeded cfg { c with closing := true } l = c.batchesNeeded cfg l :=
      hb.batchesNeeded
    unfold Coord.HasRoom
    simp only [hneed]
    exact hroom
  · exact hroom

/-- Every control request is handled with a slot for every batch. -/
def ControlsFit (cfg : BindingConfig K) (c : Coord K V E) : Move K V E → Prop
  | .turn ⟨.control _ _, _, _⟩ => c.HasRoom cfg
  | _ => True

instance (cfg : BindingConfig K) (c : Coord K V E) (m : Move K V E) : Decidable (ControlsFit cfg c m) :=
  match m with
  | .turn ⟨.control _ _, _, _⟩ => inferInstanceAs (Decidable (_ ≤ _))
  | .turn ⟨.submit .., _, _⟩ | .turn ⟨.cancel _, _, _⟩ | .turn ⟨.complete .., _, _⟩
  | .turn ⟨.timer _, _, _⟩ | .turn ⟨.engine, _, _⟩ | .cancelEngine | .adapt _ | .clearAdaptive
  | .newRequestID => .isTrue trivial

/-- What a turn's handler leaves behind of the barriers, if control requests find room:
nothing that an open barrier waits for is queued. -/
lemma handle_above (hok : CoordOK cfg es {} c) (hl : t.event.Legal cfg es c)
    (hfit : ControlsFit cfg c (.turn t)) (h : ∀ b ∈ c.barriers, Above b.seq c) :
    ∀ b ∈ (c.handle cfg t.event).barriers, Above b.seq (c.handle cfg t.event) := by
  have hacts := handle_acts hok hl joinsOnly_true
  have hold : ∀ b ∈ c.barriers, Above b.seq (c.handle cfg t.event) :=
    fun b hb => (h b hb).acts (hok.mono (.turn t)) hacts
  obtain ⟨event, now', ctxErr⟩ := t
  have hsame : (c.handle cfg event).barriers = c.barriers →
      ∀ b ∈ (c.handle cfg event).barriers, Above b.seq (c.handle cfg event) := by
    intro he b hb
    rw [he] at hb
    exact hold b hb
  cases event with
  | submit now req dl => exact hsame (congrArg (·.2.1) (handleSubmit_tally now req))
  | cancel cr => exact hsame (congrArg (·.2.1) (handleCancel_tally cr))
  | complete now done => exact hsame (congrArg (·.2.1) (handleComplete_tally now done))
  | timer now => exact hsame ((timer_scheds hok rfl now).answers hok).1
  | engine =>
    intro b hb
    unfold Coord.handle handleEngineCancel at hb
    rw [failBarriers_eq] at hb
    cases hb
  | control now ctrl =>
    obtain ⟨hbar, hsub, -⟩ := handleControl_barriers hok now ctrl
    intro b hb
    rw [show c.handle cfg (.control now ctrl) = c.handleControl cfg now ctrl from rfl, hbar, mem_append] at hb
    rcases hb with hb | hb
    · exact hold b hb
    rw [mem_singleton.1 hb]
    refine ⟨hsub.ge, fun pk it hit => ?_⟩
    have hempty := handleControl_empty hok now ctrl hfit pk
    rw [show c.handle cfg (.control now ctrl) = c.handleControl cfg now ctrl from rfl, hempty] at hit
    cases hit

end Passes

/-! ## Runs -/

section Runs

variable [Inhabited K] [Inhabited V] {c : Coord K V E}

/-- In the runs whose control requests find room, nothing that an open barrier waits for is
queued. -/
lemma reach_above (h : ((coordinator cfg).only fun _ c m => ControlsFit cfg c m).Reach es c) :
    ∀ b ∈ c.barriers, Above b.seq c := by
  refine h.invariant (I := fun _ c => ∀ b ∈ c.barriers, Above b.seq c) nofun ?_
  intro es c m hr hl ih b hb
  have hok := reach_ok hr.of_only
  cases m with
  | turn t =>
    have hok₁ := (hok.mono (.turn t)).acts (handle_acts hok hl.1.2 joinsOnly_true)
    have h1 := handle_above hok hl.1.2 hl.2 ih
    have hacts : Acts cfg (es ++ [.turn t]) anyJoin {} _ {} (c.turn cfg t) := turn_acts hok₁
    exact (h1 b (turn_barriers hok₁ hb)).acts hok₁ hacts
  | _ => exact ⟨(ih b hb).le, (ih b hb).lt⟩

/-- **Flush, drain and close make progress.** At the end of a turn, if the engine is not
canceled and a barrier is open, a batch is in flight or the flush timer is armed: provided
that the binding has a time trigger, or that every control request so far was handled with
a free provider slot for every batch the queued items are split into. -/
theorem barrier_progress {t : Turn K V E} (hl : Move.Legal cfg es c (.turn t))
    (hcond : ((coordinator cfg).Reach es c ∧ TimeTriggered cfg c) ∨
      (((coordinator cfg).only fun _ c m => ControlsFit cfg c m).Reach es c ∧ ControlsFit cfg c (.turn t)))
    (he : (c.move cfg (.turn t)).engineDone = false) (hb : (c.move cfg (.turn t)).barriers ≠ []) :
    (c.move cfg (.turn t)).inflight ≠ ∅ ∨
      ((c.move cfg (.turn t)).timer.isSome = true ∧ (c.move cfg (.turn t)).timerActive = true) := by
  have hr : (coordinator cfg).Reach es c := hcond.elim And.left fun h => h.1.of_only
  have hok := reach_ok hr
  have hacts := handle_acts hok hl.2 joinsOnly_true
  have hok₁ := (hok.mono (.turn t)).acts hacts
  have hev : t.event ≠ .engine := by
    intro hev
    have hd : c.engineDone = true := by
      have := hl.2
      rw [hev] at this
      exact this
    rw [(Forward.acts (hok.mono _) (move_acts hok hl joinsOnly_true)).engineDone hd] at he
    cases he
  rw [show c.move cfg (.turn t) = _ from turn_eq_finishTurn hev] at hb ⊢
  obtain ⟨b, hb⟩ := exists_mem_of_ne_nil _ hb
  obtain ⟨hin, hopen⟩ := finishTurn_open hb
  obtain ⟨-, hfl, htm, hta⟩ := finishTurn_view (c := c.handle cfg t.event) cfg t.now t.ctxErr
  rw [hfl, htm, hta]
  rcases open_barrier hopen with hne | ⟨pk, it, hit, hseq⟩
  · exact .inl hne
  rcases hcond with ⟨-, ht⟩ | ⟨hfit, hnow⟩
  · refine schedule_moves hok₁ ?_ t.now (ne_nil_of_mem hit)
    unfold TimeTriggered Coord.effectiveMaxWait at ht ⊢
    rw [handle_dyn hok]
    exact ht
  -- a queued item that the barrier waits for contradicts the invariant
  have hsched := schedule_acts hok₁ rfl false t.now
  rw [(hsched.answers hok₁).1] at hin
  have habove := handle_above hok hl.2 hnow (reach_above hfit) b hin
  have hafter := habove.scheds hok₁ hsched
  exact absurd hseq (not_le.2 (hafter.lt pk it hit))

/-- A flush with the only slot taken in immediate mode, and a drain with the slot free in manual
mode. -/
theorem barrier_progress_demo :
    (demoRun .immediate [demoSubmit [1] 1 1 none, demoSubmit [2] 2 2 none, demoControl .flush 7]).inflight ≠ ∅ ∧
      (demoRun .manual [demoSubmit [1] 1 1 none, demoControl .drain 7]).inflight ≠ ∅ := by
  constructor
  · have hr : (coordinator (demo .immediate)).Reach [demoSubmit [1] 1 1 none, demoSubmit [2] 2 2 none]
        (demoRun .immediate [demoSubmit [1] 1 1 none, demoSubmit [2] 2 2 none]) :=
      System.reach_of_allowed (by decide)
    have hl : Move.Legal (demo .immediate) [demoSubmit [1] 1 1 none, demoSubmit [2] 2 2 none]
        (demoRun .immediate [demoSubmit [1] 1 1 none, demoSubmit [2] 2 2 none])
        (demoControl .flush 7) := by decide
    refine (barrier_progress hl (.inl ⟨hr, .inl rfl⟩) (by decide)
      (by decide)).resolve_right fun h => absurd h.1 (by decide)
  have hr : ((coordinator (demo .manual)).only fun _ c m => ControlsFit (demo .manual) c m).Reach
      [demoSubmit [1] 1 1 none] (demoRun .manual [demoSubmit [1] 1 1 none]) :=
    System.reach_of_allowed (by decide)
  have hl : Move.Legal (demo .manual) [demoSubmit [1] 1 1 none]
      (demoRun .manual [demoSubmit [1] 1 1 none]) (demoControl .drain 7) := by decide
  refine (barrier_progress hl (.inr ⟨hr, by decide⟩) (by decide)
    (by decide)).resolve_right fun h => absurd h.1 (by decide)

/-- **A flush that is never answered.** In manual mode, with one slot, two partitions are flushed.
The flush starts a batch of the first only; when that batch has completed, the second call is
still queued and the barrier open, and there is neither a batch in flight nor a timer. -/
theorem flush_stuck :
    let es := [demoSubmit [1] 1 1 none, demoSubmit [2] 2 2 none, demoControl .flush 7, demoComplete 1 [.success 1 5]]
    let c := demoRun .manual es
    (coordinator (demo .manual)).Reach es c ∧ c.engineDone = false ∧ c.barriers = [⟨.flush, 2, 7, true⟩] ∧
      (c.part [2]).pending = [2] ∧ c.active 2 = true ∧ c.inflight = ∅ ∧ c.timer = none :=
  ⟨System.reach_of_allowed (show _ by decide), by decide, by decide,
    by decide, by decide, AList.ext (by decide), by decide⟩

end Runs

end BatchWeaver
