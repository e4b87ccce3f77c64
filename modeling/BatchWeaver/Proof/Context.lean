import BatchWeaver.Proof.Flight

/-!
# Provider contexts

A batch counts its waiters once, when it is dispatched; afterwards its counter goes down by
one whenever one of its items loses its last waiter, and at zero the context is canceled.

* `no_premature_cancel`: while no submission joins a dispatched item that everyone has left,
  a canceled batch has no active waiter, and nobody joins a canceled batch.
* `abandoned_batch_canceled`: a batch whose items had one waiter each is canceled once
  everyone has left it.
* `deadline_covers`: while no caller joins a batch whose deadline is before their own, a
  batch's deadline covers all its callers; at dispatch it is the latest of theirs.
* `premature_cancel`, `abandoned_not_canceled`, `deadline_cuts_late_join`: runs that fail
  without these conditions.
-/

namespace BatchWeaver

open List Coord

variable {K V E : Type} {cfg : BindingConfig K} {es : List (Move K V E)}

/-- The number of items that count an active waiter. -/
def Coord.liveItems (c : Coord K V E) (its : List ItemId) : ℕ :=
  its.countP fun it => decide (0 < (c.items it).activeWaiters)

section Acts

variable {jn : JoinRule K V E} {g g' : Held K} {c c' : Coord K V E}

/-! ## The counter of a batch -/

variable {its : List ItemId}

lemma liveItems_congr (h : ∀ x ∈ its, (c'.items x).activeWaiters = (c.items x).activeWaiters) :
    c'.liveItems its = c.liveItems its :=
  countP_congr fun x hx => by rw [h x hx]

/-- One item's counter changes. -/
lemma liveItems_change {f : ItemId → ℤ → ℤ} (hf : ∀ x, f x 0 = (c.items x).activeWaiters) (hnd : its.Nodup) {it}
    (hit : it ∈ its) (h : ∀ x ∈ its, (c'.items x).activeWaiters = f x (if x = it then 1 else 0)) :
    (c'.items it).activeWaiters = f it 1 ∧ c.liveItems its + (decide (0 < (c'.items it).activeWaiters)).toNat =
      c'.liveItems its + (decide (0 < (c.items it).activeWaiters)).toNat :=
  ⟨by rw [h it hit, if_pos rfl], countP_change (q := fun x => decide (0 < (c'.items x).activeWaiters)) hnd hit
    fun x hx hne => by rw [h x hx, if_neg hne, hf]⟩

lemma liveItems_eq_zero : c.liveItems its = 0 ↔ ∀ it ∈ its, (c.items it).activeWaiters ≤ 0 := by
  unfold liveItems
  rw [countP_eq_zero]
  exact forall₂_congr fun it _ => by simp

lemma liveItems_le_sum (h : ∀ it ∈ its, 0 < (c.items it).activeWaiters) :
    (c.liveItems its : ℤ) ≤ (its.map fun it => (c.items it).activeWaiters).sum := by
  induction its with
  | nil => exact le_rfl
  | cons it its ih =>
    have h1 := h it (mem_cons_self ..)
    have h2 := ih fun x hx => h x (mem_cons_of_mem _ hx)
    unfold liveItems at h2 ⊢
    rw [countP_cons_of_pos (by simpa using h1), map_cons, sum_cons]
    push_cast
    omega

/-- What an action does to the counter of a batch, its context and its live items. -/
inductive CountStep (jn : Coord K V E → SubmitReq K → ItemId → Prop) (c c' : Coord K V E)
    (b b' : BatchInflight) : Prop
  | keep : b'.activeWaiters = b.activeWaiters → b'.ctx = b.ctx →
      c'.liveItems b.items = c.liveItems b.items → CountStep jn c c' b b'
  /-- An item that everyone had left is joined. -/
  | rejoin (req : SubmitReq K) (it : ItemId) : it ∈ b.items → (c.items it).activeWaiters ≤ 0 →
      jn c req it → b'.activeWaiters = b.activeWaiters → b'.ctx = b.ctx →
      c'.liveItems b.items = c.liveItems b.items + 1 → CountStep jn c c' b b'
  /-- An item loses its last waiter. -/
  | lose : b'.activeWaiters = b.activeWaiters - 1 → b'.ctx = { b.ctx with
        canceled := if b.activeWaiters - 1 = 0 then true else b.ctx.canceled } →
      c.liveItems b.items = c'.liveItems b.items + 1 → CountStep jn c c' b b'
  | shut : c.engineDone = true → b'.activeWaiters = b.activeWaiters →
      b'.ctx = { b.ctx with canceled := true } → c'.liveItems b.items = c.liveItems b.items →
      CountStep jn c c' b b'

/-- A batch in flight was in flight before, or was dispatched just now. -/
lemma BatchStep.count (hok : CoordOK cfg es g c) {id b'} (h : BatchStep jn c c' id b') :
    (∃ b, c.inflight.lookup id = some b ∧ b'.items = b.items ∧ CountStep jn c c' b b') ∨
      (c.batchSeq < id ∧ Pristine c' b') := by
  by_cases hid : c.batchSeq < id
  · exact .inr ⟨hid, h.pristine hok hid⟩
  left
  cases h with
  | keep hb hcnt => exact ⟨b', hb, rfl, .keep rfl rfl (liveItems_congr hcnt)⟩
  | join req it hb hit hjn hcnt =>
    refine ⟨b', hb, rfl, ?_⟩
    obtain ⟨h3, hch⟩ := liveItems_change (fun _ => add_zero _) (hok.struct.batch_nodup hb) hit hcnt
    by_cases hpos : 0 < (c.items it).activeWaiters
    · rw [decide_eq_true hpos, decide_eq_true (by omega)] at hch
      exact .keep rfl rfl (by omega)
    have hz : (c.items it).activeWaiters = 0 := by
      have := hok.waiter.count it
      omega
    rw [decide_eq_false hpos, decide_eq_true (by omega)] at hch
    exact .rejoin req it hit (by omega) hjn rfl rfl hch.symm
  | leave it hb hit hlt hcnt =>
    refine ⟨b', hb, rfl, ?_⟩
    obtain ⟨h3, hch⟩ := liveItems_change (fun _ => sub_zero _) (hok.struct.batch_nodup hb) hit hcnt
    rw [decide_eq_true (by omega), decide_eq_true (by omega)] at hch
    exact .keep rfl rfl (by omega)
  | abandon it b hb heq hit hone hcnt =>
    subst heq
    refine ⟨b, hb, rfl, .lose rfl rfl ?_⟩
    obtain ⟨h3, hch⟩ := liveItems_change (fun _ => sub_zero _) (hok.struct.batch_nodup hb) hit hcnt
    rw [decide_eq_false (by omega), decide_eq_true (by omega)] at hch
    exact hch
  | shut b he hb heq hcnt =>
    subst heq
    exact ⟨b, hb, rfl, .shut he rfl rfl (liveItems_congr hcnt)⟩
  | start h1 h2 h3 h4 h5 h6 => exact absurd h2 hid

/-- **The counter of a batch covers its items**, and a canceled batch's counter is used up. -/
def CounterOK (c : Coord K V E) : Prop :=
  ∀ id b, c.inflight.lookup id = some b → (c.liveItems b.items : ℤ) ≤ b.activeWaiters ∧
    (b.ctx.canceled = true → b.activeWaiters ≤ 0 ∨ c.engineDone = true)

/-- A dispatched item is joined only while it has an active waiter. -/
def JoinsWaiting (c : Coord K V E) (_req : SubmitReq K) (it : ItemId) : Prop :=
  (c.items it).dispatched = true → ∃ w ∈ (c.items it).waiters, c.active w = true

section

variable [Inhabited V]

instance (c : Coord K V E) (req : SubmitReq K) (it : ItemId) : Decidable (JoinsWaiting c req it) :=
  inferInstanceAs (Decidable (_ → _))

lemma CounterOK.act (h : CounterOK c) (hok : CoordOK cfg es g c)
    (ha : Act cfg es JoinsWaiting g c g' c') : CounterOK c' := by
  intro id b' hb'
  have hed := (ha.forward hok).engineDone
  rcases (ha.batch hok hb').count hok with ⟨b, hb, hits, hstep⟩ | ⟨-, hnew⟩
  · obtain ⟨h1, h2⟩ := h id b hb
    rw [hits]
    cases hstep with
    | keep hn hctx hlive =>
      rw [hn, hctx, hlive]
      exact ⟨h1, fun hc => (h2 hc).imp_right hed⟩
    | rejoin req it hit hz hjn _ _ _ =>
      obtain ⟨w, hw, hact⟩ := hjn (hok.struct.flying id b it hb hit).1
      have h3 := waiting_pos hw hact
      have h4 := hok.waiter.count it
      omega
    | lose hn hctx hlive =>
      rw [hn, hctx]
      refine ⟨by omega, fun hc => ?_⟩
      split at hc
      · left; omega
      · exact (h2 hc).imp (by omega) hed
    | shut he hn hctx hlive =>
      rw [hn, hlive]
      exact ⟨h1, fun _ => .inr (hed he)⟩
  refine ⟨?_, fun hc => ?_⟩
  · rw [hnew.sum]; exact liveItems_le_sum hnew.pos
  · rw [hnew.ctx] at hc; cases hc

/-- **The counter of the batch `id` does not exceed its live items**, and at zero the batch
is canceled. -/
structure TightOK (id : ℕ) (c : Coord K V E) : Prop where
  old : id ≤ c.batchSeq
  tight : ∀ b, c.inflight.lookup id = some b → b.activeWaiters ≤ (c.liveItems b.items : ℤ) ∧
    (b.activeWaiters ≤ 0 → b.ctx.canceled = true)

lemma TightOK.act {id} (h : TightOK id c) (hok : CoordOK cfg es g c)
    (ha : Act cfg es jn g c g' c') : TightOK id c' := by
  refine ⟨h.old.trans (ha.forward hok).batchSeq, fun b' hb' => ?_⟩
  rcases (ha.batch hok hb').count hok with ⟨b, hb, hits, hstep⟩ | ⟨hnew, -⟩
  · obtain ⟨h1, h2⟩ := h.tight b hb
    rw [hits]
    cases hstep with
    | keep hn hctx hlive => rw [hn, hctx, hlive]; exact ⟨h1, h2⟩
    | rejoin req it hit hz hjn hn hctx hlive =>
      rw [hn, hctx]
      exact ⟨by omega, h2⟩
    | lose hn hctx hlive =>
      rw [hn, hctx]
      refine ⟨by omega, fun hz => ?_⟩
      split
      · rfl
      · exact h2 (by omega)
    | shut he hn hctx hlive =>
      rw [hn, hctx, hlive]
      exact ⟨h1, fun _ => rfl⟩
  · exact absurd h.old (not_le.2 hnew)

end

/-! ## The latest deadline -/

/-- The deadline of an active waiter, if it has one; `none` if it is not active. -/
def Coord.deadlineOf (c : Coord K V E) (w : WaiterId) : Option (Option Time) :=
  match c.waiters w with
  | some x => if x.active then some (if x.hasDeadline then some x.deadline else none) else none
  | none => none

/-- Every active waiter of the items has a deadline, at most `d`. -/
def Coord.Covered (c : Coord K V E) (its : List ItemId) (d : Time) : Prop :=
  ∀ it ∈ its, ∀ w ∈ (c.items it).waiters, ∀ o, c.deadlineOf w = some o → ∃ t, o = some t ∧ t ≤ d

/-- A loop that keeps the latest of the times it meets and notes whether something had
none: `kind` is `none` for what the loop passes over. -/
lemma foldl_latest {α : Type} {f : Time × Bool × Bool → α → Time × Bool × Bool}
    (kind : α → Option (Option Time)) (hskip : ∀ r y, kind y = none → f r y = r)
    (hbad : ∀ r y, kind y = some none → (f r y).1 = r.1 ∧ (f r y).2.1 = false)
    (hgood : ∀ r y t, kind y = some (some t) → f r y = (if r.1 < t then t else r.1, r.2.1, true)) :
    ∀ (l : List α) (r : Time × Bool × Bool), let r' := l.foldl f r
      r.1 ≤ r'.1 ∧ (∀ y ∈ l, ∀ t, kind y = some (some t) → t ≤ r'.1) ∧
      (r'.1 = r.1 ∨ ∃ y ∈ l, kind y = some (some r'.1)) ∧
      (r'.2.1 = true ↔ r.2.1 = true ∧ ∀ y ∈ l, kind y ≠ some none) ∧
      (r'.2.1 = true → (r'.2.2 = true ↔ r.2.2 = true ∨ ∃ y ∈ l, kind y ≠ none)) := by
  intro l
  induction l with
  | nil => intro r; simp
  | cons y l ih =>
    intro r
    obtain ⟨h1, h2, h3, h4, h5⟩ := ih (f r y)
    simp only [foldl_cons, forall_mem_cons, exists_mem_cons_iff]
    cases hk : kind y with
    | none =>
      rw [hskip r y hk] at h1 h2 h3 h4 h5 ⊢
      exact ⟨h1, ⟨by simp, h2⟩, h3.imp_right .inr, by simpa using h4, by simpa using h5⟩
    | some o =>
      cases o with
      | none =>
        obtain ⟨e1, e2⟩ := hbad r y hk
        rw [e1] at h1 h3
        rw [e2] at h4
        refine ⟨h1, ⟨by simp, h2⟩, h3.imp_right .inr, by simpa using h4, fun hall => ?_⟩
        rw [h4] at hall
        cases hall.1
      | some t =>
        obtain ⟨m, hm⟩ : ∃ m, m = if r.1 < t then t else r.1 := ⟨_, rfl⟩
        have hle : r.1 ≤ m ∧ t ≤ m ∧ (m = t ∨ m = r.1) := by
          rw [hm]
          split
          · rename_i hlt; exact ⟨hlt.le, le_rfl, .inl rfl⟩
          · rename_i hlt; exact ⟨le_rfl, not_lt.1 hlt, .inr rfl⟩
        rw [hgood r y t hk, ← hm] at h1 h2 h3 h4 h5 ⊢
        refine ⟨hle.1.trans h1, ⟨?_, h2⟩, ?_, by simpa using h4, by simpa using h5⟩
        · rintro t' ht
          cases ht
          exact hle.2.1.trans h1
        rcases h3 with h3 | h3
        · rcases hle.2.2 with he | he
          · exact .inr (.inl (by rw [h3, ← he]))
          · exact .inl (h3.trans he)
        · exact .inr (.inr h3)

/-- **`latestDeadline`**: whether all active waiters have deadlines, and the latest. -/
theorem itemLatestDeadline_spec (it : ItemId) : let d := c.itemLatestDeadline it
    0 ≤ d.1 ∧ (∀ w ∈ (c.items it).waiters, ∀ t, c.deadlineOf w = some (some t) → t ≤ d.1) ∧
    (d.1 = 0 ∨ ∃ w ∈ (c.items it).waiters, c.deadlineOf w = some (some d.1)) ∧
    (d.2 = true ↔ (∀ w ∈ (c.items it).waiters, c.deadlineOf w ≠ some none) ∧
      ∃ w ∈ (c.items it).waiters, c.deadlineOf w ≠ none) := by
  have h := foldl_latest (f := fun (r : Time × Bool × Bool) w =>
    match c.waiters w with
    | some x =>
      if !x.active then r
      else if !x.hasDeadline then (r.1, false, true)
      else (if r.1 < x.deadline then x.deadline else r.1, r.2.1, true)
    | none => r) c.deadlineOf ?_ ?_ ?_ (c.items it).waiters (0, true, false)
  · obtain ⟨h1, h2, h3, h4, h5⟩ := h
    refine ⟨h1, h2, h3, ?_⟩
    refine (Bool.and_eq_true _ _).to_iff.trans ?_
    constructor
    · rintro ⟨hany, hall⟩
      exact ⟨(h4.1 hall).2, ((h5 hall).1 hany).resolve_left (by simp)⟩
    rintro ⟨hall, hany⟩
    have hall' := h4.2 ⟨rfl, hall⟩
    exact ⟨(h5 hall').2 (.inr hany), hall'⟩
  all_goals
    intro r w
    unfold Coord.deadlineOf
    cases c.waiters w with
    | none => simp
    | some x => cases hx : x.active <;> cases hd : x.hasDeadline <;> simp [hx, hd]

/-- What the loop of `batchContext` makes of an item. -/
def Coord.deadlineKind (c : Coord K V E) (it : ItemId) : Option (Option Time) :=
  some (if (c.itemLatestDeadline it).2 then some (c.itemLatestDeadline it).1 else none)

lemma deadlineKind_some {it : ItemId} {t : Time} : c.deadlineKind it = some (some t) ↔
    (c.itemLatestDeadline it).2 = true ∧ (c.itemLatestDeadline it).1 = t := by
  unfold Coord.deadlineKind
  cases (c.itemLatestDeadline it).2 <;> simp

lemma deadlineKind_none {it : ItemId} : c.deadlineKind it = some none ↔ ¬(c.itemLatestDeadline it).2 = true := by
  unfold Coord.deadlineKind
  cases (c.itemLatestDeadline it).2 <;> simp

/-- `batchContext` gives a deadline if every item has one to offer, and then the latest. -/
lemma batchContext_iff (its : List ItemId) (d : Time) : c.batchContext its = some d ↔
    its ≠ [] ∧ (∀ it ∈ its, (c.itemLatestDeadline it).2 = true ∧ (c.itemLatestDeadline it).1 ≤ d) ∧
      0 ≤ d ∧ (d = 0 ∨ ∃ it ∈ its, (c.itemLatestDeadline it).1 = d) := by
  let f := fun (r : Time × Bool × Bool) it =>
    let d := c.itemLatestDeadline it
    if !d.2 then (r.1, false, r.2.2)
    else (if r.1 < d.1 then d.1 else r.1, r.2.1, true)
  obtain ⟨h1, h2, h3, h4, h5⟩ := foldl_latest (f := f) c.deadlineKind nofun
    (fun r it hk => by simp [f, deadlineKind_none.1 hk])
    (fun r it t hk => by simp [f, deadlineKind_some.1 hk]) its (0, true, false)
  change (fun r : Time × Bool × Bool => if r.2.2 && r.2.1 then some r.1 else none) (its.foldl f (0, true, false)) = _ ↔ _
  set r := its.foldl f (0, true, false)
  dsimp only
  constructor
  · intro hd
    split at hd
    · rename_i hc
      rw [Bool.and_eq_true] at hc
      cases hd
      have hok : ∀ it ∈ its, (c.itemLatestDeadline it).2 = true := fun it hit =>
        not_not.1 (mt deadlineKind_none.2 ((h4.1 hc.2).2 it hit))
      refine ⟨?_, fun it hit => ⟨hok it hit, h2 it hit _ (deadlineKind_some.2 ⟨hok it hit, rfl⟩)⟩, h1, ?_⟩
      · rintro rfl
        exact absurd ((h5 hc.2).1 hc.1) (by simp)
      · exact h3.imp_right fun ⟨it, hit, hk⟩ => ⟨it, hit, (deadlineKind_some.1 hk).2⟩
    · cases hd
  rintro ⟨hne, hits, h0, hatt⟩
  obtain ⟨x, hx⟩ := exists_mem_of_ne_nil _ hne
  have hall : r.2.1 = true := h4.2 ⟨rfl, fun it hit => mt deadlineKind_none.1 (not_not.2 (hits it hit).1)⟩
  have hany : r.2.2 = true := (h5 hall).2 (.inr ⟨x, hx, nofun⟩)
  rw [hany, hall]
  refine congrArg some (le_antisymm ?_ ?_)
  · rcases h3 with h3 | ⟨it, hit, hk⟩
    · rw [h3]; exact h0
    · rw [← (deadlineKind_some.1 hk).2]; exact (hits it hit).2
  rcases hatt with rfl | ⟨it, hit, rfl⟩
  · exact h1
  · exact h2 it hit _ (deadlineKind_some.2 ⟨(hits it hit).1, rfl⟩)

/-- `d` is the latest deadline of the active waiters of the items, who all have one. -/
def Coord.Latest (c : Coord K V E) (its : List ItemId) (d : Time) : Prop :=
  c.Covered its d ∧ ∃ it ∈ its, ∃ w ∈ (c.items it).waiters, c.deadlineOf w = some (some d)

lemma Coord.Covered.of_batchContext {d} (h : c.batchContext its = some d) : c.Covered its d := by
  obtain ⟨-, hits, -, -⟩ := (batchContext_iff its d).1 h
  intro it hit w hw o ho
  obtain ⟨-, h2, -, h4⟩ := itemLatestDeadline_spec it
  obtain ⟨hok, hle⟩ := hits it hit
  cases o with
  | none => exact absurd ho ((h4.1 hok).1 w hw)
  | some t => exact ⟨t, rfl, (h2 w hw t ho).trans hle⟩

/-- **Over items that all have active waiters, with no deadline before the zero time,
`batchContext` gives the latest deadline, and none if someone has none.** -/
theorem batchContext_latest (hany : ∀ it ∈ its, ∃ w ∈ (c.items it).waiters, c.deadlineOf w ≠ none)
    (hnn : ∀ it ∈ its, ∀ w ∈ (c.items it).waiters, ∀ t, c.deadlineOf w = some (some t) → 0 ≤ t) (d : Time) :
    c.batchContext its = some d ↔ c.Latest its d := by
  constructor
  · intro h
    refine ⟨.of_batchContext h, ?_⟩
    obtain ⟨hne, hits, h0, hatt⟩ := (batchContext_iff its d).1 h
    -- the zero time can only come out if it is someone's deadline
    have hzero : d = 0 → ∃ it ∈ its, ∃ w ∈ (c.items it).waiters, c.deadlineOf w = some (some d) := by
      rintro rfl
      obtain ⟨it, hit⟩ := exists_mem_of_ne_nil _ hne
      obtain ⟨w, hw, hact⟩ := hany it hit
      obtain ⟨o, ho⟩ := Option.ne_none_iff_exists'.1 hact
      obtain ⟨t, rfl, ht⟩ := Coord.Covered.of_batchContext h it hit w hw o ho
      obtain rfl : t = 0 := le_antisymm ht (hnn it hit w hw t ho)
      exact ⟨it, hit, w, hw, ho⟩
    rcases hatt with hd | ⟨it, hit, hd⟩
    · exact hzero hd
    obtain ⟨-, -, h3, -⟩ := itemLatestDeadline_spec it
    rw [hd] at h3
    rcases h3 with h3 | ⟨w, hw, hwd⟩
    · exact hzero h3
    · exact ⟨it, hit, w, hw, hwd⟩
  rintro ⟨hcov, it, hit, w, hw, hwd⟩
  have hitem : ∀ x ∈ its, (c.itemLatestDeadline x).2 = true ∧ (c.itemLatestDeadline x).1 ≤ d := by
    intro x hx
    obtain ⟨-, -, h3, h4⟩ := itemLatestDeadline_spec x
    refine ⟨h4.2 ⟨fun v hv hn => ?_, hany x hx⟩, ?_⟩
    · obtain ⟨t, ht, -⟩ := hcov x hx v hv _ hn
      cases ht
    rcases h3 with h3 | ⟨v, hv, hvd⟩
    · rw [h3]; exact hnn it hit w hw d hwd
    obtain ⟨t, ht, hle⟩ := hcov x hx v hv _ hvd
    rw [Option.some.inj ht]
    exact hle
  refine (batchContext_iff its d).2 ⟨ne_nil_of_mem hit, hitem, hnn it hit w hw d hwd, .inr ?_⟩
  exact ⟨it, hit, le_antisymm (hitem it hit).2 ((itemLatestDeadline_spec it).2.1 w hw d hwd)⟩

/-! ## Deadlines of callers -/

lemma deadlineOf_congr (h : c'.waiters = c.waiters) : c'.deadlineOf = c.deadlineOf := by
  funext w
  unfold Coord.deadlineOf
  rw [h]

lemma deadlineOf_active (w : WaiterId) : c.deadlineOf w ≠ none ↔ c.active w = true := by
  unfold Coord.deadlineOf Coord.active
  cases c.waiters w with
  | none => simp
  | some x => cases x.active <;> simp

variable [Inhabited V]

/-- A waiter that is active after an action was active before with the same deadline, or is
new. -/
lemma Act.deadlineOf (hok : CoordOK cfg es g c) (ha : Act cfg es jn g c g' c') {w}
    {o} (h : c'.deadlineOf w = some o) : c.deadlineOf w = some o ∨ c.waiters w = none := by
  have same : c'.waiters = c.waiters → c.deadlineOf w = some o ∨ c.waiters w = none := by
    intro hw
    rw [deadlineOf_congr hw] at h
    exact .inl h
  have quiet : ∀ ws, c'.waiters = c.quiet ws → c.deadlineOf w = some o ∨ c.waiters w = none := by
    intro ws hw
    have hon := (deadlineOf_active w).1 (by rw [h]; exact Option.some_ne_none o)
    rw [active_quiet hw] at hon
    split at hon
    · cases hon
    rename_i hn
    unfold Coord.deadlineOf at h ⊢
    rw [hw, show c.quiet ws w = c.waiters w from if_neg hn] at h
    exact .inl h
  have off : ∀ v, c'.waiters = (c.deactivate v).waiters → c.deadlineOf w = some o ∨ c.waiters w = none := by
    intro v hw
    refine quiet [v] (hw.trans ?_)
    funext u
    show Function.update c.waiters v _ u = c.quiet [v] u
    unfold Coord.quiet
    by_cases hu : u = v
    · subst hu; simp
    · simp [hu]
  cases ha with
  | sched hs =>
    cases hs with
    | quiet hq => exact same hq.waiters
    | tooLarge pk l l' it _ _ _ =>
      exact quiet _ (by rw [resolve_eq hok.nodup])
    | _ => exact same rfl
  | spawn req dl hn _ _ =>
    by_cases hw : w = req.waiter
    · rw [hw]; exact .inr hn
    unfold Coord.deadlineOf at h ⊢
    rw [show (c.spawn req dl).waiters w = c.waiters w from Function.update_of_ne hw _ _] at h
    exact .inl h
  | resolve pk l l' it r _ _ _ =>
    exact quiet _ (by rw [resolve_eq hok.nodup])
  | shut pk it _ _ => exact quiet _ (by rw [deliverAll_eq hok.nodup])
  | cancelKeep pk it v _ _ => exact off v rfl
  | cancelDrop pk it v _ _ _ _ => exact off v (by rw [cancelDrop_eq])
  | cancelFlight pk it v b _ _ _ hl _ => exact off v (by rw [cancelFlight_eq hl]; rfl)
  | cancelCtx bid _ =>
    obtain ⟨_, _, hl⟩ := c.cancelBatch_eq bid
    exact same (by rw [hl])
  | _ => exact same rfl

omit [Inhabited V] in
lemma CountStep.deadline {b b'} (h : CountStep jn c c' b b') : b'.ctx.deadline = b.ctx.deadline := by
  cases h with
  | keep _ hctx _ | rejoin _ _ _ _ _ _ hctx _ | lose _ hctx _ | shut _ _ hctx _ => rw [hctx]

/-- **The deadline of a batch covers all its callers.** -/
def DeadlineOK (c : Coord K V E) : Prop :=
  ∀ id b d, c.inflight.lookup id = some b → b.ctx.deadline = some d → c.Covered b.items d

/-- A dispatched item is joined only by callers whose deadline its batch's covers. -/
def JoinsCovered (c : Coord K V E) (req : SubmitReq K) (it : ItemId) : Prop :=
  (c.items it).dispatched = true → ∀ b ∈ c.inflight.lookup (c.items it).batchID,
    ∀ d ∈ b.ctx.deadline, ∃ o ∈ c.deadlineOf req.waiter, ∃ t ∈ o, t ≤ d

instance (c : Coord K V E) (req : SubmitReq K) (it : ItemId) : Decidable (JoinsCovered c req it) :=
  inferInstanceAs (Decidable (_ → _))

lemma DeadlineOK.act (h : DeadlineOK c) (hok : CoordOK cfg es g c)
    (ha : Act cfg es JoinsCovered g c g' c') : DeadlineOK c' := by
  intro id b' d hb' hd
  rcases (ha.batch hok hb').count hok with ⟨b, hb, hits, hstep⟩ | ⟨-, hnew⟩
  · rw [hstep.deadline] at hd
    rw [hits]
    -- waiters the item had before the action
    have old : ∀ it ∈ b.items, ∀ w ∈ (c.items it).waiters, ∀ o, c'.deadlineOf w = some o → ∃ t, o = some t ∧ t ≤ d := by
      intro it hit w hw o ho
      rcases ha.deadlineOf hok ho with h1 | h1
      · exact h id b d hb hd it hit w hw o h1
      have := hok.waiter.born it w hw
      rw [h1] at this
      cases this
    intro it hit w hw o ho
    rcases ha.still hok with hs | ⟨req, rest, x, -, -, -, hjn, rfl⟩ | ⟨now, req, rest, -, -, -, rfl⟩
    · rw [hs.waiters] at hw
      exact old it hit w hw o ho
    · rcases mem_waiters_join.1 hw with hw | ⟨rfl, rfl⟩
      · exact old it hit w hw o ho
      obtain ⟨hfly, hbid⟩ := hok.struct.flying id b it hb hit
      obtain ⟨o', ho', t, ht, hle⟩ := hjn hfly b (by rw [hbid]; exact hb) d hd
      obtain rfl : o = o' := Option.some.inj (Eq.trans (Eq.symm ho) ho')
      exact ⟨t, ht, hle⟩
    have hne : it ≠ c.requestSeq + 1 := by
      rintro rfl
      exact absurd (hok.struct.range _ _ (hok.struct.batch_indexed hb hit)).2 (Nat.not_succ_le_self _)
    rw [items_enqueue_ne hne] at hw
    exact old it hit w hw o ho
  · rw [hnew.ctx] at hd
    exact .of_batchContext hd

end Acts

/-! ## Runs -/

section Runs

variable [Inhabited K] [Inhabited V] {c : Coord K V E}

lemma reach_engineDone {es' c'} (h : (coordinator cfg).Reach es c) (hs : (coordinator cfg).Steps es c es' c')
    (he : c'.engineDone = false) : c.engineDone = false := by
  cases hd : c.engineDone with
  | false => rfl
  | true =>
    have := steps_always h hd (fun _ _ _ _ hJ => hJ) (fun _ _ _ _ _ hok ha hJ => (ha.forward hok).engineDone hJ) hs
    rw [he] at this
    cases this

/-- **No premature cancellation.** In the runs in which no submission joins a dispatched
item that has no active waiter left, as long as the engine is not canceled: a batch whose
context has been canceled has no active waiter, and no submission joins an item of such a batch. -/
theorem no_premature_cancel (h : ((coordinator cfg).only fun _ c m => JoinsOnly cfg JoinsWaiting c m).Reach es c) :
    (c.engineDone = false → ∀ id b, c.inflight.lookup id = some b → b.ctx.canceled = true →
      ∀ it ∈ b.items, ∀ w ∈ (c.items it).waiters, c.active w = false) ∧
    (∀ m, Move.Legal cfg es c m → JoinsOnly cfg JoinsWaiting c m →
      JoinsOnly cfg (fun c _ it => c.engineDone = false → (c.items it).dispatched = true →
        ∀ b, c.inflight.lookup (c.items it).batchID = some b → b.ctx.canceled = false) c m) := by
  have hok := reach_ok h.of_only
  have hcnt : CounterOK c := reach_keeps (J := fun _ _ c => CounterOK c)
    (fun _ c m (hQ : JoinsOnly cfg JoinsWaiting c m) => hQ) nofun
    (fun _ _ _ _ hJ => hJ) (fun _ _ _ _ _ hok ha hJ => hJ.act hok ha) h
  -- a used up counter leaves no active waiter
  have key : ∀ {es g} {c : Coord K V E}, CoordOK cfg es g c → CounterOK c → c.engineDone = false →
      ∀ id b, c.inflight.lookup id = some b → b.ctx.canceled = true → ∀ it ∈ b.items,
        ∀ w ∈ (c.items it).waiters, c.active w = false := by
    intro es g c hok hcnt he id b hb hcan it hit
    obtain ⟨h1, h2⟩ := hcnt id b hb
    have h3 := (h2 hcan).resolve_right (by simp [he])
    have h4 := (liveItems_eq_zero (c := c)).1 (by omega) it hit
    have h5 := hok.waiter.count it
    exact waiting_eq_zero.1 (by omega)
  refine ⟨key hok hcnt, fun m hl hjn x hx it hit he hd b hb => ?_⟩
  obtain ⟨g', hg', -, hacts⟩ := submitCalls_acts hok hl hjn x hx
  obtain ⟨hok', hcnt'⟩ := hacts.keeps (I := fun g c => CoordOK cfg (es ++ [m]) g c ∧ CounterOK c)
    (fun _ _ _ _ ha hI => ⟨hI.1.act ha, hI.2.act hI.1 ha⟩) ⟨hok.mono m, hcnt⟩
  cases hcan : b.ctx.canceled with
  | false => rfl
  | true =>
    obtain ⟨w, hw, hact⟩ := hjn x hx it hit hd
    have hin := PartitionState.mem_indexed.2 ⟨_, (joinTarget_some hit).1⟩
    obtain ⟨b₁, hb₁, -, hitb⟩ := hok'.struct.flight_of_dispatched hg' hin hd
    rw [hb] at hb₁
    cases hb₁
    rw [key hok' hcnt' he _ b hb hcan it hitb w hw] at hact
    cases hact

/-- Two calls and a late joiner, all canceled, and the context with the last of them. -/
theorem no_premature_cancel_demo :
    let c := demoRun .manual [demoSubmit [1] 1 1 none, demoSubmit [1] 2 2 none,
      demoControl .flush 1, demoSubmit [1] 1 3 none, demoCancel [1] 1 false, demoCancel [1] 3 false,
      demoCancel [1] 2 false]
    c.inflight.lookup 1 = some ⟨1, ⟨none, true⟩, [1, 2], 0, [1], 1⟩ ∧ c.active 2 = false := by
  intro c
  have hr : ((coordinator (demo .manual)).only fun _ c m =>
      JoinsOnly (demo .manual) JoinsWaiting c m).Reach _ c :=
    System.reach_of_allowed (show _ by decide)
  have hb : c.inflight.lookup 1 = some ⟨1, ⟨none, true⟩, [1, 2], 0, [1], 1⟩ := by decide +kernel
  exact ⟨hb, (no_premature_cancel hr).1 (by decide +kernel) 1 _ hb rfl 2 (by decide) 2 (by decide +kernel)⟩

/-- **One caller's cancellation cancels the call of another.** Two keys in one batch; the first
caller leaves, a third joins its item and leaves too: the item has lost its last waiter
twice, the batch of two waiters counts none, and the second caller is still waiting. -/
theorem premature_cancel :
    let es := [demoSubmit [1] 1 1 none, demoSubmit [1] 2 2 none, demoControl .flush 1,
      demoCancel [1] 1 false, demoSubmit [1] 1 3 none, demoCancel [1] 3 false]
    let c := demoRun .manual es
    (coordinator (demo .manual)).Reach es c ∧ c.engineDone = false ∧
      c.inflight.lookup 1 = some ⟨1, ⟨none, true⟩, [1, 2], 0, [1], 1⟩ ∧
      (c.items 2).waiters = [2] ∧ c.active 2 = true :=
  ⟨System.reach_of_allowed (show _ by decide), by decide +kernel, by decide +kernel,
    by decide +kernel, by decide +kernel⟩

/-- **Abandoned batches are canceled**, if each of their items had one active waiter when they
were dispatched: from the end of that turn on, whenever no item has an active waiter, the
context has been canceled. -/
theorem abandoned_batch_canceled (h : (coordinator cfg).Reach es c) {m : Move K V E}
    (hl : m.Legal cfg es c) {id : BatchId} {b₀ : BatchInflight}
    (hnew : c.inflight.lookup id = none) (hb₀ : (c.move cfg m).inflight.lookup id = some b₀)
    (hone : ∀ it ∈ b₀.items, (c.move cfg m).waiting it = 1) {es' : List (Move K V E)} {c' : Coord K V E}
    (hs : (coordinator cfg).Steps (es ++ [m]) (c.move cfg m) es' c')
    (he : c'.engineDone = false) {b : BatchInflight} (hb : c'.inflight.lookup id = some b)
    (hall : ∀ it ∈ b.items, ∀ w ∈ (c'.items it).waiters, c'.active w = false) : b.ctx.canceled = true := by
  have hr₁ := reach_move h hl
  set c₁ := c.move cfg m with hc₁
  have hok₁ := reach_ok hr₁
  have he₁ := reach_engineDone hr₁ hs he
  have hpr : Pristine c₁ b₀ := move_pristine (reach_ok h) hl id b₀ (move_new (reach_ok h) hl hnew hb₀) hb₀
  have hcount : ∀ it ∈ b₀.items, (c₁.items it).activeWaiters = 1 := by
    intro it hit
    have h1 := hok₁.waiter.count it
    have h2 := hok₁.waiter.exact he₁ _ it (hok₁.struct.batch_indexed hb₀ hit)
    rw [hone it hit] at h1 h2
    omega
  have htight : TightOK id c₁ := by
    refine ⟨(hok₁.struct.batch id b₀ hb₀).2.1, fun b hb => ?_⟩
    rw [hb₀] at hb
    cases hb
    have hlive : c₁.liveItems b₀.items = b₀.items.length :=
      countP_eq_length.2 fun it hit => decide_eq_true (by rw [hcount it hit]; exact one_pos)
    have hsum : b₀.activeWaiters = b₀.items.length := by
      rw [hpr.sum, map_congr_left hcount]
      simp
    have hpos := length_pos_of_ne_nil (hok₁.struct.batch id b₀ hb₀).2.2
    exact ⟨by omega, fun hz => by omega⟩
  have := steps_always (J := fun _ _ c => TightOK id c) hr₁ htight (fun _ _ _ _ hJ => hJ)
    (fun _ _ _ _ _ hok ha hJ => hJ.act hok ha) hs
  obtain ⟨h1, h2⟩ := this.tight b hb
  have hok' := reach_ok (hr₁.trans hs)
  have hzero : c'.liveItems b.items = 0 := by
    refine liveItems_eq_zero.2 fun it hit => ?_
    have h3 := hok'.waiter.exact he _ it (hok'.struct.batch_indexed hb hit)
    rw [waiting_eq_zero.2 (hall it hit)] at h3
    exact h3
  exact h2 (by omega)

/-- Two calls with different keys. -/
def demoPair : List (Move ℕ ℕ ℕ) := [demoSubmit [1] 1 1 none, demoSubmit [1] 2 2 none]

/-- The batch of two items that a flush makes of them. -/
abbrev demoBatch : Coord ℕ ℕ ℕ := (demoRun .manual demoPair).move (demo .manual) (demoControl .flush 1)

/-- A batch of two items with one caller each; both leave. -/
theorem abandoned_batch_canceled_demo :
    let c := (coordinator (demo .manual)).run demoBatch [demoCancel [1] 1 false, demoCancel [1] 2 false]
    Option.map (fun b => b.ctx.canceled) (c.inflight.lookup 1) = some true := by
  intro c
  have hb : c.inflight.lookup 1 = some ⟨1, ⟨none, true⟩, [1, 2], 0, [1], 1⟩ := by decide +kernel
  rw [hb]
  have hr : (coordinator (demo .manual)).Reach demoPair (demoRun .manual demoPair) :=
    System.reach_of_allowed (by decide +kernel)
  have hl : Move.Legal (demo .manual) demoPair (demoRun .manual demoPair) (demoControl .flush 1) := by
    decide +kernel
  have hnew : (demoRun .manual demoPair).inflight.lookup 1 = none := by decide +kernel
  have hb₀ : demoBatch.inflight.lookup 1 = some ⟨1, ⟨none, false⟩, [1, 2], 2, [1], 1⟩ := by decide +kernel
  have hone : ∀ it ∈ [1, 2], demoBatch.waiting it = 1 := by decide +kernel
  have hleave : (coordinator (demo .manual)).Allowed (demoPair ++ [demoControl .flush 1]) demoBatch
      [demoCancel [1] 1 false, demoCancel [1] 2 false] := by decide +kernel
  have he : c.engineDone = false := by decide +kernel
  have hgone : ∀ it ∈ [1, 2], ∀ w ∈ (c.items it).waiters, c.active w = false := by decide +kernel
  have hs : (coordinator (demo .manual)).Steps (demoPair ++ [demoControl .flush 1]) demoBatch _ c :=
    System.steps_of_allowed hleave System.Steps.refl
  exact congrArg some (abandoned_batch_canceled hr hl hnew hb₀ hone hs he hb hgone)

/-- **A batch everyone has left runs on.** Two callers share one item: the batch counts two
waiters, but only the item's last waiter is subtracted. -/
theorem abandoned_not_canceled :
    let es := [demoSubmit [1] 1 1 none, demoSubmit [1] 1 2 none, demoControl .flush 1,
      demoCancel [1] 1 false, demoCancel [1] 2 false]
    let c := demoRun .manual es
    (coordinator (demo .manual)).Reach es c ∧ c.inflight.lookup 1 = some ⟨1, ⟨none, false⟩, [1], 1, [1], 1⟩ ∧
      (c.items 1).waiters = [1, 2] ∧ c.active 1 = false ∧ c.active 2 = false :=
  ⟨System.reach_of_allowed (show _ by decide), by decide, by decide, by decide, by decide⟩

/-- **A short caller never limits a longer one**, in the runs in which no submission joins an
item of a batch whose deadline does not cover it: the deadline of a batch covers every active
waiter of its items. When a batch is started, its deadline is the latest of the active
waiters' and there is none if one of them has none, provided that no caller's deadline is
before the zero time. -/
theorem deadline_covers (h : ((coordinator cfg).only fun _ c m => JoinsOnly cfg JoinsCovered c m).Reach es c) :
    (∀ id b d, c.inflight.lookup id = some b → b.ctx.deadline = some d → c.Covered b.items d) ∧
    (∀ m, Move.Legal cfg es c m → (c.move cfg m).engineDone = false →
      ∀ id b, c.inflight.lookup id = none → (c.move cfg m).inflight.lookup id = some b →
        (∀ it ∈ b.items, ∀ w ∈ ((c.move cfg m).items it).waiters, ∀ t,
          (c.move cfg m).deadlineOf w = some (some t) → 0 ≤ t) →
        ∀ d, b.ctx.deadline = some d ↔ (c.move cfg m).Latest b.items d) := by
  have hok := reach_ok h.of_only
  refine ⟨?_, fun m hl he id b hnew hb hnn d => ?_⟩
  · exact reach_keeps (J := fun _ _ c => DeadlineOK c) (fun _ c m (hQ : JoinsOnly cfg JoinsCovered c m) => hQ) nofun
      (fun _ _ _ _ hJ => hJ) (fun _ _ _ _ _ hok ha hJ => hJ.act hok ha) h
  have hok' : CoordOK cfg (es ++ [m]) {} (c.move cfg m) := reach_ok (reach_move h.of_only hl)
  have hpr := move_pristine hok hl id b (move_new hok hl hnew hb) hb
  rw [hpr.ctx]
  refine batchContext_latest (fun it hit => ?_) hnn d
  have h1 := hpr.pos it hit
  have h2 := hok'.waiter.exact he _ it (hok'.struct.batch_indexed hb hit)
  obtain ⟨w, hw, hact⟩ := countP_pos_iff.1 (show 0 < (c.move cfg m).waiting it by omega)
  exact ⟨w, hw, (deadlineOf_active w).2 hact⟩

/-- Callers with deadlines 5 and 3 in one batch, which gets 5. -/
theorem deadline_covers_demo : (demoRun .manual [demoSubmit [1] 1 1 (some 5), demoSubmit [1] 2 2 (some 3),
      demoControl .flush 1]).Latest [1, 2] 5 := by
  have hr : ((coordinator (demo .manual)).only fun _ c m =>
      JoinsOnly (demo .manual) JoinsCovered c m).Reach _
      (demoRun .manual [demoSubmit [1] 1 1 (some 5), demoSubmit [1] 2 2 (some 3)]) :=
    System.reach_of_allowed (show _ by decide)
  have hb : (demoRun .manual [demoSubmit [1] 1 1 (some 5), demoSubmit [1] 2 2 (some 3),
      demoControl .flush 1]).inflight.lookup 1 = some ⟨1, ⟨some 5, false⟩, [1, 2], 2, [1], 1⟩ := by
    decide
  have hnn : ∀ it ∈ [1, 2], ∀ w ∈ ((demoRun .manual [demoSubmit [1] 1 1 (some 5),
      demoSubmit [1] 2 2 (some 3), demoControl .flush 1]).items it).waiters,
      ∀ o ∈ (demoRun .manual [demoSubmit [1] 1 1 (some 5), demoSubmit [1] 2 2 (some 3),
        demoControl .flush 1]).deadlineOf w, ∀ t ∈ o, 0 ≤ t := by
    decide
  exact ((deadline_covers hr).2 (demoControl .flush 1) (by decide) (by decide) 1 _
    (by decide) hb (fun it hit w hw t ht => hnn it hit w hw _ ht t rfl) 5).1 rfl

/-- **A late joiner is cut short.** The batch runs under the deadline of its first caller; a
second caller joins the item in flight and has none. -/
theorem deadline_cuts_late_join :
    let es := [demoSubmit [1] 1 1 (some 5), demoControl .flush 1, demoSubmit [1] 1 2 none]
    let c := demoRun .manual es
    (coordinator (demo .manual)).Reach es c ∧ c.inflight.lookup 1 = some ⟨1, ⟨some 5, false⟩, [1], 1, [1], 1⟩ ∧
      (c.items 1).waiters = [1, 2] ∧ c.deadlineOf 2 = some none :=
  ⟨System.reach_of_allowed (show _ by decide), by decide, by decide, by decide⟩

end Runs

end BatchWeaver
