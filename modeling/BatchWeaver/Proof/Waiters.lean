import BatchWeaver.Proof.Structure

/-!
# Waiters, items and submissions

`WaiterOK`: a waiter is in at most one item, a submission that is parked or still in the
handler's hands is in none, and an item's counter covers its active waiters: exactly,
until the engine is canceled.

* `WaiterOK.init`: it holds at the start.
* `WaiterOK.act`: every action keeps it, given the structural invariant.
-/

namespace BatchWeaver

open List Coord
open Function (update update_apply update_of_ne update_self)

variable {K V E : Type} {es : List (Move K V E)} {g g' : Held K} {c c' : Coord K V E} {it : ItemId}
  {w : WaiterId} {rest : List (SubmitReq K)}

/-- The active waiters of an item. -/
def Coord.waiting (c : Coord K V E) (it : ItemId) : ℕ := (c.items it).waiters.countP c.active

/-- **Waiters, items and submissions agree.** -/
structure WaiterOK (es : List (Move K V E)) (g : Held K) (c : Coord K V E) : Prop where
  nodup : ∀ it, (c.items it).waiters.Nodup
  own : ∀ it it' w, w ∈ (c.items it).waiters → w ∈ (c.items it').waiters → it = it'
  fresh : ∀ it : ℕ, c.requestSeq < it → (c.items it).waiters = []
  born : ∀ it w, w ∈ (c.items it).waiters → (c.waiters w).isSome = true
  apart : ((g.reqs ++ c.blocked).map (·.waiter)).Nodup
  held : ∀ req ∈ g.reqs ++ c.blocked, req ∈ submitted es ∧ c.active req.waiter = true ∧
    ∀ it, req.waiter ∉ (c.items it).waiters
  home : ∀ it w, w ∈ (c.items it).waiters → c.active w = true → ∃ pk, it ∈ (c.part pk).indexed
  count : ∀ it, (c.waiting it : ℤ) ≤ (c.items it).activeWaiters
  exact : c.engineDone = false → ∀ pk it, it ∈ (c.part pk).indexed → (c.items it).activeWaiters ≤ c.waiting it
  pos : ∀ pk it, it ∈ (c.part pk).pending → 0 < (c.items it).activeWaiters

/-! ## Counting active waiters -/

section Counting

lemma waiting_congr (hi : (c'.items it).waiters = (c.items it).waiters)
    (hw : ∀ w ∈ (c.items it).waiters, c'.active w = c.active w) : c'.waiting it = c.waiting it := by
  unfold Coord.waiting
  rw [hi]
  exact countP_congr fun w hw' => by rw [hw w hw']

lemma waiting_eq_zero : c.waiting it = 0 ↔ ∀ w ∈ (c.items it).waiters, c.active w = false := by
  unfold Coord.waiting
  rw [countP_eq_zero]
  constructor
  · intro h w hw; simpa using h w hw
  · intro h w hw; simp [h w hw]

lemma waiting_pos (hw : w ∈ (c.items it).waiters) (ha : c.active w = true) : 0 < c.waiting it :=
  countP_pos_iff.2 ⟨w, hw, ha⟩

/-- Changing a predicate at one element of a list without duplicates. -/
lemma countP_change {l : List ℕ} (hnd : l.Nodup) {x : ℕ} (hx : x ∈ l) {p q : ℕ → Bool}
    (hpq : ∀ y ∈ l, y ≠ x → q y = p y) : l.countP p + (q x).toNat = l.countP q + (p x).toNat := by
  have hp := perm_cons_erase hx
  have he : (l.erase x).countP q = (l.erase x).countP p := by
    refine countP_congr fun y hy => ?_
    have hne : y ≠ x := by
      rintro rfl
      exact hnd.not_mem_erase hy
    rw [hpq y (mem_of_mem_erase hy) hne]
  rw [hp.countP_eq p, hp.countP_eq q, countP_cons, countP_cons, he]
  cases p x <;> cases q x <;> simp

/-- Deactivating one active waiter of an item lowers the count by one. -/
lemma waiting_deactivate (hi : (c'.items it).waiters = (c.items it).waiters)
    (hact : ∀ v, c'.active v = if v = w then false else c.active v) (hnd : (c.items it).waiters.Nodup)
    (hw : w ∈ (c.items it).waiters) (ha : c.active w = true) : c.waiting it = c'.waiting it + 1 := by
  have h := countP_change (q := c'.active) hnd hw (fun v _ hv => by rw [hact v, if_neg hv])
  rw [ha, hact w, if_pos rfl] at h
  unfold Coord.waiting
  rw [hi]
  simpa using h

end Counting

/-! ## Frame rules -/

section Frame

/-- What the waiter invariant reads of an item. -/
def QItem.crew (x : QItem K) : List WaiterId × ℤ := (x.waiters, x.activeWaiters)

lemma WaiterOK.mono (h : WaiterOK es g c) (m : Move K V E) : WaiterOK (es ++ [m]) g c := by
  refine ⟨h.nodup, h.own, h.fresh, h.born, h.apart, ?_, h.home, h.count, h.exact, h.pos⟩
  intro req hreq
  obtain ⟨h1, h2, h3⟩ := h.held req hreq
  refine ⟨?_, h2, h3⟩
  unfold submitted at h1 ⊢
  rw [filterMap_append]
  exact mem_append_left _ h1

/-- **Whatever keeps items and waiters keeps the invariant**; submissions may be dropped
and queues may shrink. -/
theorem WaiterOK.frame (h : WaiterOK es g c) (hi : ∀ it, (c'.items it).crew = (c.items it).crew)
    (hw : c'.waiters = c.waiters) (hreq : (g'.reqs ++ c'.blocked).Subperm (g.reqs ++ c.blocked))
    (hr : c.requestSeq ≤ c'.requestSeq) (he : c.engineDone = true → c'.engineDone = true)
    (hidx : ∀ pk it, it ∈ (c'.part pk).indexed ↔ it ∈ (c.part pk).indexed)
    (hp : ∀ pk it, it ∈ (c'.part pk).pending → it ∈ (c.part pk).pending) : WaiterOK es g' c' := by
  have hws : ∀ it, (c'.items it).waiters = (c.items it).waiters := fun it => congrArg Prod.fst (hi it)
  have haw : ∀ it, (c'.items it).activeWaiters = (c.items it).activeWaiters := fun it => congrArg Prod.snd (hi it)
  have hact : c'.active = c.active := active_congr hw
  have hcnt : ∀ it, c'.waiting it = c.waiting it := fun it => waiting_congr (hws it) (fun w _ => by rw [hact])
  refine ⟨?_, ?_, ?_, ?_, ?_, ?_, ?_, ?_, ?_, ?_⟩
  · intro it; rw [hws]; exact h.nodup it
  · intro it it' w; rw [hws, hws]; exact h.own it it' w
  · intro it hit; rw [hws]; exact h.fresh it (by omega)
  · intro it w; rw [hws, hw]; exact h.born it w
  · obtain ⟨l, hl, hs⟩ := hreq
    exact (hl.map _).nodup_iff.1 ((hs.map _).nodup h.apart)
  · intro req hmem
    obtain ⟨h1, h2, h3⟩ := h.held req (hreq.subset hmem)
    refine ⟨h1, by rw [hact]; exact h2, fun it => ?_⟩
    rw [hws]
    exact h3 it
  · intro it w hin ha
    rw [hws] at hin
    rw [hact] at ha
    obtain ⟨pk, hpk⟩ := h.home it w hin ha
    exact ⟨pk, (hidx pk it).2 hpk⟩
  · intro it; rw [hcnt, haw]; exact h.count it
  · intro hd pk it hit
    rw [hcnt, haw]
    refine h.exact ?_ pk it ((hidx pk it).1 hit)
    cases hc : c.engineDone with
    | false => rfl
    | true => rw [he hc] at hd; exact hd
  intro pk it hit
  rw [haw]
  exact h.pos pk it (hp pk it hit)

/-- The frame rule where queues and indexes are the same. -/
lemma WaiterOK.same (h : WaiterOK es g c) (hi : ∀ it, (c'.items it).crew = (c.items it).crew)
    (hw : c'.waiters = c.waiters) (hreq : (g'.reqs ++ c'.blocked).Subperm (g.reqs ++ c.blocked))
    (hr : c.requestSeq ≤ c'.requestSeq) (he : c.engineDone = true → c'.engineDone = true)
    (hp : ∀ pk, SamePart (c.part pk) (c'.part pk)) : WaiterOK es g' c' :=
  h.frame hi hw hreq hr he (fun pk it => by rw [(hp pk).indexed])
    (fun pk it hit => by rw [← (hp pk).pending]; exact hit)

end Frame

/-! ## The steps that change items or waiters -/

section Steps

section

variable (h : WaiterOK es g c)
include h

lemma WaiterOK.spawn {req} (dl : Option Time) (hnone : c.waiters req.waiter = none)
    (hsub : req ∈ submitted es) (hg : g.reqs = []) : WaiterOK es { g with reqs := [req] } (c.spawn req dl) := by
  set c' := c.spawn req dl with hc'
  have hact : ∀ v, c'.active v = if v = req.waiter then true else c.active v := by
    intro v
    have hw : c'.waiters v = if v = req.waiter then some (Waiter.new dl) else c.waiters v := update_apply ..
    unfold Coord.active
    rw [hw]
    by_cases hv : v = req.waiter
    · rw [if_pos hv, if_pos hv]; cases dl <;> rfl
    · rw [if_neg hv, if_neg hv]
  have hnew : ∀ it, req.waiter ∉ (c.items it).waiters := by
    intro it hit
    have := h.born it _ hit
    rw [hnone] at this
    cases this
  have hother : ∀ it v, v ∈ (c.items it).waiters → c'.active v = c.active v := by
    intro it v hv
    rw [hact, if_neg]
    rintro rfl
    exact hnew it hv
  have hblk : ∀ r ∈ c.blocked, r.waiter ≠ req.waiter := by
    intro r hr he
    have h1 := active_isSome (h.held r (mem_append_right _ hr)).2.1
    rw [he, hnone] at h1
    cases h1
  have hcnt : ∀ it, c'.waiting it = c.waiting it := fun it => waiting_congr rfl (hother it)
  refine ⟨h.nodup, h.own, h.fresh, ?_, ?_, ?_, ?_, ?_, ?_, h.pos⟩
  · intro it w hw
    have hne : w ≠ req.waiter := by rintro rfl; exact hnew it hw
    show (update c.waiters req.waiter _ w).isSome = true
    rw [update_of_ne hne]
    exact h.born it w hw
  · have := h.apart
    rw [hg, nil_append] at this
    rw [singleton_append, map_cons, nodup_cons]
    refine ⟨?_, this⟩
    rw [mem_map]
    rintro ⟨r, hr, he⟩
    exact hblk r hr he
  · intro r hr
    have hr' : r = req ∨ r ∈ c.blocked := by
      have : r ∈ [req] ++ c.blocked := hr
      simpa using this
    rcases hr' with hr' | hr'
    · subst hr'
      exact ⟨hsub, by rw [hact, if_pos rfl], hnew⟩
    · obtain ⟨h1, h2, h3⟩ := h.held r (mem_append_right _ hr')
      exact ⟨h1, by rw [hact, if_neg (hblk r hr')]; exact h2, h3⟩
  · intro it w hw ha
    rw [hother it w hw] at ha
    exact h.home it w hw ha
  · intro it; rw [hcnt]; exact h.count it
  · intro hd pk it hit; rw [hcnt]; exact h.exact hd pk it hit

/-- **The first submission in hand becomes a waiter of an item of the index.** -/
theorem WaiterOK.admission {req : SubmitReq K} (it : ℕ) (ws : List WaiterId) (n : ℤ)
    (hg : g.reqs = req :: rest) (hg' : g'.reqs = rest) (hb : c'.blocked = c.blocked) (hw : c'.waiters = c.waiters)
    (hws : ws = (c.items it).waiters ∨ ws = []) (hit : (c'.items it).crew = (ws ++ [req.waiter], n + 1))
    (hother : ∀ x, x ≠ it → (c'.items x).crew = (c.items x).crew) (hcount : (ws.countP c.active : ℤ) ≤ n)
    (hexact : c.engineDone = false → n ≤ ws.countP c.active) (hr : c.requestSeq ≤ c'.requestSeq)
    (hle : it ≤ c'.requestSeq) (he : c'.engineDone = c.engineDone)
    (hidx : ∀ pk x, x ∈ (c.part pk).indexed → x ∈ (c'.part pk).indexed)
    (hidx' : ∀ pk x, x ∈ (c'.part pk).indexed → x ∈ (c.part pk).indexed ∨ x = it)
    (hhome : ∃ pk, it ∈ (c'.part pk).indexed)
    (hp : ∀ pk x, x ∈ (c'.part pk).pending → x ∈ (c.part pk).pending ∨ x = it) : WaiterOK es g' c' := by
  have hreq : req ∈ g.reqs ++ c.blocked := by rw [hg]; simp
  obtain ⟨-, hra, hrn⟩ := h.held req hreq
  have hact : c'.active = c.active := active_congr hw
  have hwit : (c'.items it).waiters = ws ++ [req.waiter] := congrArg Prod.fst hit
  have hait : (c'.items it).activeWaiters = n + 1 := congrArg Prod.snd hit
  have hwo : ∀ x, x ≠ it → (c'.items x).waiters = (c.items x).waiters := fun x hx => congrArg Prod.fst (hother x hx)
  have hao : ∀ x, x ≠ it → (c'.items x).activeWaiters = (c.items x).activeWaiters :=
    fun x hx => congrArg Prod.snd (hother x hx)
  have hold : ∀ w ∈ ws, w ∈ (c.items it).waiters := by
    intro w hw'
    rcases hws with rfl | rfl
    · exact hw'
    · cases hw'
  have hmem : ∀ x w, w ∈ (c'.items x).waiters → w ∈ (c.items x).waiters ∨ (x = it ∧ w = req.waiter) := by
    intro x w hx
    by_cases he : x = it
    · subst he
      rw [hwit, mem_append, mem_singleton] at hx
      rcases hx with hx | hx
      · exact .inl (hold w hx)
      · exact .inr ⟨rfl, hx⟩
    · rw [hwo x he] at hx; exact .inl hx
  have hcit : c'.waiting it = ws.countP c.active + 1 := by
    unfold Coord.waiting
    rw [hwit, hact, countP_append, countP_singleton, if_pos hra]
  have hco : ∀ x, x ≠ it → c'.waiting x = c.waiting x :=
    fun x hx => waiting_congr (hwo x hx) (fun w _ => by rw [hact])
  have hwait := h.count it
  have hnd : ws.Nodup := by
    rcases hws with rfl | rfl
    · exact h.nodup it
    · exact nodup_nil
  refine ⟨?_, ?_, ?_, ?_, ?_, ?_, ?_, ?_, ?_, ?_⟩
  · intro x
    by_cases hx : x = it
    · rw [hx, hwit, nodup_append]
      refine ⟨hnd, nodup_singleton _, ?_⟩
      intro a ha b hb' hab
      rw [mem_singleton.1 hb'] at hab
      exact hrn it (hab ▸ hold a ha)
    · rw [hwo x hx]; exact h.nodup x
  · intro x y w hx hy
    rcases hmem x w hx with hx | ⟨hx, hx'⟩ <;> rcases hmem y w hy with hy | ⟨hy, hy'⟩
    · exact h.own x y w hx hy
    · exact absurd (hy' ▸ hx) (hrn x)
    · exact absurd (hx' ▸ hy) (hrn y)
    · rw [hx, hy]
  · intro x hx
    have hne : x ≠ it := by rintro rfl; omega
    rw [hwo x hne]
    exact h.fresh x (by omega)
  · intro x w hx
    rw [hw]
    rcases hmem x w hx with hx | ⟨-, hx⟩
    · exact h.born x w hx
    · rw [hx]; exact active_isSome hra
  · have := h.apart
    rw [hg, cons_append, map_cons, nodup_cons] at this
    rw [hg', hb]
    exact this.2
  · intro r hr'
    rw [hg', hb] at hr'
    have hap := h.apart
    rw [hg, cons_append, map_cons, nodup_cons] at hap
    obtain ⟨h1, h2, h3⟩ := h.held r (by rw [hg, cons_append]; exact mem_cons_of_mem _ hr')
    refine ⟨h1, by rw [hact]; exact h2, fun x hx => ?_⟩
    rcases hmem x _ hx with hx | ⟨-, hx⟩
    · exact h3 x hx
    · exact hap.1 (mem_map.2 ⟨r, hr', hx⟩)
  · intro x w hx ha
    by_cases hxi : x = it
    · rw [hxi]; exact hhome
    rw [hwo x hxi] at hx
    rw [hact] at ha
    obtain ⟨pk, hpk⟩ := h.home x w hx ha
    exact ⟨pk, hidx pk x hpk⟩
  · intro x
    by_cases hx : x = it
    · rw [hx, hcit, hait]; push_cast; omega
    · rw [hco x hx, hao x hx]; exact h.count x
  · intro hd pk x hx
    rw [he] at hd
    by_cases hxi : x = it
    · rw [hxi, hcit, hait]
      have := hexact hd
      push_cast
      omega
    · rw [hco x hxi, hao x hxi]
      exact h.exact hd pk x ((hidx' pk x hx).resolve_right hxi)
  intro pk x hx
  by_cases hxi : x = it
  · rw [hxi, hait]; omega
  · rw [hao x hxi]
    exact h.pos pk x ((hp pk x hx).resolve_right hxi)

/-- **A waiter of an item is deactivated and no longer counted.** -/
theorem WaiterOK.cancel {it : ItemId} (hw : w ∈ (c.items it).waiters) (ha : c.active w = true)
    (hwaiters : c'.waiters = (c.deactivate w).waiters)
    (hit : (c'.items it).crew = ((c.items it).waiters, (c.items it).activeWaiters - 1))
    (hother : ∀ x, x ≠ it → (c'.items x).crew = (c.items x).crew) (hb : c'.blocked = c.blocked)
    (hr : c'.requestSeq = c.requestSeq) (he : c'.engineDone = c.engineDone)
    (hidx : ∀ pk x, x ∈ (c'.part pk).indexed → x ∈ (c.part pk).indexed)
    (hkeep : ∀ pk x, x ∈ (c.part pk).indexed → x ∈ (c'.part pk).indexed ∨ (x = it ∧ (c.items it).activeWaiters = 1))
    (hp : ∀ pk x, x ∈ (c'.part pk).pending → x ∈ (c.part pk).pending ∧ (x = it → (c.items it).activeWaiters ≠ 1)) :
    WaiterOK es g c' := by
  have hact : ∀ v, c'.active v = if v = w then false else c.active v := by
    intro v
    rw [show c'.active v = (c.deactivate w).active v by rw [active_congr hwaiters]]
    exact active_deactivate c w v
  have hws : ∀ x, (c'.items x).waiters = (c.items x).waiters := by
    intro x
    by_cases hx : x = it
    · rw [hx]; exact congrArg Prod.fst hit
    · exact congrArg Prod.fst (hother x hx)
  have hait : (c'.items it).activeWaiters = (c.items it).activeWaiters - 1 := congrArg Prod.snd hit
  have hao : ∀ x, x ≠ it → (c'.items x).activeWaiters = (c.items x).activeWaiters :=
    fun x hx => congrArg Prod.snd (hother x hx)
  have hcit : c.waiting it = c'.waiting it + 1 := waiting_deactivate (hws it) hact (h.nodup it) hw ha
  have hco : ∀ x, x ≠ it → c'.waiting x = c.waiting x := by
    intro x hx
    refine waiting_congr (hws x) (fun v hv => ?_)
    rw [hact, if_neg]
    rintro rfl
    exact hx (h.own x it v hv hw)
  have hcount := h.count it
  refine ⟨?_, ?_, ?_, ?_, ?_, ?_, ?_, ?_, ?_, ?_⟩
  · intro x; rw [hws]; exact h.nodup x
  · intro x y v; rw [hws, hws]; exact h.own x y v
  · intro x hx; rw [hws]; exact h.fresh x (by omega)
  · intro x v hv
    rw [hws] at hv
    have hb' := h.born x v hv
    rw [hwaiters]
    show (update c.waiters w _ v).isSome = true
    rw [update_apply]
    split
    · rename_i hvw; subst hvw; rw [Option.isSome_map]; exact hb'
    · exact hb'
  · rw [hb]; exact h.apart
  · intro r hr'
    rw [hb] at hr'
    obtain ⟨h1, h2, h3⟩ := h.held r hr'
    have hne : r.waiter ≠ w := by
      intro hrw
      exact h3 it (hrw ▸ hw)
    exact ⟨h1, by rw [hact, if_neg hne]; exact h2, fun x => by rw [hws]; exact h3 x⟩
  · intro x v hv hav
    rw [hact] at hav
    split at hav
    · cases hav
    rw [hws] at hv
    obtain ⟨pk, hpk⟩ := h.home x v hv hav
    rcases hkeep pk x hpk with hk | ⟨hk, hone⟩
    · exact ⟨pk, hk⟩
    -- the item leaves with its last active waiter
    exfalso
    rename_i hvw
    have hpos : 0 < c'.waiting it := by
      refine waiting_pos (by rw [hws]; exact hk ▸ hv) ?_
      rw [hact, if_neg hvw]
      exact hav
    omega
  · intro x
    by_cases hx : x = it
    · rw [hx, hait]; omega
    · rw [hco x hx, hao x hx]; exact h.count x
  · intro hd pk x hx
    rw [he] at hd
    have hex := h.exact hd pk x (hidx pk x hx)
    by_cases hxi : x = it
    · subst hxi
      rw [hait]
      omega
    · rw [hco x hxi, hao x hxi]; exact hex
  intro pk x hx
  obtain ⟨h1, h2⟩ := hp pk x hx
  by_cases hxi : x = it
  · have h3 := h2 hxi
    rw [hxi, hait]
    omega
  · rw [hao x hxi]; exact h.pos pk x h1

/-- **All waiters of an item are deactivated**; the item may leave the index. -/
theorem WaiterOK.silence (it : ItemId) (hwaiters : c'.waiters = c.quiet (c.items it).waiters)
    (hi : c'.items = c.items) (hg : g'.reqs = g.reqs) (hb : c'.blocked = c.blocked) (hr : c'.requestSeq = c.requestSeq)
    (hidx : ∀ pk x, x ∈ (c.part pk).indexed → x ∈ (c'.part pk).indexed ∨ x = it)
    (hgone : c'.engineDone = false → c.engineDone = false ∧ ∀ pk x, x ∈ (c'.part pk).indexed → x ∈ (c.part pk).indexed ∧ x ≠ it)
    (hp : ∀ pk x, x ∈ (c'.part pk).pending → x ∈ (c.part pk).pending) : WaiterOK es g' c' := by
  have hact : ∀ v, c'.active v = if v ∈ (c.items it).waiters then false else c.active v := active_quiet hwaiters
  have hco : ∀ x, x ≠ it → c'.waiting x = c.waiting x := by
    intro x hx
    refine waiting_congr (by rw [hi]) (fun v hv => ?_)
    rw [hact, if_neg]
    intro hv'
    exact hx (h.own x it v hv hv')
  have hcit : c'.waiting it = 0 := by
    rw [waiting_eq_zero, hi]
    intro v hv
    rw [hact, if_pos hv]
  refine ⟨?_, ?_, ?_, ?_, ?_, ?_, ?_, ?_, ?_, ?_⟩
  · rw [hi]; exact h.nodup
  · rw [hi]; exact h.own
  · rw [hi, hr]; exact h.fresh
  · intro x v hv
    rw [hi] at hv
    rw [hwaiters, isSome_quiet]
    exact h.born x v hv
  · rw [hg, hb]; exact h.apart
  · intro r hr'
    rw [hg, hb] at hr'
    obtain ⟨h1, h2, h3⟩ := h.held r hr'
    exact ⟨h1, by rw [hact, if_neg (h3 it)]; exact h2, by rw [hi]; exact h3⟩
  · intro x v hv hav
    rw [hi] at hv
    rw [hact] at hav
    split at hav
    · cases hav
    rename_i hn
    obtain ⟨pk, hpk⟩ := h.home x v hv hav
    refine ⟨pk, (hidx pk x hpk).resolve_right ?_⟩
    rintro rfl
    exact hn hv
  · intro x
    have := h.count x
    rw [hi]
    by_cases hx : x = it
    · rw [hx, hcit]
      subst hx
      push_cast
      omega
    · rw [hco x hx]; exact this
  · intro hd pk x hx
    obtain ⟨hd', hout⟩ := hgone hd
    obtain ⟨h1, h2⟩ := hout pk x hx
    rw [hco x h2, hi]
    exact h.exact hd' pk x h1
  intro pk x hx
  rw [hi]
  exact h.pos pk x (hp pk x hx)

end

end Steps

/-! ## Every action -/

section Act

variable {cfg : BindingConfig K} {pk : GoString} {req : SubmitReq K}

lemma joinTarget_some (h : c.joinTarget cfg req = some it) : it ∈ (c.part req.part.encoded).bucket req.hash ∧
      cfg.keys.equal (c.items it).key req.key = true := by
  unfold joinTarget at h
  split at h
  · exact ⟨mem_of_find?_eq_some h, by simpa using find?_some h⟩
  · cases h

section

variable (h : WaiterOK es g c)
include h

lemma WaiterOK.join (hS : StructOK cfg g c) (hg : g.reqs = req :: rest)
    (hit : it ∈ (c.part req.part.encoded).indexed) : WaiterOK es { g with reqs := rest } (c.join req it) := by
  have hp : ∀ pk, SamePart (c.part pk) ((c.join req it).part pk) :=
    SamePart.insert (p := { c.part req.part.encoded with
      waiters := (c.part req.part.encoded).waiters + 1 }) ⟨rfl, rfl, rfl, rfl⟩ rfl
  have hidx : ∀ pk, ((c.join req it).part pk).indexed = (c.part pk).indexed := fun pk => (hp pk).indexed
  refine h.admission it _ (c.items it).activeWaiters hg rfl rfl rfl (.inl rfl) ?_ ?_
    (h.count it) (fun hd => h.exact hd _ it hit) le_rfl (hS.range _ it hit).2 rfl
    (fun pk x hx => by rw [hidx]; exact hx) (fun pk x hx => by rw [hidx] at hx; exact .inl hx)
    ⟨_, by rw [hidx]; exact hit⟩ (fun pk x hx => by rw [(hp pk).pending] at hx; exact .inl hx)
  · rw [items_join_self]; rfl
  · intro x hx; rw [items_join_ne hx]

lemma WaiterOK.enqueue (now : Time) (hg : g.reqs = req :: rest) :
    WaiterOK es { g with reqs := rest } (c.enqueue now req) := by
  refine h.admission (c.requestSeq + 1) [] 0 hg rfl rfl rfl (.inr rfl) ?_ ?_
    (by simp) (fun _ => by simp) (Nat.le_succ _) le_rfl rfl ?_ ?_ ⟨req.part.encoded, ?_⟩ ?_
  · rw [items_enqueue_self]; rfl
  · intro x hx; rw [items_enqueue_ne hx]
  · intro pk x hx; exact mem_indexed_enqueue.2 (.inl hx)
  · intro pk x hx
    exact (mem_indexed_enqueue.1 hx).imp id And.left
  · exact mem_indexed_enqueue.2 (.inr ⟨rfl, rfl⟩)
  · intro pk x hx
    exact (mem_pending_enqueue.1 hx).imp id And.left

lemma WaiterOK.cancelWaiter (hc : Cancels es c pk it w)
    (hp : ∀ k, it ∈ (c.part k).pending → (c.items it).activeWaiters ≠ 1) : WaiterOK es g (c.cancelWaiter pk it w) := by
  have hsame : ∀ k, SamePart (c.part k) ((c.cancelWaiter pk it w).part k) :=
    SamePart.insert (p := { c.part pk with waiters := (c.part pk).waiters - 1 }) ⟨rfl, rfl, rfl, rfl⟩ rfl
  refine h.cancel hc.waiter hc.active rfl ?_ ?_ rfl rfl rfl ?_ ?_ ?_
  · show (update c.items it _ it).crew = _
    rw [update_self]
    rfl
  · intro x hx
    show (update c.items it _ x).crew = _
    rw [update_of_ne hx]
  · intro k x hx; rwa [(hsame k).indexed] at hx
  · intro k x hx; rw [(hsame k).indexed]; exact .inl hx
  intro k x hx
  rw [(hsame k).pending] at hx
  refine ⟨hx, fun he => ?_⟩
  subst he
  exact hp k hx

lemma WaiterOK.cancelDrop (hS : StructOK cfg g c) (hg : g.queue = none)
    (hc : Cancels es c pk it w) (hone : (c.items it).activeWaiters = 1) :
    WaiterOK es g ((c.cancelWaiter pk it w).unqueue pk it) := by
  obtain ⟨c', hc'⟩ : ∃ c', c' = (c.cancelWaiter pk it w).unqueue pk it := ⟨_, rfl⟩
  rw [← hc']
  rw [cancelDrop_eq] at hc'
  have hpart : ∀ k, c'.part k = if k = pk then _ else c.part k := part_insert (congrArg Coord.partitions hc')
  have hidx := gather_unindex (hS.mem_bucket hc.indexed)
  have hpend : ∀ k x, x ∈ (c.part k).pending → x ∈ (c.part k).indexed :=
    fun k x hx => hS.queue_indexed (by rwa [Held.queueOf_none hg])
  refine h.cancel hc.waiter hc.active (by rw [hc']) ?_ ?_ (by rw [hc']) (by rw [hc']) (by rw [hc']) ?_ ?_ ?_
  · rw [hc']
    show (update c.items it _ it).crew = _
    rw [update_self]
    rfl
  · intro x hx
    rw [hc']
    show (update c.items it _ x).crew = _
    rw [update_of_ne hx]
  · intro k x hx
    rw [hpart] at hx
    split at hx
    · rename_i he; subst he; exact hidx.mem_iff.2 (mem_cons_of_mem _ hx)
    · exact hx
  · intro k x hx
    rw [hpart]
    split
    · rename_i he
      subst he
      rcases mem_cons.1 (hidx.mem_iff.1 hx) with h1 | h1
      · exact .inr ⟨h1, hone⟩
      · exact .inl h1
    · exact .inl hx
  intro k x hx
  rw [hpart] at hx
  split at hx
  · rename_i he
    subst he
    have hnd : (c.part k).pending.Nodup := by
      have := (nodup_append.1 (hS.queue_nodup k)).1
      rwa [Held.queueOf_none hg] at this
    refine ⟨mem_of_mem_erase hx, fun hxi => ?_⟩
    subst hxi
    exact absurd hx hnd.not_mem_erase
  rename_i hk
  refine ⟨hx, fun hxi => ?_⟩
  subst hxi
  exact absurd (hS.home k pk x (hpend k x hx) hc.indexed) hk

lemma WaiterOK.resolve (hS : StructOK cfg g c) {l l'} (hg : g.queue = some (pk, l))
    (hl : l.Perm (it :: l')) (r : Result V E) :
    WaiterOK es { g with queue := some (pk, l') } ((c.deliverAll it r).dropItem pk it) := by
  obtain ⟨c', hc'⟩ : ∃ c', c' = (c.deliverAll it r).dropItem pk it := ⟨_, rfl⟩
  rw [← hc']
  rw [resolve_eq h.nodup] at hc'
  have hpart : ∀ k, c'.part k = if k = pk then _ else c.part k := part_insert (congrArg Coord.partitions hc')
  have hin := hS.held_indexed hg (hl.mem_iff.2 (mem_cons_self ..))
  have hidx := gather_unindex (hS.mem_bucket hin)
  refine h.silence it (by rw [hc']) (by rw [hc']) rfl (by rw [hc']) (by rw [hc']) ?_ ?_ ?_
  · intro k x hx
    rw [hpart]
    split
    · rename_i he
      subst he
      exact (mem_cons.1 (hidx.mem_iff.1 hx)).symm
    · exact .inl hx
  · intro hd
    refine ⟨by rw [hc'] at hd; exact hd, fun k x hx => ?_⟩
    rw [hpart] at hx
    split at hx
    · rename_i he
      subst he
      refine ⟨hidx.mem_iff.2 (mem_cons_of_mem _ hx), fun hxi => ?_⟩
      subst hxi
      exact (nodup_cons.1 (hidx.nodup_iff.1 (hS.nodup k))).1 hx
    rename_i hk
    refine ⟨hx, fun hxi => ?_⟩
    subst hxi
    exact hk (hS.home k pk x hx hin)
  intro k x hx
  rw [hpart] at hx
  split at hx
  · rename_i he; subst he; exact hx
  · exact hx

lemma WaiterOK.dispatch {l : List ItemId} (reason : FlushReason) {a : Selection K}
    (hl : l.Perm (a.selected ++ a.remaining)) (hpend : ∀ it ∈ l, it ∈ (c.part pk).pending) :
    WaiterOK es { g with queue := none }
      ((c.setPart pk { c.part pk with pending := a.remaining }).startBatch pk reason a ⟨a.items⟩) := by
  obtain ⟨c', hc'⟩ : ∃ c', c' =
    (c.setPart pk { c.part pk with pending := a.remaining }).startBatch pk reason a ⟨a.items⟩ := ⟨_, rfl⟩
  rw [← hc']
  rw [dispatch_eq] at hc'
  have hpart : ∀ k, c'.part k = if k = pk then _ else c.part k := part_insert (congrArg Coord.partitions hc')
  have hreq : (g.reqs ++ c'.blocked) = g.reqs ++ c.blocked := by rw [hc']
  refine h.frame ?_ (by rw [hc']) (by rw [hreq]) (by rw [hc']) (by rw [hc']; exact id) ?_ ?_
  · intro it
    rw [hc']
    dsimp only
    split <;> rfl
  · intro k it
    rw [hpart]
    split
    · rename_i he; subst he; rfl
    · rfl
  intro k it hit
  rw [hpart] at hit
  split at hit
  · rename_i he
    subst he
    exact hpend it (hl.mem_iff.2 (mem_append_right _ hit))
  · exact hit

lemma WaiterOK.retire (hS : StructOK cfg g c) (hlive : (c.part pk).live = 0) :
    WaiterOK es g { c with partitions := c.partitions.erase (c.part pk).part.encoded } := by
  refine h.frame (fun _ => rfl) rfl (Subperm.refl _) le_rfl id ?_ ?_
  · intro k it
    rw [hS.part_retire]
    split
    · rename_i he; rw [he, hS.indexed_nil hlive]; rfl
    · rfl
  intro k it hit
  rw [hS.part_retire] at hit
  split at hit
  · cases hit
  · exact hit

lemma WaiterOK.release {l} (hl : ∀ it ∈ l, it ∈ (c.part pk).pending) :
    WaiterOK es { g with queue := none } (c.setPart pk { c.part pk with pending := l }) := by
  have hpart : ∀ k, (c.setPart pk { c.part pk with pending := l }).part k =
      if k = pk then { c.part pk with pending := l } else c.part k :=
    fun k => part_setPart c pk k _
  refine h.frame (fun _ => rfl) rfl (Subperm.refl _) le_rfl id (fun k it => ?_) (fun k it hit => ?_)
  · rw [hpart]
    split
    · rename_i he; rw [he]; rfl
    · rfl
  rw [hpart] at hit
  split at hit
  · rename_i he; rw [he]; exact hl it hit
  · exact hit

end

variable [Inhabited V] {jn : JoinRule K V E}

lemma WaiterOK.sched (h : WaiterOK es g c) (hS : StructOK cfg g c)
    (ha : SchedAct cfg g c g' c') : WaiterOK es g' c' := by
  cases ha with
  | quiet hq =>
    exact h.same (fun _ => by rw [hq.items]) hq.waiters (by rw [hq.blocked]) hq.requestSeq
      hq.engineDone (SamePart.of_eq hq.partitions)
  | hold pk hg => exact h.same (fun _ => rfl) rfl (Subperm.refl _) le_rfl id (SamePart.of_eq rfl)
  | release pk l l' hg _ hl => exact h.release hl
  | tooLarge pk l l' it hg hl _ => exact h.resolve hS hg hl _
  | dispatch pk l reason a hg hs _ hl _ => exact h.dispatch reason hs.perm hl
  | retire pk hg hl _ => exact h.retire hS hl

/-- **Every action keeps the waiter invariant.** -/
theorem WaiterOK.act (h : WaiterOK es g c) (hS : StructOK cfg g c) (ha : Act cfg es jn g c g' c') :
    WaiterOK es g' c' := by
  have hkeep : ∀ {g₁ : Held K} {c₁ : Coord K V E},
      (g₁.reqs ++ c₁.blocked).Subperm (g.reqs ++ c.blocked) → c₁.partitions = c.partitions →
      c₁.items = c.items → c₁.waiters = c.waiters → c₁.requestSeq = c.requestSeq →
      c₁.engineDone = c.engineDone → WaiterOK es g₁ c₁ := by
    intro g₁ c₁ hq hp hi hw hr he
    exact h.same (fun _ => by rw [hi]) hw hq hr.ge (fun hd => he.trans hd) (SamePart.of_eq hp)
  have hrefl := Subperm.refl (g.reqs ++ c.blocked)
  cases ha with
  | sched hs => exact h.sched hS hs
  | spawn req dl hn hs hg => exact h.spawn dl hn hs hg
  | refuse req rest err hg =>
    refine hkeep ?_ rfl rfl rfl rfl rfl
    rw [hg]
    exact (sublist_cons_self _ _).subperm
  | park req rest hg =>
    refine hkeep ?_ rfl rfl rfl rfl rfl
    rw [hg, ← append_assoc]
    exact (perm_append_singleton _ _).subperm
  | unpark hg =>
    refine hkeep ?_ rfl rfl rfl rfl rfl
    rw [hg, nil_append, append_nil]
  | unblock w =>
    exact hkeep ((eraseP_sublist.append_left g.reqs).subperm) rfl rfl rfl rfl rfl
  | openPart part hn =>
    refine h.same (fun _ => rfl) rfl hrefl le_rfl id (fun pk => ?_)
    rw [part_setPart]
    split
    · rename_i he
      rw [he, part_of_none c hn]
      exact SamePart.refl _
    · exact SamePart.refl _
  | join req rest it hg _ hj _ =>
    exact h.join hS hg (PartitionState.mem_indexed.2 ⟨_, (joinTarget_some hj).1⟩)
  | enqueue now req rest hg _ _ => exact h.enqueue now hg
  | cancelKeep pk it w hc hne => exact h.cancelWaiter hc (fun _ _ => hne)
  | cancelDrop pk it w hg hc hone _ => exact h.cancelDrop hS hg hc hone
  | cancelFlight pk it w b hc _ hd hb =>
    have hw : WaiterOK es g (c.cancelWaiter pk it w) := by
      refine h.cancelWaiter hc (fun k hk => ?_)
      rw [hS.queued k it hk] at hd
      cases hd
    rw [cancelFlight_eq hb]
    exact hw.same (fun _ => rfl) rfl (Subperm.refl _) le_rfl id (SamePart.of_eq rfl)
  | resolve pk l l' it r hg hl _ => exact h.resolve hS hg hl r
  | shut pk it he _ =>
    rw [deliverAll_eq h.nodup]
    refine h.silence it rfl rfl rfl rfl rfl (fun k x hx => .inl hx) (fun hd => ?_) (fun k x hx => hx)
    rw [show c.engineDone = false from hd] at he
    cases he
  | cancelCtx bid _ =>
    unfold Coord.cancelBatch
    split
    · exact h
    · exact hkeep hrefl rfl rfl rfl rfl rfl
  | _ => exact hkeep hrefl rfl rfl rfl rfl rfl

omit [Inhabited V] in
lemma WaiterOK.init [Inhabited K] : WaiterOK [] {} (Coord.init : Coord K V E) where
  nodup := fun _ => nodup_nil
  own := by rintro _ _ _ h; cases h
  fresh := fun _ _ => rfl
  born := by rintro _ _ h; cases h
  apart := nodup_nil
  held := by rintro _ h; cases h
  home := by rintro _ _ h; cases h
  count := fun _ => le_rfl
  exact := by rintro _ _ _ h; cases h
  pos := by rintro _ _ h; cases h

end Act

end BatchWeaver
