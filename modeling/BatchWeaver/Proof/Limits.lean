import BatchWeaver.Proof.Progress
import BatchWeaver.Proof.Account

/-!
# The hard limits of a batch

`dispatchBatch` keeps running `int64` sums of weights and bytes and compares them with the limits
of a batch. As long as a limit plus the weight of one submission is an `int64`, no sum wraps, and
what the comparison says is true of the integers:

* `SentOK.act`: every batch handed to the provider is non-empty, names its items once and keeps
  both limits.
* `move_sized`: a batch started in a move has at most as many items as the settings in force allow.
* `RefusedOK.act`: a caller of an item that alone exceeds a limit is told so or that the engine is
  closed, and nothing else.
* `batch_limits` puts these together.

A weight near the end of the `int64` range makes a sum negative, and `fits` lets the item in:
`limits_wrap`.
-/

namespace BatchWeaver

open List Coord

variable {K V E : Type} {cfg : BindingConfig K}

def BatchRequest.ids (req : BatchRequest K) : List ItemId := req.items.map (·.id)

/-- The batch was handed to the provider. -/
def Coord.Sent (c : Coord K V E) (id : BatchId) (req : BatchRequest K) : Prop :=
  ∃ pk reason dl, Effect.start id pk reason dl req ∈ c.out

section

variable (cfg : BindingConfig K)

/-- The limit of a batch on a quantity; none if it is not positive. -/
def Measure.limit : Measure → ℤ
  | weight => cfg.maxBatchWeight
  | bytes => cfg.maxBatchBytes

/-- **What holds of a batch for the provider.** -/
structure InLimits (cfg : BindingConfig K) (c : Coord K V E) (req : BatchRequest K) : Prop where
  nonempty : req.items ≠ []
  distinct : req.ids.Nodup
  total : ∀ d : Measure, 0 < d.limit cfg → c.total d.ofItem req.ids ≤ d.limit cfg

/-- Batches keep the limits; their items are known and have no negative loads. -/
def SentOK (c : Coord K V E) : Prop := ∀ id req, c.Sent id req → InLimits cfg c req ∧
    ∀ it ∈ req.ids, it ≤ c.requestSeq ∧ ∀ d : Measure, 0 ≤ d.ofItem (c.items it)

/-- Adding the submission to a batch within the limits does not leave the `int64` range. -/
def SubmitReq.SumsFit (req : SubmitReq K) : Prop :=
  (0 < cfg.maxBatchWeight → cfg.maxBatchWeight + req.weight < 2 ^ 63) ∧
    (0 < cfg.maxBatchBytes → cfg.maxBatchBytes + req.bytes < 2 ^ 63)

instance (cfg : BindingConfig K) (req : SubmitReq K) : Decidable (req.SumsFit cfg) :=
  inferInstanceAs (Decidable (_ ∧ _))

/-- So it is for the submission of a move, if any. -/
def NoOverflow (_ : List (Move K V E)) (_ : Coord K V E) (m : Move K V E) : Prop :=
  ∀ req ∈ m.submission, req.SumsFit cfg

end

instance (cfg : BindingConfig K) (es : List (Move K V E)) (c : Coord K V E) (m : Move K V E) :
    Decidable (NoOverflow cfg es c m) :=
  inferInstanceAs (Decidable (∀ req ∈ m.submission, req.SumsFit cfg))

section Acts

variable {es : List (Move K V E)} {jn : JoinRule K V E} {g g' : Held K} {c c' : Coord K V E}

/-! ## Totals -/

variable {req : BatchRequest K} {it : ItemId}

section

variable [Inhabited V]

/-- The load of an item never changes. -/
lemma Act.load (hok : CoordOK cfg es g c) (ha : Act cfg es jn g c g' c') (hit : it ≤ c.requestSeq) :
    (c'.items it).load = (c.items it).load := by
  rcases ha.still hok with hs | ⟨req, rest, x, -, -, -, -, rfl⟩ | ⟨now, req, rest, -, -, -, rfl⟩
  · exact hs.load it
  · exact view_update _ (by rfl) it
  have hne : it ≠ c.requestSeq + 1 := by
    have : c.requestSeq < c.requestSeq + 1 := Nat.lt_succ_self _
    exact (hit.trans_lt this).ne
  rw [items_enqueue_ne hne]

end

variable {l : List ItemId}

lemma total_load (h : ∀ it ∈ l, (c'.items it).load = (c.items it).load)
    (d : Measure) : c'.total d.ofItem l = c.total d.ofItem l := by
  unfold Coord.total
  rw [map_congr_left fun it hit => Measure.ofItem_congr (h it hit) d]

lemma SubmitReq.SumsFit.limit {req} (h : req.SumsFit cfg) (d : Measure)
    (hpos : 0 < d.limit cfg) : d.limit cfg + d.ofReq req < 2 ^ 63 := by
  cases d with
  | weight => exact h.1 hpos
  | bytes => exact h.2 hpos

variable {a : Selection K}

lemma Chosen.within (h : Chosen cfg c a) (d : Measure) : c.Within (d.limit cfg) d.ofItem a.selected := by
  cases d with
  | weight => exact h.weight_le
  | bytes => exact h.bytes_le

/-- An item of a batch within the limits is not too large. -/
lemma InLimits.not_tooLarge (h : InLimits cfg c req)
    (h0 : ∀ it ∈ req.ids, ∀ d : Measure, 0 ≤ d.ofItem (c.items it)) (hit : it ∈ req.ids) :
    Coord.itemTooLarge cfg (c.items it) ≠ true := by
  have hle : ∀ d : Measure, 0 < d.limit cfg → d.ofItem (c.items it) ≤ d.limit cfg := by
    intro d hpos
    have hmem : d.ofItem (c.items it) ∈ req.ids.map fun x => d.ofItem (c.items x) := mem_map.2 ⟨it, hit, rfl⟩
    refine le_trans (single_le_sum ?_ _ hmem) (h.total d hpos)
    intro x hx
    obtain ⟨y, hy, rfl⟩ := mem_map.1 hx
    exact h0 y hy d
  have hw : 0 < cfg.maxBatchWeight → (c.items it).weight ≤ cfg.maxBatchWeight := hle .weight
  have hb : 0 < cfg.maxBatchBytes → (c.items it).bytes ≤ cfg.maxBatchBytes := hle .bytes
  unfold Coord.itemTooLarge
  rw [if_neg (by omega), if_neg (by omega)]
  decide

/-! ## Batches -/

lemma ids_selected (h : Selected c l a) : (⟨a.items⟩ : BatchRequest K).ids = a.selected := by
  unfold BatchRequest.ids
  rw [h.items, List.map_map]
  refine (map_congr_left fun it _ => ?_).trans (map_id _)
  exact batchItem_id it

/-- Settings are as configured or as `ApplyAdaptiveSettings` left them: a batch may have an item. -/
def Tuned (cfg : BindingConfig K) (c : Coord K V E) : Prop := 1 ≤ c.effectiveMaxBatchSize cfg

lemma Tuned.congr (h : Tuned cfg c) (hd : c'.dyn = c.dyn) : Tuned cfg c' := by
  unfold Tuned effectiveMaxBatchSize at h ⊢
  rw [hd]
  exact h

variable {id : BatchId}

section

variable [Inhabited V]

/-- **Every batch handed to the provider keeps the limits.** -/
theorem SentOK.act (h : SentOK cfg c) (hok : CoordOK cfg es g c) (hL : LoadOK es c)
    (hs : ∀ req ∈ submitted es, req.Sound cfg) (hfit : ∀ req ∈ submitted es, req.SumsFit cfg)
    (ha : Act cfg es jn g c g' c') : SentOK cfg c' := by
  have hkeep : ∀ {req : BatchRequest K}, InLimits cfg c req →
      (∀ it ∈ req.ids, it ≤ c.requestSeq ∧ ∀ d : Measure, 0 ≤ d.ofItem (c.items it)) →
      InLimits cfg c' req ∧ ∀ it ∈ req.ids, it ≤ c'.requestSeq ∧ ∀ d : Measure, 0 ≤ d.ofItem (c'.items it) := by
    intro req hin hids
    have hload : ∀ it ∈ req.ids, (c'.items it).load = (c.items it).load := fun it hit => ha.load hok (hids it hit).1
    refine ⟨⟨hin.nonempty, hin.distinct, fun d hpos => ?_⟩, fun it hit => ⟨?_, fun d => ?_⟩⟩
    · rw [total_load hload d]
      exact hin.total d hpos
    · exact (hids it hit).1.trans (ha.requestSeq_le hok)
    · rw [Measure.ofItem_congr (hload it hit) d]
      exact (hids it hit).2 d
  rintro id req ⟨pk, reason, dl, hst⟩
  rcases ha.mem_out hok hst with hst | hst
  · obtain ⟨hin, hids⟩ := h id req ⟨pk, reason, dl, hst⟩
    exact hkeep hin hids
  cases hst with
  | start _ l _ a hg hsel hp hne hch _ =>
    have hq : Held.queueOf g c pk = l := by rw [Held.queueOf_some hg, if_pos rfl]
    have hin : ∀ it ∈ a.selected, it ∈ (c.part pk).indexed := fun it hit =>
      hok.struct.held_indexed hg (hsel.perm.mem_iff.2 (mem_append_left _ hit))
    have hnd : a.selected.Nodup := by
      have hl : l.Nodup := by rw [← hq]; exact (nodup_append.1 (hok.struct.queue_nodup pk)).1
      exact (nodup_append.1 (hsel.perm.nodup_iff.1 hl)).1
    have hload : ∀ it ∈ a.selected, ∃ r ∈ submitted es, ∀ d : Measure, d.ofItem (c.items it) = d.ofReq r := by
      intro it hit
      obtain ⟨r, hr, -, -, hload⟩ := hL pk it (hin it hit)
      exact ⟨r, hr, Measure.ofItem_load hload⟩
    refine hkeep ⟨?_, ?_, fun d hpos => ?_⟩ fun it hit => ?_
    · intro hnil
      rw [hsel.items, map_eq_nil_iff] at hnil
      exact hne hnil
    · rw [ids_selected hsel]
      exact hnd
    · rw [ids_selected hsel]
      refine hch.within d hpos fun it hit => ?_
      obtain ⟨r, hr, heq⟩ := hload it hit
      rw [heq d]
      exact ⟨(hs r hr).measure d, (hfit r hr).limit d hpos⟩
    rw [ids_selected hsel] at hit
    obtain ⟨r, hr, heq⟩ := hload it hit
    exact ⟨(hok.struct.range pk it (hin it hit)).2, fun d => by rw [heq d]; exact (hs r hr).measure d⟩

/-! ## The number of items -/

/-- A move keeps the settings of a turn. -/
lemma turn_dyn (hok : CoordOK cfg es {} c) {t} (hl : t.event.Legal cfg es c) : (c.turn cfg t).dyn = c.dyn := by
  have hok₁ := (hok.mono (.turn t)).acts (handle_acts hok hl joinsOnly_true)
  have hhandle := handle_dyn hok t.event
  rcases turn_cases cfg c t with h | ⟨-, h⟩
  · obtain ⟨bs, out, d, heq⟩ := finishTurn_eq cfg (c.handle cfg t.event) t.now t.ctxErr
    rw [h, ← hhandle, ← (schedule_acts hok₁ rfl false t.now).dyn, heq]
  · rw [h]
    exact hhandle

lemma Tuned.move (h : Tuned cfg c) (hok : CoordOK cfg es {} c) {m}
    (hl : m.Legal cfg es c) : Tuned cfg (c.move cfg m) := by
  have hpos := cfg.maxBatchSize_pos
  cases m with
  | turn t => exact h.congr (turn_dyn hok hl.2)
  | adapt s =>
    show 1 ≤ (applyAdaptiveSettings cfg s).maxBatchSize
    unfold applyAdaptiveSettings clampInt
    dsimp only
    split_ifs <;> omega
  | clearAdaptive => exact hpos
  | _ => exact h

/-- Without a new number there is no new batch. -/
lemma sent_of_batchSeq (hok : CoordOK cfg es g c) (ha : Acts cfg es jn g c g' c')
    (hn : c'.batchSeq = c.batchSeq) (hs : c'.Sent id req) : c.Sent id req := by
  obtain ⟨pk, reason, dl, hst⟩ := hs
  have hI := ha.keeps (I := fun g₁ c₁ => CoordOK cfg es g₁ c₁ ∧ c.batchSeq ≤ c₁.batchSeq ∧
      (Effect.start id pk reason dl req ∈ c₁.out →
        Effect.start id pk reason dl req ∈ c.out ∨ c.batchSeq < c₁.batchSeq)) ?_
    ⟨hok, le_rfl, .inl⟩
  · exact ⟨pk, reason, dl, (hI.2.2 hst).resolve_right (by omega)⟩
  rintro g₁ c₁ g₂ c₂ ha ⟨hok₁, hle, hmem⟩
  have hmono := (ha.forward hok₁).batchSeq
  refine ⟨hok₁.act ha, hle.trans hmono, fun h => ?_⟩
  rcases ha.mem_out hok₁ h with h | h
  · exact (hmem h).imp (fun h => h) fun h => h.trans_le hmono
  · cases h with
    | start _ _ _ _ _ _ _ _ _ hseq => exact .inr (by omega)

/-- **A batch started in a move has at most as many items as the settings allow.** -/
theorem move_sized (hok : CoordOK cfg es {} c) (ht : Tuned cfg c) {m : Move K V E} (hl : m.Legal cfg es c)
    {id : BatchId} (hs : (c.move cfg m).Sent id req) (hnew : ¬c.Sent id req) :
    (req.items.length : ℤ) ≤ c.effectiveMaxBatchSize cfg := by
  have hkey : (c.move cfg m).Sent id req → c.Sent id req ∨ (0 < (c.move cfg m).effectiveMaxBatchSize cfg →
      (req.items.length : ℤ) ≤ (c.move cfg m).effectiveMaxBatchSize cfg) := by
    refine move_scheduled (P := fun c₁ => c₁.Sent id req → c.Sent id req ∨
      (0 < c₁.effectiveMaxBatchSize cfg → (req.items.length : ℤ) ≤ c₁.effectiveMaxBatchSize cfg))
      hok hl ?_ ?_ ?_
    · intro c₁ ha hn hs
      exact .inl (sent_of_batchSeq (hok.mono m) ha hn hs)
    · rintro g₁ c₁ g₂ c₂ hok₁ ha hP ⟨pk, reason, dl, hst⟩
      have hmbs : c₂.effectiveMaxBatchSize cfg = c₁.effectiveMaxBatchSize cfg := by
        unfold effectiveMaxBatchSize
        rw [ha.one.dyn]
      rw [hmbs]
      obtain ⟨effs, hout, hem⟩ := ha.emits hok₁
      rw [hout, mem_append] at hst
      rcases hst with hst | hst
      · exact hP ⟨pk, reason, dl, hst⟩
      cases hem _ hst with
      | start _ l _ a _ hsel _ _ hch _ =>
        right
        rw [hsel.items, length_map]
        exact hch.size
    rintro c₁ c₂ - - - hd hout hP ⟨pk, reason, dl, hst⟩
    have hmbs : c₂.effectiveMaxBatchSize cfg = c₁.effectiveMaxBatchSize cfg := by
      unfold effectiveMaxBatchSize
      rw [hd]
    rw [hmbs]
    exact hP ⟨pk, reason, dl, (hout _ hst).resolve_right fun h => h rfl⟩
  cases m with
  | turn t =>
    have hmbs : (c.move cfg (.turn t)).effectiveMaxBatchSize cfg = c.effectiveMaxBatchSize cfg := by
      unfold effectiveMaxBatchSize
      rw [show (c.move cfg (.turn t)).dyn = c.dyn from turn_dyn hok hl.2]
    rw [hmbs] at hkey
    exact (hkey hs).resolve_left hnew ht
  | _ => exact absurd hs hnew

/-! ## Items that are too large -/

/-- The callers of an item that alone exceeds a limit are told so. -/
def RefusedOK (cfg : BindingConfig K) (c : Coord K V E) : Prop :=
  ∀ it w r, Coord.itemTooLarge cfg (c.items it) = true → w ∈ (c.items it).waiters → r ∈ c.results w →
    r = .error .itemTooLarge ∨ c.engineDone = true ∧ r = .error .engineClosed

end

lemma mem_results {w r} : r ∈ c.results w ↔ Effect.result w r ∈ c.out := by
  unfold Coord.results
  rw [mem_filterMap]
  constructor
  · rintro ⟨eff, he, hr⟩
    cases eff with
    | result v r' =>
      obtain ⟨rfl, rfl⟩ : v = w ∧ r' = r := by simpa [Effect.resultFor] using hr
      exact he
    | _ => cases hr
  · intro he
    exact ⟨_, he, by simp [Effect.resultFor]⟩

/-- A too large item is in no batch. -/
lemma SentOK.not_mem (h : SentOK cfg c) (hbig : Coord.itemTooLarge cfg (c.items it) = true)
    (hs : c.Sent id req) : it ∉ req.ids := by
  intro hit
  obtain ⟨hin, hids⟩ := h id req hs
  exact hin.not_tooLarge (fun x hx => (hids x hx).2) hit hbig

lemma itemTooLarge_load {x y} (h : x.load = y.load) : Coord.itemTooLarge cfg x = Coord.itemTooLarge cfg y := by
  have hw : x.weight = y.weight := congrArg (·.2.1) h
  have hb : x.bytes = y.bytes := congrArg (·.2.2) h
  unfold Coord.itemTooLarge
  rw [hw, hb]

lemma deliverAll_out (it : ItemId) (r : Result V E) : c.out ⊆ (c.deliverAll it r).out := by
  have key : ∀ (ws : List WaiterId) (c : Coord K V E), c.out ⊆ (ws.foldl (fun c w => c.deliver w r) c).out := by
    intro ws
    induction ws with
    | nil => exact fun c eff he => he
    | cons w ws ih =>
      intro c eff he
      refine ih (c.deliver w r) ?_
      unfold deliver
      split
      · exact he
      · exact mem_append_left _ he
  exact key _ c

variable [Inhabited V]

/-- **Every action keeps the callers of a too large item from any other answer.** -/
theorem RefusedOK.act (h : RefusedOK cfg c) (hok : CoordOK cfg es g c) (hS : SentOK cfg c)
    (hD : DeliveryOK es c) (ha : Act cfg es jn g c g' c') : RefusedOK cfg c' := by
  intro it w r hbig hw hr
  have hengine := (ha.forward hok).engineDone
  -- the caller is an old one, or was active and has no result
  rcases ha.waiter_origin hok hw with hold | ⟨⟨req, hreq, rfl⟩, hws, -⟩
  · have hit : it ≤ c.requestSeq := by
      by_contra hlt
      rw [hok.waiter.fresh it (not_le.1 hlt)] at hold
      cases hold
    rw [itemTooLarge_load (ha.load hok hit)] at hbig
    rcases ha.mem_out hok (mem_results.1 hr) with hr | hr
    · exact (h it w r hbig hold (mem_results.2 hr)).imp id fun h => ⟨hengine h.1, h.2⟩
    cases hr with
    | result x _ _ hwx _ hreason =>
      obtain rfl := hok.waiter.own it x w hold hwx
      cases hreason with
      | tooLarge he => exact .inl he
      | closed hd he => exact .inr ⟨hengine hd, he⟩
      | verdict pk _ hv =>
        obtain ⟨done, -, reason, dl, breq, hst, ⟨bi, hbi, hid, -⟩, -⟩ := hv.why
        refine absurd ?_ (hS.not_mem hbig ⟨pk, reason, dl, hst⟩)
        exact mem_map.2 ⟨bi, hbi, hid⟩
  have hact : c'.active req.waiter = true := by
    rw [active_congr hws]
    exact (hok.waiter.held req (mem_append_left _ hreq)).2.1
  have hnone := (hD.act hok ha).silent req.waiter (.inr hact)
  rw [hnone] at hr
  cases hr

/-! ## The head of a queue -/

lemma selectItem_out (pk : GoString) (a : Selection K) (it : ItemId) : c.out ⊆ (selectItem cfg pk (c, a) it).1.out := by
  intro eff he
  unfold selectItem
  dsimp only
  split
  · exact he
  split
  · exact deliverAll_out it _ he
  split
  · exact he
  · exact he

lemma selectItems_out (pk : GoString) (l : List ItemId) :
    ∀ s : Coord K V E × Selection K, s.1.out ⊆ (l.foldl (selectItem cfg pk) s).1.out := by
  induction l with
  | nil => exact fun s eff he => he
  | cons it l ih =>
    intro s eff he
    exact ih (selectItem cfg pk s it) (selectItem_out pk s.2 it he)

/-- What the loop of `dispatchBatch` emits stays. -/
lemma dispatchBatch_out (pk : GoString) (reason : FlushReason) :
    ((c.part pk).pending.foldl (selectItem cfg pk) (c, {})).1.out ⊆ (c.dispatchBatch cfg pk reason).out := by
  have hfail : ∀ (err : GoError E) (l : List ItemId) (c : Coord K V E), c.out ⊆
      (l.foldl (fun c it => { c.failItem pk it err with queuedItems := c.queuedItems - 1 }) c).out := by
    intro err l
    induction l with
    | nil => exact fun c eff he => he
    | cons it l ih => exact fun c eff he => ih _ (deliverAll_out it _ he)
  intro eff he
  unfold dispatchBatch
  dsimp only
  split
  · exact he
  split
  · exact hfail _ _ _ he
  · exact mem_append_left _ he

/-- **`dispatchBatch` fails a too large item that it comes to first.** -/
theorem dispatchBatch_fails (hok : CoordOK cfg es {} c) {pk : GoString} {rest : List ItemId}
    (hp : (c.part pk).pending = it :: rest) (hbig : Coord.itemTooLarge cfg (c.items it) = true)
    (reason : FlushReason) {w : WaiterId} (hw : w ∈ (c.items it).waiters) (hact : c.active w = true) :
    Result.error .itemTooLarge ∈ (c.dispatchBatch cfg pk reason).results w := by
  have hpos := hok.waiter.pos pk it (by rw [hp]; exact mem_cons_self ..)
  refine mem_results.2 (dispatchBatch_out pk reason ?_)
  rw [hp, foldl_cons]
  refine selectItems_out pk rest _ ?_
  unfold selectItem
  dsimp only
  rw [if_neg (by omega), if_pos ⟨rfl, hbig⟩]
  show Effect.result w _ ∈ (c.deliverAll it _).out
  rw [deliverAll_eq hok.nodup]
  exact mem_append_right _ (mem_map.2 ⟨w, mem_filter.2 ⟨hw, hact⟩, rfl⟩)

end Acts

/-! ## Runs -/

section Main

variable [Inhabited K] [Inhabited V]

variable {es : List (Move K V E)} {c : Coord K V E}

lemma reach_tuned (h : (coordinator cfg).Reach es c) : Tuned cfg c := by
  refine h.invariant (I := fun _ c => Tuned cfg c) ?_ fun _ _ _ hr hl ht => ht.move (reach_ok hr) hl
  exact cfg.maxBatchSize_pos

lemma reach_limits (h : ((coordinator cfg).only (NoOverflow cfg)).Reach es c) : SentOK cfg c ∧ RefusedOK cfg c := by
  refine h.invariant (I := fun _ c => SentOK cfg c ∧ RefusedOK cfg c) ⟨?_, ?_⟩ ?_
  · rintro id req ⟨pk, reason, dl, hst⟩
    cases hst
  · rintro it w r - hw
    cases hw
  intro es c m hr hl hI
  have hstep := hr.step m hl
  have hfit := submitted_only (fun es c m req hq hm => hq req hm) hstep
  have hs := submitted_sound hstep.of_only
  have hacts := move_acts (reach_ok hr.of_only) hl.1 joinsOnly_true
  refine (hacts.keeps (I := fun g c => CoordOK cfg (es ++ [m]) g c ∧ LoadOK (es ++ [m]) c ∧
    DeliveryOK (es ++ [m]) c ∧ SentOK cfg c ∧ RefusedOK cfg c) ?_ ⟨(reach_ok hr.of_only).mono m,
      (reach_loads hr.of_only).mono m, (reach_delivery hr.of_only).mono m, hI⟩).2.2.2
  rintro g c g' c' ha ⟨hok, hL, hD, hS, hR⟩
  exact ⟨hok.act ha, hL.act hok ha, hD.act hok ha, hS.act hok hL hs hfit ha, hR.act hok hS hD ha⟩

/-- **The hard limits hold of every batch, in every run in which a limit and the weight or size of
a submission together are an `int64`**: batches are non-empty, without duplicates and within the limits
on weight and bytes; those of a move are within the effective batch size; an item that alone exceeds a
limit is never sent, its callers hear that it is too large, or that the engine is closed, and do so as
soon as a dispatch comes to it first. -/
theorem batch_limits {es : List (Move K V E)} {c : Coord K V E}
    (h : ((coordinator cfg).only (NoOverflow cfg)).Reach es c) : (∀ id req, c.Sent id req → InLimits cfg c req) ∧
    (∀ m, ((coordinator cfg).only (NoOverflow cfg)).ok es c m → ∀ id req, (c.move cfg m).Sent id req →
      ¬c.Sent id req → (req.items.length : ℤ) ≤ c.effectiveMaxBatchSize cfg) ∧
    ∀ it, Coord.itemTooLarge cfg (c.items it) = true → (∀ id req, c.Sent id req → it ∉ req.ids) ∧
      (∀ w ∈ (c.items it).waiters, ∀ r ∈ c.results w,
        r = .error .itemTooLarge ∨ c.engineDone = true ∧ r = .error .engineClosed) ∧
      ∀ pk rest reason, (c.part pk).pending = it :: rest → ∀ w ∈ (c.items it).waiters,
        c.active w = true → Result.error .itemTooLarge ∈ (c.dispatchBatch cfg pk reason).results w := by
  have hr := h.of_only
  obtain ⟨hS, hR⟩ := reach_limits h
  refine ⟨fun id req hs => (hS id req hs).1, ?_, fun it hbig => ⟨?_, ?_, ?_⟩⟩
  · intro m hl id req hs hnew
    exact move_sized (reach_ok hr) (reach_tuned hr) hl.1 hs hnew
  · exact fun id req hs => hS.not_mem hbig hs
  · exact fun w hw r hres => hR it w r hbig hw hres
  · exact fun pk rest reason hp w hw hact => dispatchBatch_fails (reach_ok hr) hp hbig reason hw hact

end Main

/-- The small binding with at most weight 5 in a batch. -/
def demoBounded : BindingConfig ℕ := { demo .manual with maxBatchWeight := 5 }

/-- Weights 3, 9 and 2: the second is not sent. -/
theorem batch_limits_demo :
    let c := (coordinator demoBounded).run Coord.init
      [demoHeavy 1 3 1, demoHeavy 2 9 2, demoHeavy 3 2 3, demoControl .flush 1]
    ∀ id req, c.Sent id req → InLimits demoBounded c req :=
  (batch_limits (System.reach_of_allowed (by decide))).1

/-- **A sum of weights wraps.** With a limit of 5, items of weight 1 and `2 ^ 63 - 1` go out as one
batch: their `int64` sum is negative. The second alone exceeds the limit. -/
theorem limits_wrap : ∃ es : List (Move ℕ ℕ ℕ), ∃ c : Coord ℕ ℕ ℕ,
    (coordinator demoBounded).Reach es c ∧ c.Sent 1 ⟨[c.batchItem 1, c.batchItem 2]⟩ ∧
      c.total QItem.weight [1, 2] = 2 ^ 63 ∧ Coord.itemTooLarge demoBounded (c.items 2) = true :=
  ⟨[demoHeavy 1 1 1, demoHeavy 2 (2 ^ 63 - 1) 2, demoControl .flush 1], _,
    System.reach_of_allowed (by decide), ⟨[1], .manual, none, by decide⟩,
    by decide, by decide⟩

end BatchWeaver
