import BatchWeaver.Proof.Crowd

/-!
# Parked submissions

Under `OverflowBlock` a submission over a limit is parked, and `retryBlocked` processes the parked
ones again when a batch completes. Nothing else does, so room made in another way is not used.

A parked submission `Exceeds` a limit. Queueing and joining keep it so (`Exceeds.enqueue`,
`Exceeds.join`); a dispatch does not, but then a batch is in flight. What is left are the ways to make
room without a batch:

* the last caller of an item leaves, or one of several does and callers are counted;
* an item that is too large for a batch fails;
* a partition that was opened for a parked submission is retired;
* a submission with an equal key but a smaller weight is admitted, and can be joined.

`blocked_waits`: in a run without these, parked submissions exceed a limit or a batch is in flight, in
every reachable state. `blocked_stranded`: a caller leaves, and a submission stays parked beside an
empty queue.
-/

namespace BatchWeaver

open List Coord

variable {K V E : Type} {cfg : BindingConfig K} {es : List (Move K V E)} {g g' : Held K} {c c' : Coord K V E}
  {r : SubmitReq K} {pk : GoString} {p : PartitionState} {it : ItemId}

section

variable (cfg : BindingConfig K)

/-- The limit of a queue on a quantity; none if it is not positive. -/
def Measure.queueLimit : Measure → ℤ
  | weight => cfg.limits.maxWeight
  | bytes => cfg.limits.maxBytes

variable (c : Coord K V E)

/-- Every parked submission exceeds a limit. -/
def Parked : Prop := ∀ req ∈ c.blocked, Exceeds cfg c req

/-- A partition has items, or it has just been opened and partitions are not limited. -/
def LivelyAt (pk : GoString) : Prop :=
  (c.part pk).live ≠ 0 ∨ (c.part pk = PartitionState.new ⟨pk⟩ ∧ cfg.limits.maxPartitions ≤ 0)

def Lively : Prop := ∀ pk ∈ c.partitions, LivelyAt cfg c pk

/-- At least one provider batch is in flight. -/
def Coord.InFlight : Prop := 0 < c.inflight.entries.length

instance (c : Coord K V E) : Decidable c.InFlight := inferInstanceAs (Decidable (0 < _))

/-- A batch is in flight, or every parked submission exceeds a limit. -/
structure Waiting (cfg : BindingConfig K) (c : Coord K V E) : Prop where
  lively : Lively cfg c
  parked : c.InFlight ∨ Parked cfg c

/-- The queues keep the limits on bytes and weight. -/
def Capped : Prop :=
  ∀ (d : Measure) pk, 0 < d.queueLimit cfg → c.total d.ofItem (c.undispatched pk) ≤ d.queueLimit cfg

end

/-- What the submissions of a run have to meet. -/
structure Mannered (cfg : BindingConfig K) (rs : List (SubmitReq K)) : Prop where
  sound : ∀ r ∈ rs, r.Sound cfg
  fits : ∀ r ∈ rs, ¬r.tooLarge cfg
  sums : ∀ r ∈ rs, ∀ d : Measure, 0 < d.queueLimit cfg → d.queueLimit cfg + d.ofReq r < 2 ^ 63
  alone : 0 < cfg.limits.maxPartitions → ∀ r ∈ rs, overLimits cfg (PartitionState.new r.part) r = none
  alike : ∀ r ∈ rs, ∀ r' ∈ rs, r.part.encoded = r'.part.encoded → cfg.keys.equal r.key r'.key = true →
    r.weight = r'.weight ∧ r.bytes = r'.bytes

/-! ## Limits -/

section Limits

variable {req : SubmitReq K}

lemma overLimits_ne_none : overLimits cfg p req ≠ none ↔
      (0 < cfg.limits.maxItems ∧ cfg.limits.maxItems < p.pending.length + 1) ∨
      (0 < cfg.limits.maxWaiters ∧ cfg.limits.maxWaiters < p.waiters + 1) ∨
      ∃ d : Measure, 0 < d.queueLimit cfg ∧ d.queueLimit cfg < wrap64 (d.ofPart p + d.ofReq req) := by
  have hd : (∃ d : Measure, 0 < d.queueLimit cfg ∧ d.queueLimit cfg < wrap64 (d.ofPart p + d.ofReq req)) ↔
      (0 < cfg.limits.maxBytes ∧ cfg.limits.maxBytes < wrap64 (p.bytes + req.bytes)) ∨
        (0 < cfg.limits.maxWeight ∧ cfg.limits.maxWeight < wrap64 (p.weight + req.weight)) := by
    constructor
    · rintro ⟨d, h⟩
      cases d with
      | weight => exact .inr h
      | bytes => exact .inl h
    rintro (h | h)
    · exact ⟨.bytes, h⟩
    · exact ⟨.weight, h⟩
  rw [hd]
  unfold overLimits
  dsimp only
  split_ifs with h1 h2 h3 h4
  · simp [h1]
  · simp [h2]
  · simp [h3]
  · simp [h4]
  · simp only [ne_eq, not_true_eq_false, h1, h2, h3, h4, or_self]

/-- A fuller partition is over the limits, too. -/
lemma overLimits_mono {p p'} (hlen : p.pending.length ≤ p'.pending.length)
    (hw : p.waiters ≤ p'.waiters) (hd : ∀ d : Measure, 0 < d.queueLimit cfg →
      wrap64 (d.ofPart p + d.ofReq req) ≤ wrap64 (d.ofPart p' + d.ofReq req))
    (h : overLimits cfg p req ≠ none) : overLimits cfg p' req ≠ none := by
  rw [overLimits_ne_none] at h ⊢
  rcases h with ⟨h1, h2⟩ | ⟨h1, h2⟩ | ⟨d, h1, h2⟩
  · exact .inl ⟨h1, by omega⟩
  · exact .inr (.inl ⟨h1, by omega⟩)
  · exact .inr (.inr ⟨d, h1, h2.trans_le (hd d h1)⟩)

lemma Exceeds.congr (h : Exceeds cfg c req) (hp : c'.partitions = c.partitions) (hi : c'.items = c.items) :
    Exceeds cfg c' req := by
  have hpart : c'.part = c.part := part_congr hp
  unfold Exceeds Full joinTarget at h ⊢
  rw [hp, hpart, hi]
  exact h

lemma joinTarget_eq_none : c.joinTarget cfg r = none ↔ (cfg.dedupEnabled = true →
    ∀ it ∈ (c.part r.part.encoded).bucket r.hash, ¬cfg.keys.equal (c.items it).key r.key = true) := by
  unfold joinTarget
  split
  · rename_i hd
    simp only [find?_eq_none, hd, true_implies]
  · rename_i hd
    simp [hd]

/-- An empty partition more changes nothing while there is room for it. -/
lemma Exceeds.openPart (h : Exceeds cfg c r) {part}
    (hn : c.partitions.lookup part.encoded = none) (hroom : ¬c.Full cfg) :
    Exceeds cfg (c.setPart part.encoded (PartitionState.new part)) r := by
  have hpart : ∀ k, (c.setPart part.encoded (PartitionState.new part)).part k = c.part k := by
    intro k
    rw [part_setPart]
    split
    · rename_i hk
      rw [hk, part_of_none c hn]
    · rfl
  rcases h with ⟨-, hfull⟩ | ⟨hj, hl⟩
  · exact absurd hfull hroom
  right
  rw [hpart]
  refine ⟨?_, hl⟩
  rw [joinTarget_eq_none] at hj ⊢
  rw [hpart]
  exact hj

/-- **A submission over a limit is not admitted.** -/
theorem Exceeds.refused (h : Exceeds cfg c req) (now : Time) :
    (c.handleSubmit cfg now req).out ≠ c.out ++ [.reply req.waiter none] := by
  refine handleSubmit_rule (P := fun c₁ => c₁.out = c.out ∧ Exceeds cfg c₁ req)
    (Q := fun c' => c'.out ≠ c.out ++ [.reply req.waiter none]) now ⟨rfl, h⟩
    (fun _ hn hroom => ⟨rfl, h.openPart hn hroom⟩) (fun c₁ err hP _ => ?_) (fun c₁ hP _ => ?_)
    (fun it _ hknown hit => ?_) (fun c₁ hP _ hknown _ hl => ?_)
  · rw [← hP.1]
    simp [emit]
  · rw [← hP.1]
    simp
  · rw [(h.resolve_left fun hn => hknown hn.1).1] at hit
    cases hit
  · exact absurd hl (hP.2.resolve_left fun hn => hknown hn.1).2

end Limits

/-! ## Bytes and weight in the queues -/

section Caps

variable {jn : JoinRule K V E}

section

variable [Inhabited V]

/-- A dispatched item stays dispatched. -/
lemma Act.dispatched (hok : CoordOK cfg es g c) (ha : Act cfg es jn g c g' c')
    (hit : it ≠ c.requestSeq + 1) (hd : (c.items it).dispatched = true) : (c'.items it).dispatched = true := by
  have hupdate : ∀ {x : ItemId} {q : QItem K}, q.dispatched = (c.items x).dispatched →
      (Function.update c.items x q it).dispatched = true := by
    intro x q hq
    by_cases hx : it = x
    · subst hx
      rw [Function.update_self, hq]
      exact hd
    · rw [Function.update_of_ne hx]
      exact hd
  cases ha with
  | sched hs =>
    cases hs with
    | quiet hq => rw [hq.items]; exact hd
    | tooLarge pk l l' x _ _ _ _ =>
      rw [resolve_eq hok.nodup]
      exact hd
    | dispatch pk l reason a _ _ _ _ _ _ =>
      rw [dispatch_eq]
      dsimp only
      split
      · rfl
      · exact hd
    | _ => exact hd
  | join _ _ _ _ _ _ _ | cancelKeep _ _ _ _ _ => exact hupdate rfl
  | enqueue now req rest _ _ _ _ _ =>
    rw [items_enqueue_ne hit]
    exact hd
  | cancelDrop pk x w _ _ _ _ =>
    rw [cancelDrop_eq]
    exact hupdate rfl
  | cancelFlight pk x w b _ _ _ hb _ =>
    rw [cancelFlight_eq hb]
    exact hupdate rfl
  | resolve pk l l' x r _ _ _ _ =>
    rw [resolve_eq hok.nodup]
    exact hd
  | shut pk x _ _ =>
    rw [deliverAll_eq hok.nodup]
    exact hd
  | cancelCtx bid _ =>
    obtain ⟨_, _, hb⟩ := c.cancelBatch_eq bid
    rw [hb]
    exact hd
  | _ => exact hd

end

/-- Fewer items have a smaller total. -/
lemma total_le_of_subset {f : QItem K → ℤ} {l l'} (hnd : l'.Nodup)
    (hsub : ∀ it ∈ l', it ∈ l) (h0 : ∀ it ∈ l, 0 ≤ f (c.items it)) : c.total f l' ≤ c.total f l := by
  have hsubperm : l'.Subperm l := subperm_of_subset hnd hsub
  obtain ⟨l₁, hperm, hl⟩ := hsubperm
  rw [← total_perm hperm]
  unfold Coord.total
  refine (hl.map _).sum_le_sum fun x hx => ?_
  obtain ⟨it, hit, rfl⟩ := mem_map.1 hx
  exact h0 it hit

lemma LoadOK.nonneg (hL : LoadOK es c) (hs : ∀ r ∈ submitted es, r.Sound cfg)
    (hit : it ∈ (c.part pk).indexed) (d : Measure) : 0 ≤ d.ofItem (c.items it) := by
  obtain ⟨r, hr, -, -, hload⟩ := hL pk it hit
  rw [Measure.ofItem_load hload]
  exact (hs r hr).measure d

lemma LoadOK.undispatched_nonneg (hL : LoadOK es c) (hs : ∀ r ∈ submitted es, r.Sound cfg)
    (pk : GoString) (d : Measure) : 0 ≤ c.total d.ofItem (c.undispatched pk) :=
  total_nonneg fun _ hit => hL.nonneg hs (mem_of_mem_filter hit) d

/-- Within a limit the total a partition keeps is the true one. -/
lemma Totals.exact (hT : Totals c) (hcap : Capped cfg c) (hL : LoadOK es c)
    (hm : Mannered cfg (submitted es)) (hr : r ∈ submitted es) {d : Measure}
    (hpos : 0 < d.queueLimit cfg) (pk : GoString) : d.ofPart (c.part pk) = c.total d.ofItem (c.undispatched pk) := by
  have hle := hcap d pk hpos
  have hsum := hm.sums r hr d hpos
  have h0 := (hm.sound r hr).measure d
  rw [hT d pk, wrap64_of_lt (hL.undispatched_nonneg hm.sound pk d) (by omega)]

variable [Inhabited V]

/-- **Queues keep their limits on bytes and weight.** -/
theorem Capped.act (h : Capped cfg c) (hok : CoordOK cfg es g c) (hL : LoadOK es c) (hT : Totals c)
    (hm : Mannered cfg (submitted es)) (ha : Act cfg es jn g c g' c') : Capped cfg c' := by
  intro d pk hpos
  rcases ha.still hok with hs | ⟨req, rest, x, -, -, -, -, rfl⟩ | ⟨now, req, rest, hg, -, ⟨-, hover⟩, rfl⟩
  · refine le_trans ?_ (h d pk hpos)
    have hload : ∀ it ∈ c'.undispatched pk, d.ofItem (c'.items it) = d.ofItem (c.items it) :=
      fun it _ => Measure.ofItem_congr (hs.load it) d
    rw [total_congr hload]
    refine total_le_of_subset ?_ (fun it hit => ?_) (fun it hit => hL.nonneg hm.sound (mem_of_mem_filter hit) d)
    · exact ((hok.act ha).struct.nodup pk).filter _
    obtain ⟨hin, hd⟩ := mem_filter.1 hit
    have hin' := hs.indexed pk it hin
    refine mem_filter.2 ⟨hin', ?_⟩
    -- an item that is not dispatched now was not before
    cases hdis : (c.items it).dispatched with
    | false => rfl
    | true =>
      rw [ha.dispatched hok (hok.struct.fresh_item hin') hdis] at hd
      cases hd
  · have hstock : ∀ it, ((c.join req x).items it).stock = (c.items it).stock := view_update _ rfl
    rw [total_undispatched (by rw [indexed_join]) fun it _ => hstock it]
    exact h d pk hpos
  have hreq := (hok.waiter.held req (by rw [hg]; simp)).1
  rw [total_enqueue hok.struct]
  split
  · rename_i hpk
    -- the sum that was compared with the limit did not wrap
    have hexact := hT.exact h hL hm hreq hpos pk
    have h0 := hL.undispatched_nonneg hm.sound pk d
    have hr0 := (hm.sound req hreq).measure d
    have hle := h d pk hpos
    have hsum := hm.sums req hreq d hpos
    by_contra hlt
    refine overLimits_ne_none.2 (.inr (.inr ⟨d, hpos, ?_⟩)) hover
    rw [← hpk, hexact, wrap64_of_lt (by omega) (by omega)]
    omega
  · rw [add_zero]
    exact h d pk hpos

/-- What is known of the state whenever `handleSubmit` is called. -/
structure Tidy (cfg : BindingConfig K) (es : List (Move K V E)) (g : Held K) (c : Coord K V E) : Prop where
  ok : CoordOK cfg es g c
  load : LoadOK es c
  totals : Totals c
  capped : Capped cfg c

lemma Tidy.act (h : Tidy cfg es g c) (hm : Mannered cfg (submitted es))
    (ha : Act cfg es jn g c g' c') : Tidy cfg es g' c' where
  ok := h.ok.act ha
  load := h.load.act h.ok ha
  totals := h.totals.act h.ok (h.load.noneTooLarge hm.fits) ha
  capped := h.capped.act h.ok h.load h.totals hm ha

lemma Tidy.acts (h : Tidy cfg es g c) (hm : Mannered cfg (submitted es))
    (ha : Acts cfg es jn g c g' c') : Tidy cfg es g' c' :=
  ha.keeps (fun _ _ _ _ ha hI => hI.act hm ha) h

end Caps

/-! ## Admissions keep parked submissions out -/

section Admission

variable {g : Held K}

/-- A further table entry for a known key leaves unknown partitions unknown. -/
lemma full_insert {pk k} (hc : c'.partitions = c.partitions.insert pk p)
    (hknown : c.partitions.lookup pk ≠ none) (h : c.partitions.lookup k = none ∧ c.Full cfg) :
    c'.partitions.lookup k = none ∧ c'.Full cfg := by
  obtain ⟨hn, h1, h2⟩ := h
  have hne : k ≠ pk := by
    intro he
    rw [he] at hn
    exact hknown hn
  refine ⟨?_, h1, ?_⟩
  · rw [hc, Table.lookup_insert_if, if_neg hne]
    exact hn
  have := Table.length_le_insert c.partitions pk p
  rw [hc]
  omega

/-- **A submission that joins an item makes no room.** -/
theorem Exceeds.join {req r : SubmitReq K} (h : Exceeds cfg c r)
    (hknown : c.partitions.lookup req.part.encoded ≠ none) : Exceeds cfg (c.join req it) r := by
  have hkey : ∀ x, ((c.join req it).items x).key = (c.items x).key := fun x => view_update _ (by rfl) x
  have hpart := part_insert (show (c.join req it).partitions =
    c.partitions.insert req.part.encoded { c.part req.part.encoded with
      waiters := (c.part req.part.encoded).waiters + 1 } from rfl) r.part.encoded
  rcases h with h | ⟨hj, hl⟩
  · exact .inl (full_insert rfl hknown h)
  right
  refine ⟨?_, ?_⟩
  · rw [joinTarget_eq_none] at hj ⊢
    simp only [hkey]
    rw [hpart]
    split
    · rename_i he
      rw [he] at hj
      exact hj
    · exact hj
  rw [hpart]
  split
  · rename_i he
    rw [he] at hl
    refine overLimits_mono (p := c.part req.part.encoded) le_rfl (by dsimp only; omega) (fun d _ => ?_) hl
    cases d <;> exact le_rfl
  · exact hl

variable {req : SubmitReq K} {rest : List (SubmitReq K)} {now : Time} {pk : GoString}

/-- **A submission that is queued makes no room**, nor an item to join for a submission that was
parked although it weighs the same. -/
theorem Exceeds.enqueue {req r : SubmitReq K} (h : Exceeds cfg c r) (hm : Mannered cfg (submitted es))
    (ht : Tidy cfg es ⟨none, req :: rest⟩ c) (ht' : Tidy cfg es ⟨none, rest⟩ (c.enqueue now req))
    (hr : r ∈ submitted es) (hreq : req ∈ submitted es) (hknown : c.partitions.lookup req.part.encoded ≠ none)
    (hfits : overLimits cfg (c.part req.part.encoded) req = none) : Exceeds cfg (c.enqueue now req) r := by
  have hpart := part_enqueue c now req r.part.encoded
  have hkey : ∀ it ∈ (c.part r.part.encoded).bucket r.hash, ((c.enqueue now req).items it).key = (c.items it).key := by
    intro it hit
    rw [items_enqueue_ne (ht.ok.struct.fresh_item (PartitionState.mem_indexed.2 ⟨_, hit⟩))]
  rcases h with h | ⟨hj, hl⟩
  · exact .inl (full_insert rfl hknown h)
  right
  by_cases hpk : r.part.encoded = req.part.encoded
  · have hover : overLimits cfg ((c.enqueue now req).part r.part.encoded) r ≠ none := by
      refine overLimits_mono ?_ ?_ (fun d hpos => ?_) hl
      · rw [hpart, if_pos hpk, length_append]
        exact Nat.le_add_right _ _
      · rw [hpart, if_pos hpk]
        dsimp only
        omega
      -- both sums are below the limit plus the parked submission
      have h1 := ht.totals.exact ht.capped ht.load hm hr hpos r.part.encoded
      have h2 := ht'.totals.exact ht'.capped ht'.load hm hr hpos r.part.encoded
      have hcap := ht'.capped d r.part.encoded hpos
      rw [total_enqueue ht.ok.struct, if_pos hpk] at h2 hcap
      have h0 := ht.load.undispatched_nonneg hm.sound r.part.encoded d
      have hreq0 := (hm.sound req hreq).measure d
      have hr0 := (hm.sound r hr).measure d
      have hsum := hm.sums r hr d hpos
      rw [h1, h2, wrap64_of_lt (by omega) (by omega), wrap64_of_lt (by omega) (by omega)]
      omega
    refine ⟨?_, hover⟩
    rw [joinTarget_eq_none] at hj ⊢
    intro hd it hit heq
    rw [hpart, if_pos hpk] at hit
    rcases PartitionState.mem_bucket_insert rfl hit with hit | ⟨rfl, -⟩
    · rw [hkey it hit] at heq
      exact hj hd it hit heq
    -- the new item has an equal key: the two submissions are alike
    rw [items_enqueue_self] at heq
    obtain ⟨hw, hb⟩ := hm.alike req hreq r hr hpk.symm heq
    refine hl ?_
    rw [hpk, ← hfits]
    unfold overLimits
    rw [hw, hb]
  refine ⟨?_, ?_⟩
  · rw [joinTarget_eq_none] at hj ⊢
    intro hd it hit heq
    rw [hpart, if_neg hpk] at hit
    rw [hkey it hit] at heq
    exact hj hd it hit heq
  · rw [hpart, if_neg hpk]
    exact hl

/-! ## Submissions -/

omit es g in
lemma Parked.congr (h : Parked cfg c) (hp : c'.partitions = c.partitions) (hi : c'.items = c.items)
    (hb : ∀ r ∈ c'.blocked, r ∈ c.blocked) : Parked cfg c' :=
  fun r hr => (h r (hb r hr)).congr hp hi

/-- One parked submission more. -/
lemma Parked.snoc (h : Parked cfg c) (hreq : Exceeds cfg c req) :
    Parked cfg { c with blocked := c.blocked ++ [req] } := by
  intro r hr
  rcases mem_append.1 hr with hr | hr
  · exact (h r hr).congr rfl rfl
  · rw [mem_singleton.1 hr]
    exact hreq.congr rfl rfl

/-- **A submission leaves the parked ones where they were**, or is parked because it exceeds a limit,
too. -/
theorem handleSubmit_parked [Inhabited V] (hm : Mannered cfg (submitted es))
    (ht : Tidy cfg es ⟨none, req :: rest⟩ c) (h : Parked cfg c) : Parked cfg (c.handleSubmit cfg now req) := by
  have hreq := (ht.ok.waiter.held req (by simp)).1
  refine handleSubmit_rule (P := fun c₁ => Tidy cfg es ⟨none, req :: rest⟩ c₁ ∧ Parked cfg c₁) now ⟨ht, h⟩
    (fun _ hn hroom => ⟨?_, fun r hr => (h r hr).openPart hn hroom⟩) (fun _ _ hP _ => hP.2.congr rfl rfl fun _ hr => hr)
    (fun _ hP hex => hP.2.snoc hex) (fun it _ hknown _ r hr => (h r hr).join hknown)
    (fun c₁ hP hc hknown hj hl r hr => ?_)
  · have ha : Act cfg es anyJoin ⟨none, req :: rest⟩ c ⟨none, req :: rest⟩
      (c.setPart req.part.encoded (PartitionState.new req.part)) := Act.openPart req.part hn
    exact ht.act hm ha
  have ha : Act cfg es anyJoin ⟨none, req :: rest⟩ c₁ ⟨none, rest⟩ (c₁.enqueue now req) :=
    Act.enqueue now req rest rfl rfl hc hj hl
  have hr' := (hP.1.ok.waiter.held r (mem_append_right _ hr)).1
  exact (hP.2 r hr).enqueue hm hP.1 (hP.1.act hm ha) hr' hreq hknown hl

/-! ## No partition is kept without items -/

lemma StructOK.live_ne_zero (hS : StructOK cfg g c) (hit : it ∈ (c.part pk).indexed) : (c.part pk).live ≠ 0 := by
  have hpos := length_pos_of_mem hit
  have hlive := hS.live pk
  omega

lemma LivelyAt.congr (h : LivelyAt cfg c pk) (hp : c'.part pk = c.part pk) : LivelyAt cfg c' pk := by
  unfold LivelyAt
  rw [hp]
  exact h

lemma Lively.congr (h : Lively cfg c) (hp : c'.partitions = c.partitions) : Lively cfg c' := by
  intro pk hmem
  rw [hp] at hmem
  exact (h pk hmem).congr (congrFun (part_congr hp) pk)

/-- One partition changes, and has items afterwards. -/
lemma Lively.insert (hc : c'.partitions = c.partitions.insert pk p)
    (hrest : ∀ k ∈ c.partitions, k ≠ pk → LivelyAt cfg c k) (hlive : p.live ≠ 0) : Lively cfg c' := by
  intro k hk
  have hpart := part_insert hc k
  by_cases he : k = pk
  · left
    rw [hpart, if_pos he]
    exact hlive
  rw [hc] at hk
  rw [if_neg he] at hpart
  exact (hrest k ((AList.mem_insert _).1 hk |>.resolve_left he) he).congr hpart

/-- A partition without items is retired. -/
lemma maybeRetire_lively (hS : StructOK cfg g c) (hrest : ∀ k ∈ c.partitions, k ≠ pk → LivelyAt cfg c k) :
    Lively cfg (c.maybeRetire pk) := by
  intro k hk
  have hpart := maybeRetire_part hS pk k
  rw [maybeRetire_eq hS] at hk
  split at hk
  · rename_i hidx
    obtain ⟨hne, hk⟩ := AList.mem_erase.1 hk
    rw [if_neg fun h => hne h.1] at hpart
    exact (hrest k hk hne).congr hpart
  rename_i hidx
  rw [if_neg fun h => hidx h.2] at hpart
  by_cases he : k = pk
  · obtain ⟨it, hit⟩ := exists_mem_of_ne_nil _ hidx
    left
    rw [hpart, he]
    exact hS.live_ne_zero hit
  · exact (hrest k hk he).congr hpart

/-- **A submission leaves no empty partition behind** where partitions are limited. -/
theorem handleSubmit_lively (hS : StructOK cfg g c)
    (halone : 0 < cfg.limits.maxPartitions → overLimits cfg (PartitionState.new req.part) req = none)
    (h : Lively cfg c) : Lively cfg (c.handleSubmit cfg now req) := by
  refine handleSubmit_rule (P := fun c₁ => StructOK cfg g c₁ ∧
      (∀ k ∈ c₁.partitions, k ≠ req.part.encoded → LivelyAt cfg c₁ k) ∧
      (c₁.closing = true ∨ Exceeds cfg c₁ req → Lively cfg c₁)) now ⟨hS, fun k hk _ => h k hk, fun _ => h⟩
    (fun hc hn _ => ?_) (fun _ _ hP hor => (hP.2.2 hor).congr rfl) (fun _ hP hex => (hP.2.2 (.inr hex)).congr rfl)
    (fun it _ _ hj => ?_) (fun c₁ hP _ _ _ _ => ?_)
  · have hrest : ∀ k ∈ (c.setPart req.part.encoded (PartitionState.new req.part)).partitions, k ≠ req.part.encoded →
        LivelyAt cfg (c.setPart req.part.encoded (PartitionState.new req.part)) k := by
      intro k hk hne
      refine (h k ((AList.mem_insert _).1 hk |>.resolve_left hne)).congr ?_
      rw [part_setPart, if_neg hne]
    have hpart := part_setPart c req.part.encoded req.part.encoded (PartitionState.new req.part)
    rw [if_pos rfl] at hpart
    refine ⟨hS.openPart hn, hrest, fun hor k hk => ?_⟩
    by_cases hne : k = req.part.encoded
    · subst hne
      -- it stays empty only if the submission alone exceeds a limit
      refine .inr ⟨hpart, ?_⟩
      by_contra hpos
      rcases hor with hclosing | ⟨hnone, -⟩ | ⟨-, hl⟩
      · exact Bool.false_ne_true (hc.symm.trans hclosing)
      · exact AList.lookup_eq_none.1 hnone hk
      · rw [hpart] at hl
        exact hl (halone (by omega))
    · exact hrest k hk hne
  · exact Lively.insert rfl (fun k hk _ => h k hk)
      (hS.live_ne_zero (PartitionState.mem_indexed.2 ⟨_, (joinTarget_some hj).1⟩))
  refine Lively.insert rfl hP.2.1 ?_
  have hlive := hP.1.live req.part.encoded
  dsimp only
  omega

end Admission

/-! ## Handlers -/

section Handlers

lemma Waiting.congr (h : Waiting cfg c) (hp : c'.partitions = c.partitions) (hi : c'.items = c.items)
    (hb : ∀ r ∈ c'.blocked, r ∈ c.blocked)
    (hf : c.inflight.entries.length ≤ c'.inflight.entries.length) : Waiting cfg c' := by
  refine ⟨h.lively.congr hp, h.parked.imp (fun hfly => ?_) fun hpk => hpk.congr hp hi hb⟩
  exact lt_of_lt_of_le hfly hf

lemma handleSubmit_inflight (now : Time) (req : SubmitReq K) : (c.handleSubmit cfg now req).inflight = c.inflight :=
  handleSubmit_rule (P := fun c₁ => c₁.inflight = c.inflight) (Q := fun c₁ => c₁.inflight = c.inflight) now rfl
    (fun _ _ _ => rfl) (fun _ _ h _ => h) (fun _ h _ => h) (fun _ _ _ _ => rfl) (fun _ h _ _ _ _ => h)

section

variable [Inhabited V]

section

variable (hm : Mannered cfg (submitted es))
include hm

lemma handleSubmit_waiting {now req rest}
    (ht : Tidy cfg es ⟨none, req :: rest⟩ c) (h : Waiting cfg c) : Waiting cfg (c.handleSubmit cfg now req) := by
  have hreq := (ht.ok.waiter.held req (by simp)).1
  refine ⟨handleSubmit_lively ht.ok.struct (fun hpos => hm.alone hpos req hreq) h.lively, ?_⟩
  refine h.parked.imp (fun hfly => ?_) fun hp => handleSubmit_parked hm ht hp
  unfold InFlight
  rw [handleSubmit_inflight]
  exact hfly

/-- Processing a list of submissions again. -/
lemma retry_waiting (now : WaiterId → Time) :
    ∀ (reqs : List (SubmitReq K)) (c : Coord K V E), Tidy cfg es ⟨none, reqs⟩ c → Waiting cfg c →
      Waiting cfg (reqs.foldl (fun c req => c.handleSubmit cfg (now req.waiter) req) c) := by
  intro reqs
  induction reqs with
  | nil => intro c _ h; exact h
  | cons req rest ih =>
    intro c ht h
    rw [foldl_cons]
    have ha : Acts cfg es anyJoin ⟨none, req :: rest⟩ c ⟨none, rest⟩ (c.handleSubmit cfg (now req.waiter) req) :=
      handleSubmit_acts rfl rfl (now req.waiter) fun _ _ => trivial
    exact ih _ (ht.acts hm ha) (handleSubmit_waiting hm ht h)

/-- **A completion processes every parked submission again.** -/
theorem handleComplete_waiting (ht : Tidy cfg es {} c) {done : CompleteReq V E} (hdone : done ∈ completed es)
    (now : WaiterId → Time) (h : Waiting cfg c) : Waiting cfg (c.handleComplete cfg now done) := by
  unfold handleComplete
  split
  · exact h
  rename_i b hb
  obtain ⟨f, g₁, h1, h2, heq⟩ : ∃ (f : ItemId → Result V E) (g₁ : Held K), Act cfg es anyJoin {} c g₁ _ ∧
      Acts cfg es anyJoin g₁ _ {} _ ∧ _ := settleItems_acts ht.ok rfl hdone hb
  have hacts := h1.one.trans h2
  have hfr := settleFrame f b.partition b.items (c.land done.batchID) ht.ok.nodup
  rw [heq]
  set c₂ := b.items.foldl (fun c it => (c.deliverAll it (f it)).dropItem b.partition it) (c.land done.batchID) with hc₂
  have ht₂ : Tidy cfg es {} c₂ := ht.acts hm hacts
  -- the other partitions are as they were, and that of the batch retires if it is empty
  have hlively : Lively cfg (c₂.maybeRetire b.partition) := by
    refine maybeRetire_lively ht₂.ok.struct fun k hk hne => ?_
    exact (h.lively k (hfr.mem k hne hk)).congr (hfr.part k hne)
  have hretire : SchedActs cfg {} c₂ {} (c₂.maybeRetire b.partition) := maybeRetire_acts rfl b.partition
  have hacts₃ : Acts cfg es anyJoin {} c₂ {} (c₂.maybeRetire b.partition) := hretire.acts
  set c₃ := c₂.maybeRetire b.partition with hc₃
  have ht₃ : Tidy cfg es {} c₃ := ht₂.acts hm hacts₃
  have hun : Act cfg es anyJoin {} c₃ ⟨none, c₃.blocked⟩ { c₃ with blocked := [] } := Act.unpark rfl
  refine retry_waiting hm now c₃.blocked _ (ht₃.act hm hun) ⟨hlively.congr rfl, .inr ?_⟩
  exact nofun

end

/-- A cancellation of an admitted caller is harmless while a batch is in flight, or nothing is
parked. -/
lemma handleCancel_waiting (hok : CoordOK cfg es {} c) {cr} (hcr : cr ∈ cancellations es)
    (hq : cr.blocked = false → c.active cr.waiterID = true → c.InFlight ∨ c.blocked = [])
    (h : Waiting cfg c) : Waiting cfg (c.handleCancel cr) := by
  have hdone : ∀ c' : Coord K V E, c.InFlight ∨ c.blocked = [] → c'.blocked = c.blocked →
      c.inflight.entries.length ≤ c'.inflight.entries.length → c'.InFlight ∨ Parked cfg c' := by
    intro c' hor hb hf
    refine hor.imp (fun hfly => lt_of_lt_of_le hfly hf) fun hnil r hr => ?_
    rw [hb, hnil] at hr
    cases hr
  have hleave : ∀ {it}, Finds c cr it → Lively cfg (c.cancelWaiter cr.part it cr.waiterID) := fun hf =>
    Lively.insert rfl (fun k hk _ => h.lively k hk) (hok.struct.live_ne_zero hf.indexed)
  refine handleCancel_rule (fun _ => h.congr rfl rfl (fun r hr => mem_of_mem_eraseP hr) le_rfl) (fun _ => h)
    (fun it hf hone hd => ?_) (fun it hf hone hd => ?_)
    (fun it hf _ => ⟨hleave hf, hdone _ (hq hf.blocked hf.active) rfl le_rfl⟩)
  · have ha : Act cfg es anyJoin {} c {} ((c.cancelWaiter cr.part it cr.waiterID).unqueue cr.part it) :=
      Act.cancelDrop cr.part it cr.waiterID rfl ⟨⟨cr, hcr, rfl, hf.blocked⟩, hf.indexed, hf.waits, hf.active⟩ hone hd
    have hS := (hok.act ha).struct
    unfold removePendingItem
    refine ⟨maybeRetire_lively hS fun k hk hne => ?_, ?_⟩
    · refine (hleave hf k ((AList.mem_insert _).1 hk |>.resolve_left hne)).congr ?_
      exact (part_insert rfl k).trans (if_neg hne)
    · rw [maybeRetire_eq hS]
      exact hdone _ (hq hf.blocked hf.active) rfl le_rfl
  obtain ⟨b, hlb, -, -⟩ := hok.struct.flight_of_dispatched rfl hf.indexed hd
  rw [cancelFlight_eq hlb]
  exact ⟨(hleave hf).congr rfl, hdone _ (hq hf.blocked hf.active) rfl (Table.length_le_insert _ _ _)⟩

/-- The engine's context is done: no queue changes, and no batch leaves. -/
lemma handleEngineCancel_waiting (h : Waiting cfg c) : Waiting cfg c.handleEngineCancel := by
  let view := fun c : Coord K V E => (c.partitions, c.items, c.blocked, c.inflight.entries.length)
  have hdeliver : ∀ (c : Coord K V E) it r, view (c.deliverAll it r) = view c := by
    intro c it r
    refine foldl_view view (fun c w => ?_) _ c
    unfold deliver
    split <;> rfl
  have hcancel : ∀ (c : Coord K V E) id, view (c.cancelBatch id) = view c := by
    intro c id
    cases hb : c.inflight.lookup id with
    | none => rw [cancelBatch_none hb]
    | some b =>
      rw [cancelBatch_some hb]
      show (_, _, _, (c.inflight.insert id _).entries.length) = _
      rw [Table.length_replace hb]
  have hview : view c.handleEngineCancel = view c := by
    unfold handleEngineCancel
    rw [failBarriers_eq]
    refine (foldl_view view hcancel _ _).trans ?_
    exact foldl_view view (fun c it => hdeliver c it _) _ { c with closing := true }
  refine h.congr (congrArg (·.1) hview) (congrArg (·.2.1) hview) (fun r hr => ?_) ?_
  · rw [show c.handleEngineCancel.blocked = c.blocked from congrArg (·.2.2.1) hview] at hr
    exact hr
  · exact (congrArg (·.2.2.2) hview).ge

end

/-! ## `schedule` -/

/-- The queue a handler holds is the whole queue of a partition, and not empty. -/
def Held.Whole (g : Held K) (c : Coord K V E) : Prop :=
  ∀ pk l, g.queue = some (pk, l) → l.Perm (c.part pk).pending ∧ l ≠ []

/-- A queue is written back in another order. -/
lemma Exceeds.release (h : Exceeds cfg c r) {l}
    (hknown : c.partitions.lookup pk ≠ none) (hlen : l.length = (c.part pk).pending.length) :
    Exceeds cfg (c.setPart pk { c.part pk with pending := l }) r := by
  have hpart := part_setPart c pk r.part.encoded { c.part pk with pending := l }
  rcases h with h | ⟨hj, hl⟩
  · exact .inl (full_insert rfl hknown h)
  right
  refine ⟨?_, ?_⟩
  · rw [joinTarget_eq_none] at hj ⊢
    rw [hpart]
    split
    · rename_i he
      rw [he] at hj
      exact hj
    · exact hj
  rw [hpart]
  split
  · rename_i he
    rw [he] at hl
    refine overLimits_mono hlen.ge le_rfl (fun d _ => ?_) hl
    cases d <;> exact le_rfl
  · exact hl

/-- An empty partition is retired: only where partitions are not limited. -/
lemma Exceeds.retire (h : Exceeds cfg c r)
    (hnew : c.part pk = PartitionState.new ⟨pk⟩) (hno : cfg.limits.maxPartitions ≤ 0)
    (hc : c'.partitions = c.partitions.erase pk) (hi : c'.items = c.items) : Exceeds cfg c' r := by
  have hpart : ∀ k, c'.part k = c.part k := by
    intro k
    rw [part_erase hc]
    split
    · rename_i he
      rw [he, hnew]
    · rfl
  rcases h with ⟨-, hpos, -⟩ | ⟨hj, hl⟩
  · exact absurd hpos (by omega)
  right
  rw [hpart]
  refine ⟨?_, hl⟩
  rw [joinTarget_eq_none] at hj ⊢
  rw [hpart, hi]
  exact hj

variable [Inhabited V]

/-- **A step of `schedule` starts a batch or makes no room.** -/
theorem SchedAct.waiting (hfit : NoneTooLarge cfg c) (hS : StructOK cfg g c) (hw : g.Whole c)
    (ha : SchedAct cfg g c g' c') (h : Waiting cfg c) : Waiting cfg c' ∧ g'.Whole c' := by
  cases ha with
  | quiet hq =>
    refine ⟨h.congr hq.partitions hq.items (fun r hr => by rw [← hq.blocked]; exact hr)
      (by rw [hq.inflight]), fun pk l hg => ?_⟩
    rw [part_congr hq.partitions]
    exact hw pk l hg
  | hold pk hg hne =>
    refine ⟨h, fun k l hk => ?_⟩
    obtain ⟨rfl, rfl⟩ : pk = k ∧ (c.part pk).pending = l := by
      simpa only [Option.some.injEq, Prod.mk.injEq] using hk
    exact ⟨Perm.refl _, hne⟩
  | release pk l l' hg hl hp =>
    obtain ⟨hperm, hne⟩ := hw pk l hg
    obtain ⟨it, hit⟩ := exists_mem_of_ne_nil _ hne
    have hin := hS.held_indexed hg hit
    have hknown : c.partitions.lookup pk ≠ none :=
      Option.isSome_iff_ne_none.1 (AList.lookup_isSome.2 (mem_partitions_of_indexed hin))
    have hlen : l'.length = (c.part pk).pending.length := hl.symm.length_eq.trans hperm.length_eq
    refine ⟨⟨Lively.insert rfl (fun k hk _ => h.lively k hk) (hS.live_ne_zero hin),
      h.parked.imp (fun hf => hf) fun hp r hr => (hp r hr).release hknown hlen⟩, ?_⟩
    intro k l hk
    cases hk
  | tooLarge pk l l' it hg hl hit hbig =>
    rw [hfit pk it (hS.held_indexed hg (hl.mem_iff.2 (mem_cons_self ..)))] at hbig
    cases hbig
  | dispatch pk l reason a hg hs hne hl hslot hch =>
    obtain ⟨it, hit⟩ := exists_mem_of_ne_nil _ hne
    have hin := hS.held_indexed hg (hs.perm.mem_iff.2 (mem_append_left _ hit))
    rw [dispatch_eq]
    refine ⟨⟨Lively.insert rfl (fun k hk _ => h.lively k hk) (hS.live_ne_zero hin), .inl ?_⟩, ?_⟩
    · show 0 < (c.inflight.insert _ _).entries.length
      rw [AList.entries_insert]
      exact Nat.succ_pos _
    · intro k l hk
      cases hk
  | retire pk hg hlive hent =>
    refine ⟨?_, fun k l hk => by rw [hg] at hk; cases hk⟩
    rw [hS.enc]
    by_cases hmem : pk ∈ c.partitions
    · -- without items it has just been opened, and partitions are not limited
      obtain ⟨hnew, hno⟩ := (h.lively pk hmem).resolve_left fun hne => hne hlive
      refine ⟨fun k hk => ?_, h.parked.imp (fun hf => hf) fun hp r hr => (hp r hr).retire hnew hno rfl rfl⟩
      obtain ⟨hne, hk⟩ := AList.mem_erase.1 hk
      refine (h.lively k hk).congr ?_
      rw [part_erase rfl, if_neg hne]
    · rw [Table.erase_of_lookup_none (AList.lookup_eq_none.2 hmem)]
      exact h

lemma SchedActs.waiting (hm : Mannered cfg (submitted es)) (ht : Tidy cfg es {} c)
    (ha : SchedActs cfg {} c {} c') (h : Waiting cfg c) : Waiting cfg c' := by
  have hkeep := ha.keeps (I := fun g c => Tidy cfg es g c ∧ Waiting cfg c ∧ g.Whole c) ?_ ⟨ht, h, nofun⟩
  · exact hkeep.2.1
  rintro g c g' c' hact ⟨ht, hI⟩
  have hact' : Act cfg es anyJoin g c g' c' := Act.sched hact
  exact ⟨ht.act hm hact', hact.waiting (ht.load.noneTooLarge hm.fits) ht.ok.struct hI.2 hI.1⟩

lemma finishTurn_waiting (hm : Mannered cfg (submitted es)) (ht : Tidy cfg es {} c) (now : Time)
    (ctxErr : CtxErrs E) (h : Waiting cfg c) : Waiting cfg (c.finishTurn cfg now ctxErr) := by
  obtain ⟨bs, out, d, heq⟩ := finishTurn_eq cfg c now ctxErr
  rw [heq]
  exact ((schedule_acts ht.ok rfl false now).waiting hm ht h).congr rfl rfl (fun _ hr => hr) le_rfl

/-! ## Moves -/

/-- What a move has to meet: a submission fits into a batch, its sums do not wrap, it alone is within
the limits where partitions are limited, and equal keys weigh the same; a caller that was admitted
leaves only while a batch is in flight, or nothing is parked. -/
def Keeps (cfg : BindingConfig K) (es : List (Move K V E)) (c : Coord K V E) : Move K V E → Prop
  | .turn ⟨.submit _ req _, _, _⟩ => ¬req.tooLarge cfg ∧
      (0 < cfg.limits.maxWeight → cfg.limits.maxWeight + req.weight < 2 ^ 63) ∧
      (0 < cfg.limits.maxBytes → cfg.limits.maxBytes + req.bytes < 2 ^ 63) ∧
      (0 < cfg.limits.maxPartitions → overLimits cfg (PartitionState.new req.part) req = none) ∧
      ∀ r ∈ submitted es, r.part.encoded = req.part.encoded →
        (cfg.keys.equal r.key req.key = true ∨ cfg.keys.equal req.key r.key = true) →
        r.weight = req.weight ∧ r.bytes = req.bytes
  | .turn ⟨.cancel cr, _, _⟩ => cr.blocked = false → c.active cr.waiterID = true → c.InFlight ∨ c.blocked = []
  | _ => True

instance [DecidableEq K] (cfg : BindingConfig K) (es : List (Move K V E)) (c : Coord K V E)
    (m : Move K V E) : Decidable (Keeps cfg es c m) :=
  match m with
  | .turn ⟨.submit _ _ _, _, _⟩ => inferInstanceAs (Decidable (_ ∧ _))
  | .turn ⟨.cancel _, _, _⟩ => inferInstanceAs (Decidable (_ → _))
  | .turn ⟨.complete _ _, _, _⟩ => inferInstanceAs (Decidable True)
  | .turn ⟨.control _ _, _, _⟩ => inferInstanceAs (Decidable True)
  | .turn ⟨.timer _, _, _⟩ => inferInstanceAs (Decidable True)
  | .turn ⟨.engine, _, _⟩ => inferInstanceAs (Decidable True)
  | .cancelEngine => inferInstanceAs (Decidable True)
  | .adapt _ => inferInstanceAs (Decidable True)
  | .clearAdaptive => inferInstanceAs (Decidable True)
  | .newRequestID => inferInstanceAs (Decidable True)

lemma handle_waiting {t} (hl : t.event.Legal cfg es c)
    (hm : Mannered cfg (submitted (es ++ [.turn t]))) (hq : Keeps cfg es c (.turn t))
    (ht' : Tidy cfg (es ++ [.turn t]) {} c) (h : Waiting cfg c) : Waiting cfg (c.handle cfg t.event) := by
  obtain ⟨event, now', ctxErr⟩ := t
  cases event with
  | submit now req dl =>
    have ha : Act cfg (es ++ [.turn ⟨.submit now req dl, now', ctxErr⟩]) anyJoin {} c
      ⟨none, [req]⟩ (c.spawn req dl) := Act.spawn req dl hl.1 (mem_filterMap_snoc rfl) rfl
    exact handleSubmit_waiting hm (ht'.act hm ha) (h.congr rfl rfl (fun _ hr => hr) le_rfl)
  | cancel cr => exact handleCancel_waiting ht'.ok (mem_filterMap_snoc rfl) hq h
  | complete now done => exact handleComplete_waiting hm ht' (mem_filterMap_snoc rfl) now h
  | control now ctrl =>
    exact ((control_scheds ht'.ok rfl (ctrl.kind = .close) now).waiting hm ht' h).congr rfl rfl (fun _ hr => hr) le_rfl
  | timer now => exact (timer_scheds ht'.ok rfl now).waiting hm ht' h
  | engine => exact handleEngineCancel_waiting h

lemma move_waiting {m} (hl : m.Legal cfg es c)
    (hm : Mannered cfg (submitted (es ++ [m]))) (hq : Keeps cfg es c m) (ht : Tidy cfg (es ++ [m]) {} c)
    (hok : CoordOK cfg es {} c) (h : Waiting cfg c) : Waiting cfg (c.move cfg m) := by
  cases m with
  | turn t =>
    have h1 := handle_waiting hl.2 hm hq ht h
    have ht₁ : Tidy cfg (es ++ [.turn t]) {} (c.handle cfg t.event) :=
      ht.acts hm (handle_acts hok hl.2 joinsOnly_true)
    show Waiting cfg (c.turn cfg t)
    rcases turn_cases cfg c t with heq | ⟨-, heq⟩
    · rw [heq]
      exact finishTurn_waiting hm ht₁ t.now t.ctxErr h1
    · rw [heq]
      exact h1.congr rfl rfl (fun _ hr => hr) le_rfl
  | _ => exact h.congr rfl rfl (fun _ hr => hr) le_rfl

end Handlers

/-! ## Runs -/

section Runs

variable [Inhabited K] [Inhabited V] {c : Coord K V E}

/-- The submissions of a run. -/
lemma reach_mannered {es} (h : ((coordinator cfg).only (Keeps cfg)).Reach es c) : Mannered cfg (submitted es) := by
  refine h.invariant (I := fun es _ => Mannered cfg (submitted es)) ?_ ?_
  · constructor <;> intros <;> contradiction
  intro es c m hr hl ih
  rw [submitted_append]
  cases hsub : m.submission with
  | none =>
    rw [Option.toList_none, append_nil]
    exact ih
  | some req =>
    have hsound : req.Sound cfg := Move.Legal.sound hl.1 hsub
    obtain ⟨now, dl, now', ctxErr, rfl⟩ := submission_eq_some hsub
    obtain ⟨hfits, hw, hb, halone, hall⟩ := hl.2
    have hlast : ∀ {r}, r ∈ submitted es ++ [req] → r ∈ submitted es ∨ r = req := by
      intro r hr
      rwa [mem_append, mem_singleton] at hr
    rw [Option.toList_some]
    refine ⟨fun r hr => ?_, fun r hr => ?_, fun r hr d hpos => ?_, fun hpos r hr => ?_, fun r hr r' hr' hpart heq => ?_⟩
    · rcases hlast hr with hr | rfl
      · exact ih.sound r hr
      · exact hsound
    · rcases hlast hr with hr | rfl
      · exact ih.fits r hr
      · exact hfits
    · rcases hlast hr with hr | rfl
      · exact ih.sums r hr d hpos
      cases d with
      | weight => exact hw hpos
      | bytes => exact hb hpos
    · rcases hlast hr with hr | rfl
      · exact ih.alone hpos r hr
      · exact halone hpos
    rcases hlast hr with h1 | rfl <;> rcases hlast hr' with h2 | rfl
    · exact ih.alike r h1 r' h2 hpart heq
    · exact hall r h1 hpart (.inl heq)
    · obtain ⟨hweight, hbytes⟩ := hall r' h2 hpart.symm (.inr heq)
      exact ⟨hweight.symm, hbytes.symm⟩
    · exact ⟨rfl, rfl⟩

lemma reach_waiting {es} (h : ((coordinator cfg).only (Keeps cfg)).Reach es c) : Tidy cfg es {} c ∧ Waiting cfg c := by
  refine h.invariant (I := fun es c => Tidy cfg es {} c ∧ Waiting cfg c) ?_ ?_
  · have hload : LoadOK [] (Coord.init : Coord K V E) := nofun
    refine ⟨⟨CoordOK.init, hload, fun d _ => by cases d <;> rfl, fun d pk hpos => hpos.le⟩, ?_, ?_⟩
    · intro pk hpk
      exact absurd hpk (AList.notMem_empty pk)
    right
    exact nofun
  intro es c m hr hl hI
  obtain ⟨ht, hw⟩ := hI
  have hm := reach_mannered (hr.step m hl)
  have ht' : Tidy cfg (es ++ [m]) {} c := ⟨ht.ok.mono m, ht.load.mono m, ht.totals, ht.capped⟩
  exact ⟨ht'.acts hm (move_acts ht.ok hl.1 joinsOnly_true), move_waiting hl.1 hm hl.2 ht' ht.ok hw⟩

omit [Inhabited K] [Inhabited V] in
/-- With nothing queued and nothing in flight no partition has items. -/
lemma live_eq_zero (hS : StructOK cfg {} c) (hfly : ¬c.InFlight)
    (hpend : (c.part pk).pending = []) : (c.part pk).live = 0 := by
  have hlive := hS.live pk
  have hlen := (hS.perm pk).length_eq
  have hflight : c.flight pk = [] := by
    have hnil : c.inflight.entries = [] := eq_nil_of_length_eq_zero (by unfold InFlight at hfly; omega)
    unfold Coord.flight Table.gather
    rw [hnil]
    rfl
  rw [Held.queueOf_none rfl, hpend, hflight] at hlen
  rw [hlen] at hlive
  exact hlive

/-- **Parked submissions are not stranded** in a run whose moves meet the condition: a batch is in
flight, or each of them exceeds a limit and would not be admitted now. If nothing is queued or in
flight, each alone exceeds a limit. -/
theorem blocked_waits {es : List (Move K V E)} {c : Coord K V E} (h : ((coordinator cfg).only (Keeps cfg)).Reach es c) :
    (c.InFlight ∨ ∀ req ∈ c.blocked, Exceeds cfg c req ∧
      ∀ now, (c.handleSubmit cfg now req).out ≠ c.out ++ [.reply req.waiter none]) ∧
    (¬c.InFlight → (∀ pk, (c.part pk).pending = []) → ∀ req ∈ c.blocked,
      overLimits cfg (PartitionState.new req.part) req ≠ none) := by
  obtain ⟨ht, hw⟩ := reach_waiting h
  refine ⟨hw.parked.imp (fun hf => hf) fun hp req hr => ⟨hp req hr, (hp req hr).refused⟩, ?_⟩
  intro hfly hpend req hr
  have hp := hw.parked.resolve_left hfly
  -- every partition of the map is empty, so it has just been opened
  have hempty : ∀ pk ∈ c.partitions, c.part pk = PartitionState.new ⟨pk⟩ ∧ cfg.limits.maxPartitions ≤ 0 :=
    fun pk hpk => (hw.lively pk hpk).resolve_left fun hne => hne (live_eq_zero ht.ok.struct hfly (hpend pk))
  rcases hp req hr with ⟨-, hpos, hfull⟩ | ⟨-, hl⟩
  · have hlen : 0 < c.partitions.entries.length := by omega
    obtain ⟨e, he⟩ := exists_mem_of_length_pos hlen
    have hmem : e.1 ∈ c.partitions := AList.lookup_isSome.1 (by rw [Table.mem_entries.1 he]; rfl)
    have hno := (hempty e.1 hmem).2
    omega
  have hnew : c.part req.part.encoded = PartitionState.new req.part := by
    by_cases hmem : req.part.encoded ∈ c.partitions
    · exact (hempty _ hmem).1
    · exact part_of_none c (AList.lookup_eq_none.2 hmem)
  rw [hnew] at hl
  exact hl

end Runs

/-- The small binding with room for one queued item. -/
def demoNarrow : BindingConfig ℕ := { demo .manual with limits := { maxItems := 1 } }

/-- The second and the third submission are parked. The first goes out; when its batch is done, one of
the parked ones is queued and the other is parked again. -/
theorem blocked_waits_demo :
    let c := (coordinator demoNarrow).run Coord.init
      [demoSubmit [1] 1 1 none, demoSubmit [1] 2 2 none, demoSubmit [1] 3 3 none, demoControl .flush 1,
        demoComplete 1 [.success 1 7]]
    ¬c.InFlight ∧ c.blocked = [demoReq [1] 3 3] ∧ ∀ req ∈ c.blocked, Exceeds demoNarrow c req := by
  intro c
  have hrun : ((coordinator demoNarrow).only (Keeps demoNarrow)).Reach _ c :=
    System.reach_of_allowed (by decide)
  have hfly : ¬c.InFlight := by decide
  exact ⟨hfly, by decide, fun req hr => ((blocked_waits hrun).1.resolve_left hfly req hr).1⟩

/-- **A caller leaves, and a submission stays parked.** There is room for one item. The second
submission is parked, then the first caller leaves: nothing is queued, nothing is in flight, and the
parked submission would be admitted. -/
theorem blocked_stranded : ∃ es : List (Move ℕ ℕ ℕ), ∃ c : Coord ℕ ℕ ℕ,
    (coordinator demoNarrow).Reach es c ∧ ¬c.InFlight ∧ (∀ e ∈ c.partitions.entries, e.2.pending = []) ∧
      c.blocked = [demoReq [1] 2 2] ∧ ¬Exceeds demoNarrow c (demoReq [1] 2 2) ∧
      (c.handleSubmit demoNarrow 0 (demoReq [1] 2 2)).out = c.out ++ [.reply 2 none] :=
  ⟨[demoSubmit [1] 1 1 none, demoSubmit [1] 2 2 none, demoCancel [1] 1 false], _,
    System.reach_of_allowed (by decide), by decide, by decide,
    by decide, by decide, by decide⟩

end BatchWeaver
