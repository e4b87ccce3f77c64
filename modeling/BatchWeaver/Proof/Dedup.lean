import BatchWeaver.Proof.Flight

/-!
# Items and the submissions they stand for

An item keeps the key, hash, weight and bytes of the submission that created it
(`LoadOK`), so whatever holds of every submission holds of every queued or dispatched item.

With deduplication on, a submission joins the item of its partition with an equal key
if there is one. The index is searched bucket by hash; equal keys hash equally, so the
bucket misses nothing:

* `keysApart_act`: no action puts two items with equal keys into one index.
* `dedup_complete`: the items of a partition have pairwise different keys in every
  reachable state, and an admitted submission waits for the only item with its key.
-/

namespace BatchWeaver

open Coord

variable {K V E : Type} {cfg : BindingConfig K} {es : List (Move K V E)}
  {jn : JoinRule K V E} {g g' : Held K} {c c' : Coord K V E}

/-- What `Do` computed from the key of a submission. -/
def SubmitReq.load (req : SubmitReq K) : UInt64 × ℤ × ℤ := (req.hash, req.weight, req.bytes)

/-- **Every item of an index stands for a submission to its partition.** -/
def LoadOK (es : List (Move K V E)) (c : Coord K V E) : Prop :=
  ∀ pk it, it ∈ (c.part pk).indexed → ∃ req ∈ submitted es, req.part.encoded = pk ∧
    (c.items it).key = req.key ∧ (c.items it).load = req.load

variable {it : ItemId}

section Loads

lemma LoadOK.mono (h : LoadOK es c) (m : Move K V E) : LoadOK (es ++ [m]) c := by
  intro pk it hit
  obtain ⟨req, h1, h2⟩ := h pk it hit
  exact ⟨req, mem_submitted_mono h1 m, h2⟩

lemma indexed_join (req : SubmitReq K) (it : ItemId) (pk : GoString) :
    ((c.join req it).part pk).indexed = (c.part pk).indexed :=
  (SamePart.insert (p := { c.part req.part.encoded with
    waiters := (c.part req.part.encoded).waiters + 1 }) ⟨rfl, rfl, rfl, rfl⟩ rfl pk).indexed

/-- The item a submission creates was in no index. -/
lemma StructOK.fresh_item (hS : StructOK cfg g c) {pk} (hit : it ∈ (c.part pk).indexed) : it ≠ c.requestSeq + 1 := by
  rintro rfl
  exact absurd (hS.range pk _ hit).2 (Nat.not_succ_le_self _)

variable [Inhabited V]

lemma LoadOK.act (h : LoadOK es c) (hok : CoordOK cfg es g c) (ha : Act cfg es jn g c g' c') : LoadOK es c' := by
  intro pk it hit
  rcases ha.still hok with hs | ⟨req, rest, x, -, -, -, -, rfl⟩ | ⟨now, req, rest, hg, -, -, rfl⟩
  · rw [hs.key, hs.load]
    exact h pk it (hs.indexed pk it hit)
  · rw [indexed_join] at hit
    have hkey : ((c.join req x).items it).key = (c.items it).key := view_update _ (by rfl) it
    have hload : ((c.join req x).items it).load = (c.items it).load := view_update _ (by rfl) it
    rw [hkey, hload]
    exact h pk it hit
  rcases mem_indexed_enqueue.1 hit with hin | ⟨rfl, rfl⟩
  · rw [items_enqueue_ne (hok.struct.fresh_item hin)]
    exact h pk it hin
  · rw [items_enqueue_self]
    exact ⟨req, (hok.waiter.held req (by rw [hg]; simp)).1, rfl, rfl, rfl⟩

end Loads

/-! ## What holds of every submission of a run -/

section Runs

variable [Inhabited K] [Inhabited V] {c : Coord K V E}

/-- What a condition on moves says about submissions holds of all of them. -/
lemma submitted_only {Q : List (Move K V E) → Coord K V E → Move K V E → Prop} {P : SubmitReq K → Prop}
    (hQ : ∀ es c m req, Q es c m → m.submission = some req → P req) (h : ((coordinator cfg).only Q).Reach es c) :
    ∀ req ∈ submitted es, P req := by
  refine h.invariant (I := fun es _ => ∀ req ∈ submitted es, P req) (by simp [submitted]) ?_
  intro es c m _ hl ih req hreq
  rw [submitted_append] at hreq
  rcases List.mem_append.1 hreq with hreq | hreq
  · exact ih req hreq
  · exact hQ es c m req hl.2 (Option.mem_toList.1 hreq)

/-- `Do` hashes the key, and neither weights nor byte estimates are negative. -/
structure SubmitReq.Sound (cfg : BindingConfig K) (req : SubmitReq K) : Prop where
  hash : req.hash = cfg.keys.hash req.key
  weight : 0 ≤ req.weight
  bytes : 0 ≤ req.bytes

variable {m : Move K V E} {req : SubmitReq K}

omit [Inhabited K] [Inhabited V] in
lemma submission_eq_some (h : m.submission = some req) :
    ∃ now dl now' ctxErr, m = .turn ⟨.submit now req dl, now', ctxErr⟩ := by
  cases m with
  | turn t =>
    obtain ⟨event, now', ctxErr⟩ := t
    cases event with
    | submit now req' dl =>
      obtain rfl : req' = req := Option.some.inj h
      exact ⟨now, dl, now', ctxErr, rfl⟩
    | _ => cases h
  | _ => cases h

omit [Inhabited K] [Inhabited V] in
lemma Move.Legal.sound (hl : m.Legal cfg es c) (hm : m.submission = some req) : req.Sound cfg := by
  obtain ⟨now, dl, now', ctxErr, rfl⟩ := submission_eq_some hm
  exact ⟨hl.2.2.1, hl.2.2.2.1, hl.2.2.2.2⟩

lemma submitted_sound (h : (coordinator cfg).Reach es c) : ∀ req ∈ submitted es, req.Sound cfg := by
  refine h.invariant (I := fun es _ => ∀ req ∈ submitted es, req.Sound cfg) (by simp [submitted]) ?_
  intro es c m _ hl ih req hreq
  rw [submitted_append] at hreq
  rcases List.mem_append.1 hreq with hreq | hreq
  · exact ih req hreq
  · exact Move.Legal.sound hl (Option.mem_toList.1 hreq)

lemma reach_loads (h : (coordinator cfg).Reach es c) : LoadOK es c :=
  reach_always (J := fun es _ c => LoadOK es c) nofun
    (fun _ m _ _ h => h.mono m) (fun _ _ _ _ _ hok ha h => h.act hok ha) h

end Runs

/-! ## Deduplication -/

/-- No two items of an index have equal keys. -/
def KeysApart (cfg : BindingConfig K) (c : Coord K V E) : Prop :=
  ∀ pk it it', it ∈ (c.part pk).indexed → it' ∈ (c.part pk).indexed →
    cfg.keys.equal (c.items it).key (c.items it').key = true → it = it'

/-- The item of the submission's partition with an equal key, and the only one. -/
structure ItemOf (cfg : BindingConfig K) (c : Coord K V E) (req : SubmitReq K) (it : ItemId) : Prop where
  indexed : it ∈ (c.part req.part.encoded).indexed
  equal : cfg.keys.equal (c.items it).key req.key = true
  only : ∀ x ∈ (c.part req.part.encoded).indexed, cfg.keys.equal (c.items x).key req.key = true → x = it

section Dedup

variable {req : SubmitReq K}

section

variable (hk : cfg.keys.Lawful)
include hk

section

variable (hd : cfg.dedupEnabled = true)
include hd

/-- **The search of one bucket is enough**: equal keys hash equally. -/
theorem equal_of_joinTarget_none (hS : StructOK cfg g c) (hL : LoadOK es c)
    (hs : ∀ req ∈ submitted es, req.Sound cfg) (hreq : req ∈ submitted es) (hj : c.joinTarget cfg req = none)
    {it : ItemId} (hit : it ∈ (c.part req.part.encoded).indexed) : cfg.keys.equal (c.items it).key req.key = false := by
  by_contra heq
  rw [Bool.not_eq_false] at heq
  obtain ⟨r, hr, -, hkey, hload⟩ := hL _ it hit
  have hhash : (c.items it).hash = req.hash := by
    have h1 : (c.items it).hash = r.hash := congrArg Prod.fst hload
    rw [h1, (hs r hr).hash, ← hkey, hk.hash _ _ heq, ← (hs req hreq).hash]
  have hbk := hS.mem_bucket hit
  rw [hhash] at hbk
  unfold joinTarget at hj
  rw [if_pos hd, List.find?_eq_none] at hj
  exact hj it hbk heq

section

variable (hs : ∀ req ∈ submitted es, req.Sound cfg)
include hs

variable [Inhabited V]

lemma keysApart_act (hL : LoadOK es c) (h : KeysApart cfg c) (hok : CoordOK cfg es g c)
    (ha : Act cfg es jn g c g' c') : KeysApart cfg c' := by
  intro pk it it' hit hit' heq
  rcases ha.still hok with hs' | ⟨req, rest, x, -, -, -, -, rfl⟩ | ⟨now, req, rest, hg, -, hj, rfl⟩
  · rw [hs'.key, hs'.key] at heq
    exact h pk it it' (hs'.indexed pk it hit) (hs'.indexed pk it' hit') heq
  · rw [indexed_join] at hit hit'
    have hkey : ∀ y, ((c.join req x).items y).key = (c.items y).key := view_update _ (by rfl)
    rw [hkey, hkey] at heq
    exact h pk it it' hit hit' heq
  -- the new item differs from all that were there, or it would have been joined
  have hreq := (hok.waiter.held req (by rw [hg]; simp)).1
  have hnew : ∀ y ∈ (c.part req.part.encoded).indexed, cfg.keys.equal (c.items y).key req.key = false :=
    fun y hy => equal_of_joinTarget_none hk hd hok.struct hL hs hreq hj.1 hy
  have hold : ∀ y, y ∈ (c.part pk).indexed → (c.enqueue now req).items y = c.items y :=
    fun y hy => items_enqueue_ne (hok.struct.fresh_item hy)
  rcases mem_indexed_enqueue.1 hit with h1 | ⟨rfl, rfl⟩ <;>
    rcases mem_indexed_enqueue.1 hit' with h2 | ⟨rfl, h2⟩
  · rw [hold it h1, hold it' h2] at heq
    exact h pk it it' h1 h2 heq
  · subst h2
    rw [hold it h1, items_enqueue_self] at heq
    rw [hnew it h1] at heq
    cases heq
  · rw [hold it' h2, items_enqueue_self] at heq
    have := hk.symm _ _ heq
    rw [hnew it' h2] at this
    cases this
  · rfl

lemma apart_acts (ha : Acts cfg es jn g c g' c') (h : CoordOK cfg es g c ∧ LoadOK es c ∧ KeysApart cfg c) :
    CoordOK cfg es g' c' ∧ LoadOK es c' ∧ KeysApart cfg c' :=
  ha.keeps (I := fun g c => CoordOK cfg es g c ∧ LoadOK es c ∧ KeysApart cfg c) (fun _ _ _ _ ha hI =>
      ⟨hI.1.act ha, hI.2.1.act hI.1 ha, keysApart_act hk hd hs hI.2.1 hI.2.2 hI.1 ha⟩) h

end

end

lemma ItemOf.of_apart (h : KeysApart cfg c) (hit : it ∈ (c.part req.part.encoded).indexed)
    (heq : cfg.keys.equal (c.items it).key req.key = true) : ItemOf cfg c req it :=
  ⟨hit, heq, fun x hx hxe => h _ x it hx hit (hk.trans _ _ _ hxe (hk.symm _ _ heq))⟩

end

/-- What `handleSubmit` did when it admitted: the submission joined an item, or it is a new one. -/
lemma handleSubmit_admitted {now} (h : (c.handleSubmit cfg now req).out = c.out ++ [.reply req.waiter none]) :
    (∃ it, c.joinTarget cfg req = some it ∧ c.handleSubmit cfg now req = c.join req it) ∨
      ∃ c₁ : Coord K V E, c₁.requestSeq = c.requestSeq ∧ c.handleSubmit cfg now req = c₁.enqueue now req := by
  refine handleSubmit_rule (P := fun c₁ => c₁.out = c.out ∧ c₁.requestSeq = c.requestSeq)
    (Q := fun c' => c'.out = c.out ++ [.reply req.waiter none] →
      (∃ it, c.joinTarget cfg req = some it ∧ c' = c.join req it) ∨
        ∃ c₁ : Coord K V E, c₁.requestSeq = c.requestSeq ∧ c' = c₁.enqueue now req) now ⟨rfl, rfl⟩
    (fun _ _ _ => ⟨rfl, rfl⟩) (fun c₁ err hP _ hout => ?_) (fun c₁ hP _ hout => ?_)
    (fun it _ _ hit _ => .inl ⟨it, hit, rfl⟩) (fun c₁ hP _ _ _ _ _ => .inr ⟨c₁, hP.2, rfl⟩) h
  · rw [← hP.1] at hout
    simp [emit] at hout
  · rw [← hP.1] at hout
    simp at hout

end Dedup

section Main

variable [Inhabited K] [Inhabited V]

lemma reach_apart (hk : cfg.keys.Lawful) (hd : cfg.dedupEnabled = true) {es}
    {c : Coord K V E} (h : (coordinator cfg).Reach es c) : KeysApart cfg c := by
  refine h.invariant (I := fun _ c => KeysApart cfg c) (fun _ _ _ h => by cases h) ?_
  intro es c m hr hl hA
  exact (apart_acts hk hd (submitted_sound (hr.step m hl)) (move_acts (reach_ok hr) hl joinsOnly_true)
    ⟨(reach_ok hr).mono m, (reach_loads hr).mono m, hA⟩).2.2

/-- **In-flight deduplication is complete.** No two items of an index have equal keys, so none
that are queued or in flight do; and an admitted submission waits for the only item of its
partition with its key, which it created or which was there. -/
theorem dedup_complete (hk : cfg.keys.Lawful) (hd : cfg.dedupEnabled = true)
    {es : List (Move K V E)} {c : Coord K V E} (h : (coordinator cfg).Reach es c) :
    (∀ pk it it', it ∈ (c.part pk).indexed → it' ∈ (c.part pk).indexed →
      cfg.keys.equal (c.items it).key (c.items it').key = true → it = it') ∧
    (∀ pk it it', it ∈ (c.part pk).pending ++ c.flight pk → it' ∈ (c.part pk).pending ++ c.flight pk →
      cfg.keys.equal (c.items it).key (c.items it').key = true → it = it') ∧
    ∀ m, m.Legal cfg es c → ∀ x ∈ submitCalls cfg c m, ∀ now,
      (x.1.handleSubmit cfg now x.2).out = x.1.out ++ [.reply x.2.waiter none] →
      ∃ it, ItemOf cfg (x.1.handleSubmit cfg now x.2) x.2 it ∧
        x.2.waiter ∈ ((x.1.handleSubmit cfg now x.2).items it).waiters ∧
        ((∀ pk, it ∉ (x.1.part pk).indexed) ∨ ItemOf cfg x.1 x.2 it) := by
  have hok := reach_ok h
  have hapart := reach_apart hk hd h
  refine ⟨hapart, fun pk it it' hit hit' => ?_, ?_⟩
  · have hperm := hok.struct.perm pk
    rw [Held.queueOf_none rfl] at hperm
    exact hapart pk it it' (hperm.mem_iff.2 hit) (hperm.mem_iff.2 hit')
  intro m hl x hx now hout
  have hs := submitted_sound (reach_move h hl)
  obtain ⟨g, hg, ⟨rest, hr⟩, hacts⟩ := submitCalls_acts hok hl joinsOnly_true x hx
  have hI₁ := apart_acts hk hd hs hacts ⟨hok.mono m, (reach_loads h).mono m, hapart⟩
  have hsub : Acts cfg (es ++ [m]) anyJoin g x.1 { g with reqs := rest }
      (x.1.handleSubmit cfg now x.2) := handleSubmit_acts hg hr now fun _ _ => trivial
  have hA₂ := (apart_acts hk hd hs hsub hI₁).2.2
  obtain ⟨hok₁, -, hA₁⟩ := hI₁
  rcases handleSubmit_admitted hout with ⟨it, hj, heq⟩ | ⟨c₁, hseq, heq⟩
  · rw [heq] at hA₂ ⊢
    obtain ⟨hbk, hequal⟩ := joinTarget_some hj
    have hin : it ∈ (x.1.part x.2.part.encoded).indexed := PartitionState.mem_indexed.2 ⟨_, hbk⟩
    refine ⟨it, ItemOf.of_apart hk hA₂ (by rw [indexed_join]; exact hin) ?_, ?_,
      .inr (ItemOf.of_apart hk hA₁ hin hequal)⟩
    · rw [items_join_self]; exact hequal
    · rw [items_join_self]; simp
  rw [heq] at hA₂ ⊢
  refine ⟨c₁.requestSeq + 1, ItemOf.of_apart hk hA₂ ?_ ?_, ?_, .inl fun pk hin => ?_⟩
  · exact mem_indexed_enqueue.2 (.inr ⟨rfl, rfl⟩)
  · rw [items_enqueue_self]; exact hk.refl _
  · rw [items_enqueue_self]; simp
  · rw [hseq] at hin
    exact hok₁.struct.fresh_item hin rfl

set_option maxRecDepth 4000 in
/-- Keys 1 and 9 share a bucket; each was submitted twice, once after a flush. -/
theorem dedup_complete_demo :
    let c := demoRun .manual [demoSubmit [1] 1 1 none, demoSubmit [1] 9 2 none,
      demoSubmit [1] 9 3 none, demoControl .flush 1, demoSubmit [1] 1 4 none]
    ∀ pk it it', it ∈ (c.part pk).indexed → it' ∈ (c.part pk).indexed →
      demoKeys.equal (c.items it).key (c.items it').key = true → it = it' :=
  (dedup_complete demoKeys_lawful rfl (System.reach_of_allowed (by decide +kernel))).1

end Main

end BatchWeaver
