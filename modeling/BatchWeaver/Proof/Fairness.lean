import BatchWeaver.Spec.Fairness

/-!
# What the calls of the fair scheduler change

Every call but `Next` changes one class (`step_state`), `Next` changes deficits only (`next_spec`), and no
call changes a policy (`after_policy`). Then, over every run of `Admit`, `Next`, `Serve` and `Complete`:

* `next_backlogged`: whatever the discipline, `Next` returns only a class with a backlog.
* `quotas_hold`: the bound on queued items is kept by every run. The bounds on active items, which only
  `Serve` approaches and nobody checks, are kept as long as `Next` is called only while no class with a
  backlog is at its active limit.
* `active_limit_ignored`: without that, a class at its limit is returned and served.
-/

namespace BatchWeaver.Adaptive

open List FairScheduler

section

variable {F : Type} [IntCast F] {s s' : FairScheduler F}

/-! ## What each call changes -/

lemma state_set (s : FairScheduler F) (name c : GoString) (cs : ClassState F) :
    (s.set name cs).state c = if c = name then cs else s.state c := by
  unfold state FairScheduler.set
  rw [Table.lookup_insert_if]
  split <;> rfl

/-- Creating a class changes no class: it was as new before. -/
lemma state_classFor (s : FairScheduler F) (name c : GoString) : (s.classFor name).state c = s.state c := by
  unfold classFor
  split
  · rfl
  rename_i hnone
  have hname : s.classes.lookup name = none := by simpa using hnone
  have hset := state_set s name c (newClass name)
  rw [show state { s.set name (newClass name) with order := sortStrings (s.order ++ [name]) } c =
    (s.set name (newClass name)).state c from rfl, hset]
  split
  · rename_i hc
    rw [hc, state, hname]
    rfl
  · rfl

variable {name : GoString}

/-- A class with a backlog was seen before. -/
lemma lookup_of_queued (h : 0 < (s.state name).queued) : (s.classes.lookup name).isSome = true := by
  cases hname : s.classes.lookup name with
  | some cs => rfl
  | none =>
    rw [state, hname] at h
    exact absurd h (Nat.lt_irrefl 0)

/-- Only deficits, and where the round robin stands, differ. -/
structure Same (s s' : FairScheduler F) : Prop where
  state : ∀ c, ∃ d, s'.state c = { s.state c with deficit := d }
  order : s'.order = s.order
  cfg : s'.cfg = s.cfg
  known : ∀ c, (s'.classes.lookup c).isSome = true → (s.classes.lookup c).isSome = true

lemma Same.refl (s : FairScheduler F) : Same s s := ⟨fun c => ⟨(s.state c).deficit, rfl⟩, rfl, rfl, fun _ h => h⟩

lemma Same.trans {t} (h : Same s s') (h' : Same s' t) : Same s t := by
  refine ⟨fun c => ?_, h'.order.trans h.order, h'.cfg.trans h.cfg, fun c hc => h.known c (h'.known c hc)⟩
  obtain ⟨d, hd⟩ := h.state c
  obtain ⟨d', hd'⟩ := h'.state c
  exact ⟨d', by rw [hd', hd]⟩

lemma Same.queued (h : Same s s') (c : GoString) : (s'.state c).queued = (s.state c).queued := by
  obtain ⟨d, hd⟩ := h.state c
  rw [hd]

lemma state_replenish (s : FairScheduler F) (name c : GoString) : (s.replenish name).state c =
    if c = name then { s.state c with deficit := wrap64 ((s.state c).deficit + (s.state c).policy.weight) }
    else s.state c := by
  unfold replenish
  rw [state_set]
  split
  · rename_i hc
    rw [hc]
  · rfl

lemma same_replenish (h : 0 < (s.state name).queued) : Same s (s.replenish name) := by
  refine ⟨fun c => ?_, rfl, rfl, fun c hc => ?_⟩
  · rw [state_replenish]
    split <;> exact ⟨_, rfl⟩
  simp only [replenish, FairScheduler.set, Table.lookup_insert_if] at hc
  split at hc
  · rename_i hname
    rw [hname]
    exact lookup_of_queued h
  · exact hc

lemma same_advance (s : FairScheduler F) (idx : ℕ) : Same s (s.advance idx) :=
  ⟨(Same.refl s).state, rfl, rfl, fun _ h => h⟩

lemma same_replenishAll (s : FairScheduler F) (names : List GoString) : Same s (replenishAll s names) := by
  induction names generalizing s with
  | nil => exact Same.refl s
  | cons name names ih =>
    unfold replenishAll
    split
    · rename_i hqueued
      exact (same_replenish hqueued).trans (ih _)
    · exact ih s

/-- Every class that was seen has its place in the order. -/
def Indexed (s : FairScheduler F) : Prop := ∀ c, (s.classes.lookup c).isSome = true → c ∈ s.order

/-- A call keeps the configuration and the classes, and may see a class for the first time. -/
structure Grows (s s' : FairScheduler F) : Prop where
  cfg : s'.cfg = s.cfg
  order : s.order ⊆ s'.order
  indexed : Indexed s → Indexed s'

lemma Same.grows (h : Same s s') : Grows s s' :=
  ⟨h.cfg, fun _ hc => h.order.symm ▸ hc, fun hin c hc => h.order.symm ▸ hin c (h.known c hc)⟩

lemma grows_set (s : FairScheduler F) (name : GoString) (cs : ClassState F) :
    Grows s ((s.classFor name).set name cs) := by
  have hlook : ∀ (t : FairScheduler F) (cs : ClassState F) (c : GoString),
      ((t.set name cs).classes.lookup c).isSome = true → c = name ∨ (t.classes.lookup c).isSome = true := by
    intro t cs c hc
    rw [FairScheduler.set, Table.lookup_insert_if] at hc
    split at hc
    · exact .inl ‹_›
    · exact .inr hc
  unfold classFor
  split
  · rename_i hname
    refine ⟨rfl, fun c hc => hc, fun hin c hc => ?_⟩
    rcases hlook s cs c hc with rfl | hc
    · exact hin c hname
    · exact hin c hc
  refine ⟨rfl, fun c hc => mem_sortStrings.2 (mem_append_left _ hc), fun hin c hc => mem_sortStrings.2 ?_⟩
  rcases hlook _ cs c hc with rfl | hc
  · exact mem_append_right _ (mem_singleton_self _)
  rcases hlook s (newClass name) c hc with rfl | hc
  · exact mem_append_right _ (mem_singleton_self _)
  · exact mem_append_left _ (hin c hc)

/-! ## `Next` returns a class with a backlog -/

lemma deficitRound_spec (s : FairScheduler F) (is : List ℕ) : Same s (deficitRound s is).1 ∧
    ∀ c, (deficitRound s is).2 = some c → 0 < (s.state c).queued := by
  induction is generalizing s with
  | nil => exact ⟨Same.refl s, nofun⟩
  | cons i is ih =>
    simp only [deficitRound]
    split
    · exact ih s
    rename_i hqueued
    split
    · obtain ⟨hsame, hpick⟩ := ih (s.replenish (s.order.getD (s.turn i) []))
      have hfill := same_replenish (Nat.pos_of_ne_zero hqueued)
      refine ⟨hfill.trans hsame, fun c hc => ?_⟩
      rw [← hfill.queued c]
      exact hpick c hc
    refine ⟨same_advance s _, fun c hc => ?_⟩
    cases hc
    exact Nat.pos_of_ne_zero hqueued

lemma deficitRetry_spec (s : FairScheduler F) (is : List ℕ) : Same s (deficitRetry s is).1 ∧
    ∀ c, (deficitRetry s is).2 = some c → 0 < (s.state c).queued := by
  induction is with
  | nil => exact ⟨Same.refl s, nofun⟩
  | cons i is ih =>
    simp only [deficitRetry]
    split
    · rename_i hready
      refine ⟨same_advance s _, fun c hc => ?_⟩
      cases hc
      exact hready.1
    · exact ih

lemma deficitPick_spec (s : FairScheduler F) : Same s s.deficitPick.1 ∧
    ∀ c, s.deficitPick.2 = some c → 0 < (s.state c).queued := by
  have hround := deficitRound_spec s (List.range s.order.length)
  unfold deficitPick
  generalize deficitRound s (List.range s.order.length) = round at hround ⊢
  obtain ⟨s', pick⟩ := round
  cases pick with
  | some name => exact hround
  | none =>
    have hfill := hround.1.trans (same_replenishAll s' s'.order)
    obtain ⟨hsame, hpick⟩ := deficitRetry_spec (replenishAll s' s'.order) (List.range s'.order.length)
    refine ⟨hfill.trans hsame, fun c hc => ?_⟩
    rw [← hfill.queued c]
    exact hpick c hc

lemma picked_eq_some {c} (h : picked name = some c) : name = c ∧ name ≠ [] := by
  unfold picked at h
  split at h
  · cases h
  · rename_i hne
    exact ⟨Option.some.inj h, hne⟩

end

section

variable {F : Type} [IntCast F] [Sub F] [Div F] [LT F] [LE F] [DecidableLT F] [DecidableLE F]
  {c : GoString}

variable (s : FairScheduler F)

omit [Sub F] [Div F] [LT F] [LE F] [DecidableLT F] [DecidableLE F] in
/-- A pick whose loop only takes names of classes with a backlog. -/
lemma pick_backlogged {α : Type} {step : GoString × α → GoString → GoString × α} {a : α}
    (hstep : ∀ best name, step best name = best ∨ (step best name).1 = name ∧ 0 < (s.state name).queued)
    (h : picked (s.order.foldl step ([], a)).1 = some c) : 0 < (s.state c).queued := by
  have hfold : (s.order.foldl step ([], a)).1 = [] ∨ 0 < (s.state (s.order.foldl step ([], a)).1).queued := by
    refine foldlRecOn (motive := fun best : GoString × α => best.1 = [] ∨ 0 < (s.state best.1).queued) s.order _
      (.inl rfl) fun best hbest name _ => ?_
    rcases hstep best name with hkept | ⟨hname, hqueued⟩
    · rw [hkept]
      exact hbest
    · rw [hname]
      exact .inr hqueued
  obtain ⟨hc, hne⟩ := picked_eq_some h
  rw [← hc]
  exact hfold.resolve_left hne

omit [Sub F] [LE F] [DecidableLE F] in
lemma weightedPick_backlogged (h : s.weightedPick = some c) : 0 < (s.state c).queued := by
  refine pick_backlogged s (fun best name => ?_) h
  simp only [weightedStep]
  split
  · exact .inl rfl
  rename_i hqueued
  split
  · exact .inr ⟨rfl, Nat.pos_of_ne_zero hqueued⟩
  split
  · exact .inr ⟨rfl, Nat.pos_of_ne_zero hqueued⟩
  · exact .inl rfl

lemma reservedPick_backlogged (h : s.reservedPick = some c) : 0 < (s.state c).queued := by
  refine pick_backlogged s (fun best name => ?_) h
  simp only [reservedStep]
  split
  · exact .inl rfl
  rename_i hskip
  have hqueued : 0 < (s.state name).queued := Nat.pos_of_ne_zero fun h => hskip (.inl h)
  repeat' split
  all_goals first | exact .inr ⟨rfl, hqueued⟩ | exact .inl rfl

lemma next_spec : Same s s.next.1 ∧ ∀ c, s.next.2 = some c → 0 < (s.state c).queued := by
  unfold FairScheduler.next
  split
  · rename_i name hname
    refine ⟨Same.refl s, fun c hc => ?_⟩
    cases hc
    exact reservedPick_backlogged s hname
  split
  · exact deficitPick_spec s
  · exact ⟨Same.refl s, fun c hc => weightedPick_backlogged s hc⟩

/-- **`Next` returns a class with a backlog**, under either discipline and for reserved shares. -/
theorem next_backlogged (h : s.next.2 = some c) : 0 < (s.state c).queued := (next_spec s).2 c h

end

/-! ## One class -/

section

variable {F : Type}

/-- The class a call is about. -/
def FairEvent.class? : FairEvent → Option GoString
  | .admitItem name _ _ => some name
  | .next => none
  | .serve name _ => some name
  | .complete name => some name

section

variable (cs : ClassState F)

/-- What a call makes of the class it is about. -/
def ClassState.after : FairEvent → ClassState F
  | .admitItem _ payload now =>
    let q := cs.policy.quota
    if 0 < q.maxQueued ∧ q.maxQueued ≤ cs.queued then { cs with rejected := cs.rejected + 1 }
    else if 0 < q.maxPayloadBytes ∧ q.maxPayloadBytes < payload then { cs with rejected := cs.rejected + 1 }
    else
      { cs with
        queued := cs.queued + 1
        firstWait := if cs.hasWaiting then cs.firstWait else now
        hasWaiting := true }
  | .next => cs
  | .serve _ now =>
    { cs with
      queued := cs.queued - 1
      served := cs.served + 1
      active := cs.active + 1
      deficit := wrap64 (cs.deficit - 1)
      hasWaiting := if cs.queued - 1 = 0 then false else cs.hasWaiting
      firstWait := if cs.queued - 1 = 0 then cs.firstWait else now }
  | .complete _ => { cs with active := cs.active - 1 }

lemma after_policy (e : FairEvent) : (cs.after e).policy = cs.policy := by
  cases e with
  | admitItem name payload now =>
    simp only [ClassState.after]
    split_ifs <;> rfl
  | _ => rfl

/-- Nothing was admitted yet. -/
structure ClassState.Idle (cs : ClassState F) : Prop where
  queued : cs.queued = 0
  active : cs.active = 0
  waiting : cs.hasWaiting = false

def ClassState.QueuedOK : Prop :=
  0 < cs.policy.quota.maxQueued → cs.queued ≤ cs.policy.quota.maxQueued

def ClassState.ActiveOK : Prop :=
  (0 < cs.policy.quota.maxActive → cs.active ≤ cs.policy.quota.maxActive) ∧
    (0 < cs.policy.quota.maxConcurrency → cs.active ≤ cs.policy.quota.maxConcurrency)

instance (cs : ClassState F) : Decidable cs.ActiveOK := inferInstanceAs (Decidable (_ ∧ _))

/-- The class is at neither of its active limits. -/
def ClassState.Below : Prop :=
  (0 < cs.policy.quota.maxActive → cs.active < cs.policy.quota.maxActive) ∧
    (0 < cs.policy.quota.maxConcurrency → cs.active < cs.policy.quota.maxConcurrency)

end

instance (cs : ClassState F) : Decidable cs.Below := inferInstanceAs (Decidable (_ ∧ _))

variable {cs : ClassState F}

lemma after_queuedOK (e : FairEvent) (h : cs.QueuedOK) : (cs.after e).QueuedOK := by
  intro hpos
  rw [after_policy] at hpos ⊢
  have hle := h hpos
  cases e with
  | admitItem name payload now =>
    simp only [ClassState.after]
    split
    · exact hle
    split
    · exact hle
    · push_cast
      omega
  | serve name now =>
    exact le_trans (Int.ofNat_le.2 (Nat.sub_le _ _)) hle
  | _ => exact hle

/-- The limits of a class matter for `Serve` only. -/
lemma after_active {e} (he : ∀ name now, e ≠ .serve name now) :
    (cs.ActiveOK → (cs.after e).ActiveOK) ∧ (cs.Below → (cs.after e).Below) := by
  have hle : ((cs.after e).active : ℤ) ≤ cs.active := by
    cases e with
    | admitItem name payload now =>
      simp only [ClassState.after]
      split_ifs <;> exact le_rfl
    | next => exact le_rfl
    | serve name now => exact absurd rfl (he name now)
    | complete name => exact_mod_cast Nat.sub_le _ _
  unfold ClassState.ActiveOK ClassState.Below
  rw [after_policy]
  exact ⟨fun h => ⟨fun hpos => hle.trans (h.1 hpos), fun hpos => hle.trans (h.2 hpos)⟩,
    fun h => ⟨fun hpos => hle.trans_lt (h.1 hpos), fun hpos => hle.trans_lt (h.2 hpos)⟩⟩

/-! ## New schedulers -/

/-- A class as the configuration has it; a weight that is not positive counts as 1. -/
def ClassPolicy.fresh (p : ClassPolicy F) : ClassState F :=
  let p := if p.weight ≤ 0 then { p with weight := 1 } else p
  { policy := p, deficit := p.weight }

lemma foldl_addClass (ps : List (ClassPolicy F)) (s : FairScheduler F) (c : GoString) :
    (∃ p ∈ ps, p.name = c ∧ (ps.foldl addClass s).classes.lookup c = some p.fresh) ∨
      (∀ p ∈ ps, p.name ≠ c) ∧ (ps.foldl addClass s).classes.lookup c = s.classes.lookup c := by
  induction ps generalizing s with
  | nil => exact .inr ⟨nofun, rfl⟩
  | cons p ps ih =>
    have hadd : (addClass s p).classes.lookup c = if c = p.name then some p.fresh else s.classes.lookup c := by
      unfold addClass ClassPolicy.fresh
      split <;> exact Table.lookup_insert_if ..
    rcases ih (addClass s p) with ⟨q, hq, hname, hlook⟩ | ⟨hne, hlook⟩
    · exact .inl ⟨q, mem_cons_of_mem _ hq, hname, hlook⟩
    rw [hadd] at hlook
    by_cases hc : c = p.name
    · rw [if_pos hc] at hlook
      exact .inl ⟨p, mem_cons_self, hc.symm, hlook⟩
    · rw [if_neg hc] at hlook
      exact .inr ⟨forall_mem_cons.2 ⟨fun h => hc h.symm, hne⟩, hlook⟩

lemma foldl_addClass_order (ps : List (ClassPolicy F)) (s : FairScheduler F) :
    (ps.foldl addClass s).order = s.order ++ ps.map ClassPolicy.name ∧ (ps.foldl addClass s).cfg = s.cfg := by
  induction ps generalizing s with
  | nil => exact ⟨(append_nil _).symm, rfl⟩
  | cons p ps ih =>
    have hadd : (addClass s p).order = s.order ++ [p.name] ∧ (addClass s p).cfg = s.cfg := by
      unfold addClass
      split <;> exact ⟨rfl, rfl⟩
    rw [foldl_cons, (ih _).1, (ih _).2, hadd.1, hadd.2, append_assoc]
    exact ⟨rfl, rfl⟩

variable {cfg : FairnessConfig F} {c : GoString}

/-- **A new scheduler** has the classes of the configuration. -/
theorem newFairScheduler_lookup (cfg : FairnessConfig F) (c : GoString) :
    (∃ p ∈ cfg.classes, p.name = c ∧ (newFairScheduler cfg).classes.lookup c = some p.fresh) ∨
      (∀ p ∈ cfg.classes, p.name ≠ c) ∧ (newFairScheduler cfg).classes.lookup c = none := by
  unfold newFairScheduler
  split <;> exact foldl_addClass cfg.classes _ c

lemma newFairScheduler_order : c ∈ (newFairScheduler cfg).order ↔ ∃ p ∈ cfg.classes, p.name = c := by
  have horder : (newFairScheduler cfg).order = sortStrings (cfg.classes.map ClassPolicy.name) := by
    unfold newFairScheduler
    split <;> exact congrArg sortStrings (foldl_addClass_order cfg.classes _).1
  rw [horder, mem_sortStrings, mem_map]

/-- An algorithm that is not given is weighted fair queueing. -/
lemma newFairScheduler_cfg (cfg : FairnessConfig F) : (newFairScheduler cfg).cfg =
    if cfg.algorithm = .other [] then { cfg with algorithm := .weightedFair } else cfg :=
  (foldl_addClass_order _ _).2

lemma newFairScheduler_indexed (cfg : FairnessConfig F) : Indexed (newFairScheduler cfg) := by
  intro c hc
  rcases newFairScheduler_lookup cfg c with ⟨p, hp, hname, -⟩ | ⟨-, hnone⟩
  · exact newFairScheduler_order.2 ⟨p, hp, hname⟩
  · rw [hnone] at hc
    cases hc

variable [IntCast F]

/-- The class of a name at the start: one of the configuration, or as it is created at first sight. -/
lemma newFairScheduler_state (cfg : FairnessConfig F) (c : GoString) :
    (∃ p ∈ cfg.classes, p.name = c ∧ (newFairScheduler cfg).state c = p.fresh) ∨
      (∀ p ∈ cfg.classes, p.name ≠ c) ∧ (newFairScheduler cfg).state c = newClass c := by
  rcases newFairScheduler_lookup cfg c with ⟨p, hp, hname, hlook⟩ | ⟨hne, hlook⟩
  · exact .inl ⟨p, hp, hname, by rw [state, hlook, Option.getD_some]⟩
  · exact .inr ⟨hne, by rw [state, hlook, Option.getD_none]⟩

lemma newFairScheduler_idle (cfg : FairnessConfig F) (c : GoString) : ((newFairScheduler cfg).state c).Idle := by
  rcases newFairScheduler_state cfg c with ⟨p, -, -, hstate⟩ | ⟨-, hstate⟩
  · rw [hstate]
    exact ⟨rfl, rfl, rfl⟩
  · rw [hstate]
    exact ⟨rfl, rfl, rfl⟩

end

section

variable {F : Type} [IntCast F] [Sub F] [Div F] [LT F] [LE F] [DecidableLT F] [DecidableLE F] {s : FairRun F}
  {c : GoString} {cfg : FairnessConfig F}

/-! ## Calls -/

/-- **Every call but `Next` changes one class.** -/
theorem step_state {e : FairEvent} {k : GoString} (he : e.class? = some k) (c : GoString) :
    (s.step e).sched.state c = if c = k then (s.sched.state c).after e else s.sched.state c := by
  have hone : ∀ cs, ((s.sched.classFor k).set k cs).state c = if c = k then cs else s.sched.state c := by
    intro cs
    rw [state_set, state_classFor]
  cases e with
  | next => cases he
  | admitItem n payload now =>
    cases he
    simp only [FairRun.step, admitItem, ClassState.after, state_classFor]
    by_cases hc : c = k
    · subst hc
      rw [if_pos rfl]
      split_ifs <;> exact (hone _).trans (if_pos rfl)
    · rw [if_neg hc]
      split_ifs <;> exact (hone _).trans (if_neg hc)
  | serve n now =>
    cases he
    simp only [FairRun.step, serve, state_classFor, hone]
    split
    · rename_i hc
      rw [hc]
      rfl
    · rfl
  | complete n =>
    cases he
    simp only [FairRun.step, complete, state_classFor, hone]
    split
    · rename_i hc
      rw [hc]
      rfl
    · rfl

lemma step_grows (s : FairRun F) (e : FairEvent) : Grows s.sched (s.step e).sched := by
  cases e with
  | admitItem name payload now =>
    simp only [FairRun.step, admitItem]
    split_ifs <;> exact grows_set s.sched name _
  | next => exact (next_spec s.sched).1.grows
  | serve name _ | complete name => exact grows_set s.sched name _

/-- A call keeps a property of single classes that it keeps of its own class and that no deficit matters for. -/
lemma step_forall {P : GoString → ClassState F → Prop} (e : FairEvent)
    (hdeficit : ∀ c cs d, P c cs → P c { cs with deficit := d })
    (hafter : ∀ c, e.class? = some c → P c (s.sched.state c) → P c ((s.sched.state c).after e))
    (h : P c (s.sched.state c)) : P c ((s.step e).sched.state c) := by
  cases he : e.class? with
  | none =>
    cases e with
    | next =>
      obtain ⟨d, hd⟩ := (next_spec s.sched).1.state c
      show P c (s.sched.next.1.state c)
      rw [hd]
      exact hdeficit c _ d h
    | _ => cases he
  | some name =>
    rw [step_state he]
    split
    · rename_i hc
      exact hafter c (hc ▸ he) h
    · exact h

lemma reach_grows {es} (h : (fairness cfg).Reach es s) : Grows (newFairScheduler cfg) s.sched := by
  refine System.Reach.invariant (I := fun _ s => Grows (newFairScheduler cfg) s.sched) ⟨rfl, fun _ h => h, id⟩
    (fun es s e _ _ ih => ?_) h
  have hstep := step_grows s e
  exact ⟨hstep.cfg.trans ih.cfg, fun c hc => hstep.order (ih.order hc), fun h => hstep.indexed (ih.indexed h)⟩

/-! ## Quotas -/

/-- No class with a backlog is at its active limit. -/
def Roomy (s : FairScheduler F) : Prop := ∀ c, 0 < (s.state c).queued → (s.state c).Below

/-- A call of `Next` comes only when there is room. -/
def RoomyNext (_ : List FairEvent) (s : FairRun F) (e : FairEvent) : Prop := e = .next → Roomy s.sched

/-- Every class is within its active limits, and the one that was returned is below them. -/
structure FairRun.Active (s : FairRun F) : Prop where
  classes : ∀ c, (s.sched.state c).ActiveOK
  returned : ∀ c, s.returned = some c → (s.sched.state c).Below

lemma step_active (e : FairEvent) (hproper : s.Proper e) (hroomy : RoomyNext [] s e)
    (h : s.Active) : (s.step e).Active := by
  have hclasses : (∀ name now, e ≠ .serve name now) → ∀ c, ((s.step e).sched.state c).ActiveOK := fun he c =>
    step_forall e (fun _ _ _ h => h) (fun _ _ h => (after_active he).1 h) (h.classes c)
  have hbelow : (∀ name now, e ≠ .serve name now) → ∀ c, (s.sched.state c).Below →
      ((s.step e).sched.state c).Below := fun he c =>
    step_forall e (fun _ _ _ h => h) (fun _ _ h => (after_active he).2 h)
  cases e with
  | admitItem _ _ _ | complete _ => exact ⟨hclasses nofun, fun c hc => hbelow nofun c (h.returned c hc)⟩
  | next => exact ⟨hclasses nofun, fun c hc => hbelow nofun c (hroomy rfl c (next_backlogged s.sched hc))⟩
  | serve name now =>
    refine ⟨fun c => ?_, nofun⟩
    rw [step_state rfl]
    -- only the class that `Next` returned gets one more, and it was below its limits
    split
    · rename_i hc
      have hlow := h.returned c (hc ▸ hproper)
      unfold ClassState.Below at hlow
      simp only [ClassState.ActiveOK, ClassState.after]
      push_cast
      exact ⟨hlow.1, hlow.2⟩
    · exact h.classes c

/-- **Quotas**: queued items stay within their bound in every run. If `Next` is called only while no class with
a backlog is at its active limit, active items stay within theirs, and `Next` returns no class at its limit. -/
theorem quotas_hold (cfg : FairnessConfig F) : (∀ es s, (fairness cfg).Reach es s → ∀ c, (s.sched.state c).QueuedOK) ∧
      ∀ es s, ((fairness cfg).only RoomyNext).Reach es s → (∀ c, (s.sched.state c).ActiveOK) ∧
          (Roomy s.sched → ∀ c, s.sched.next.2 = some c → (s.sched.state c).Below) := by
  have hidle := newFairScheduler_idle cfg
  constructor
  · intro es s hreach c
    refine System.Reach.invariant (I := fun _ s => (s.sched.state c).QueuedOK) ?_ ?_ hreach
    · intro hpos
      show (((newFairScheduler cfg).state c).queued : ℤ) ≤ _
      rw [(hidle c).queued]
      exact hpos.le
    · exact fun _ s e _ _ h =>
        step_forall e (fun _ _ _ h => h) (fun _ _ h => after_queuedOK e h) h
  intro es s hreach
  have hinit : ∀ c, ((newFairScheduler cfg).state c).ActiveOK := by
    intro c
    unfold ClassState.ActiveOK
    rw [(hidle c).active]
    exact ⟨fun hpos => hpos.le, fun hpos => hpos.le⟩
  have hactive : s.Active := by
    refine System.Reach.invariant (I := fun _ s => s.Active) ⟨hinit, nofun⟩ ?_ hreach
    exact fun _ s e _ hok h => step_active e hok.1 hok.2 h
  exact ⟨hactive.classes, fun hroomy c hc => hroomy c (next_backlogged s.sched hc)⟩

end

/-- One class with room for one active item. -/
def oneActive : FairnessConfig ℚ where
  algorithm := .weightedFair
  starvationThreshold := 0
  classes := [{ name := str "c", weight := 1, priority := 0, reservedShare := 0, quota := { maxActive := 1 } }]

/-- An item of the class is admitted, picked and served. -/
def oneItem : List FairEvent := [.admitItem (str "c") 0 0, .next, .serve (str "c") 0]

lemma roomy_of_entries {F : Type} [IntCast F] {s : FairScheduler F}
    (h : ∀ e ∈ s.classes.entries, e.2.Below) : Roomy s := by
  intro c hqueued
  unfold state at hqueued ⊢
  cases hc : s.classes.lookup c with
  | none =>
    rw [hc] at hqueued
    cases hqueued
  | some cs => exact h ⟨c, cs⟩ (Table.mem_entries.2 hc)

theorem quotas_hold_oneItem : (((fairness oneActive).run (fairness oneActive).init oneItem).sched.state
      (str "c")).active = 1 ∧
    (((fairness oneActive).run (fairness oneActive).init oneItem).sched.state (str "c")).ActiveOK := by
  have hallowed : ((fairness oneActive).only RoomyNext).Allowed [] (fairness oneActive).init oneItem :=
    ⟨⟨trivial, nofun⟩, ⟨trivial, fun _ => roomy_of_entries (by decide)⟩, ⟨by decide, nofun⟩, trivial⟩
  exact ⟨by decide, ((quotas_hold oneActive).2 _ _ (System.reach_of_allowed hallowed)).1 (str "c")⟩

/-- **Active limits are not enforced**: a class at its limit is returned and served once more. -/
theorem active_limit_ignored : ∃ es s, (fairness oneActive).Reach es s ∧ ¬(s.sched.state (str "c")).Below ∧
      s.sched.next.2 = some (str "c") ∧
      ∃ es' s', (fairness oneActive).Steps es s es' s' ∧ ¬(s'.sched.state (str "c")).ActiveOK := by
  have hreach : (fairness oneActive).Reach (.admitItem (str "c") 0 0 :: oneItem) _ :=
    System.reach_of_allowed (by decide)
  have hnext : (fairness oneActive).Allowed (.admitItem (str "c") 0 0 :: oneItem)
      ((fairness oneActive).run (fairness oneActive).init (.admitItem (str "c") 0 0 :: oneItem))
      [.next, .serve (str "c") 0] := ⟨trivial, by decide, trivial⟩
  exact ⟨_, _, hreach, by decide, by decide, _, _, System.steps_of_allowed hnext System.Steps.refl, by decide⟩

end BatchWeaver.Adaptive
