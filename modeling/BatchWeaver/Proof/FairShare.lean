import BatchWeaver.Proof.Fairness

/-!
# Weighted fair queueing

`weightedPick` goes through the classes once and keeps the best so far: the highest priority, and among those
the lowest score, which is the weighted service a class would have if it were served once more (`BestOf`).

* `weighted_bound`: classes of one priority that always have a backlog stay within one weighted service of each
  other, if no class is named by the empty string.
* `unnamed_starved`: a class named by the empty string counts as no class, and is never served.
-/

namespace BatchWeaver.Adaptive

open List

variable {s : FairScheduler ℚ} {r : FairRun ℚ} {cfg : FairnessConfig ℚ} {c : GoString} {e : FairEvent}

/-! ## The best class -/

/-- The weighted service of a class. -/
def ClassState.ratio (cs : ClassState ℚ) : ℚ := cs.served / cs.policy.weight

/-- The weighted service of a class once it is served again. -/
def ClassState.score (cs : ClassState ℚ) : ℚ := ((cs.served + 1 : ℤ) : ℚ) / ((cs.policy.weight : ℤ) : ℚ)

/-- The best class so far is not worse than a class. -/
def Beats (best : GoString × ℚ × ℤ) (cs : ClassState ℚ) : Prop :=
  cs.policy.priority < best.2.2 ∨ cs.policy.priority = best.2.2 ∧ best.1 ≠ [] ∧ best.2.1 ≤ cs.score

/-- The best class so far, after some names. -/
structure BestOf (s : FairScheduler ℚ) (names : List GoString) (best : GoString × ℚ × ℤ) : Prop where
  start : best.1 = [] → best.2.2 = -2 ^ 30
  own : best.1 ≠ [] → best.2.1 = (s.state best.1).score ∧ best.2.2 = (s.state best.1).policy.priority
  beats : ∀ name ∈ names, 0 < (s.state name).queued → Beats best (s.state name)

lemma BestOf.step {names : List GoString} {best : GoString × ℚ × ℤ} (h : BestOf s names best) {name : GoString}
    (hne : 0 < (s.state name).queued → name ≠ []) : BestOf s (names ++ [name]) (weightedStep s best name) := by
  have hall : ∀ best', (∀ n ∈ names, 0 < (s.state n).queued → Beats best' (s.state n)) →
      (0 < (s.state name).queued → Beats best' (s.state name)) →
      ∀ n ∈ names ++ [name], 0 < (s.state n).queued → Beats best' (s.state n) :=
    fun _ hold hnew => forall_mem_append.2 ⟨hold, forall_mem_singleton.2 hnew⟩
  simp only [weightedStep]
  split
  · rename_i hidle
    exact ⟨h.start, h.own, hall _ h.beats fun hpos => absurd hidle hpos.ne'⟩
  rename_i hqueued
  have hne := hne (Nat.pos_of_ne_zero hqueued)
  split
  · rename_i hhigher
    refine ⟨fun h => absurd h hne, fun _ => ⟨rfl, rfl⟩, hall _ (fun n hn hpos => ?_) fun _ => .inr ⟨rfl, hne, le_rfl⟩⟩
    rcases h.beats n hn hpos with hlow | ⟨heq, -⟩
    · exact .inl (hlow.trans hhigher)
    · exact .inl (heq ▸ hhigher)
  rename_i hnot
  split
  · rename_i hequal
    refine ⟨fun h => absurd h hne, fun _ => ⟨rfl, hequal.1.symm⟩, hall _ (fun n hn hpos => ?_)
      fun _ => .inr ⟨hequal.1, hne, le_rfl⟩⟩
    rcases h.beats n hn hpos with hlow | ⟨heq, hsome, hscore⟩
    · exact .inl hlow
    · exact .inr ⟨heq, hne, (hequal.2.resolve_left hsome).le.trans hscore⟩
  · rename_i hworse
    refine ⟨h.start, h.own, hall _ h.beats fun _ => ?_⟩
    rcases (not_lt.1 hnot).lt_or_eq with hlow | heq
    · exact .inl hlow
    · have hboth := not_or.1 fun hor => hworse ⟨heq, hor⟩
      exact .inr ⟨heq, hboth.1, not_lt.1 hboth.2⟩

/-- **What `weightedPick` chooses**, if only classes with a name have a backlog. -/
lemma bestOf_order (s : FairScheduler ℚ) (hne : ∀ name, 0 < (s.state name).queued → name ≠ []) :
    BestOf s s.order (s.order.foldl (weightedStep s) ([], ((0 : ℤ) : ℚ), -2 ^ 30)) := by
  induction s.order using reverseRecOn with
  | nil => exact ⟨fun _ => rfl, fun h => absurd rfl h, nofun⟩
  | append_singleton names name ih =>
    rw [foldl_append]
    exact ih.step (hne name)

lemma reservedPick_none (h : ∀ name, (s.state name).policy.reservedShare ≤ 0) : s.reservedPick = none := by
  have hfold : s.order.foldl (reservedStep s s.totalServed) ([], ((0 : ℤ) : ℚ)) = ([], ((0 : ℤ) : ℚ)) := by
    induction s.order with
    | nil => rfl
    | cons name names ih =>
      rw [foldl_cons, reservedStep, if_pos (.inr (by simpa using h name)), ih]
  rw [FairScheduler.reservedPick, hfold]
  rfl

/-! ## Classes that always have a backlog -/

/-- A class has a backlog only if an item came for it. -/
lemma step_queued {P : GoString → Prop} (hadm : ∀ name payload now, e = .admitItem name payload now → P name)
    (h : ∀ c, 0 < (r.sched.state c).queued → P c) (c : GoString) : 0 < ((r.step e).sched.state c).queued → P c := by
  refine step_forall (P := fun c cs => 0 < cs.queued → P c) e (fun _ _ _ h => h) (fun c hc hold => ?_) (h c)
  cases e with
  | admitItem name payload now =>
    cases hc
    exact fun _ => hadm _ payload now rfl
  | serve name now => exact fun hpos => hold (lt_of_lt_of_le hpos (Nat.sub_le _ _))
  | _ => exact hold

/-- No call changes a policy. -/
lemma reach_policy {es : List FairEvent} (h : (fairness cfg).Reach es r) (c : GoString) :
    (r.sched.state c).policy = ((newFairScheduler cfg).state c).policy := by
  refine System.Reach.invariant (I := fun _ r => (r.sched.state c).policy = ((newFairScheduler cfg).state c).policy)
    rfl (fun es r e _ _ ih => ?_) h
  exact step_forall (P := fun c cs => cs.policy = ((newFairScheduler cfg).state c).policy) e
    (fun _ _ _ h => h) (fun c _ h => (after_policy _ e).trans h) ih

lemma newFairScheduler_served (cfg : FairnessConfig ℚ) (c : GoString) : ((newFairScheduler cfg).state c).served = 0 := by
  rcases newFairScheduler_state cfg c with ⟨p, -, -, hstate⟩ | ⟨-, hstate⟩
  · rw [hstate]
    rfl
  · rw [hstate]
    rfl

/-- Items come for configured classes only, and `Next` is called while each of them has a backlog. -/
def Backlogged (cfg : FairnessConfig ℚ) (_ : List FairEvent) (r : FairRun ℚ) : FairEvent → Prop
  | .admitItem name _ _ => ∃ p ∈ cfg.classes, p.name = name
  | .next => ∀ p ∈ cfg.classes, 0 < (r.sched.state p.name).queued
  | _ => True

instance (cfg : FairnessConfig ℚ) (es : List FairEvent) (r : FairRun ℚ) :
    (e : FairEvent) → Decidable (Backlogged cfg es r e)
  | .admitItem _ _ _ => inferInstanceAs (Decidable (∃ p ∈ cfg.classes, _))
  | .next => inferInstanceAs (Decidable (∀ p ∈ cfg.classes, _))
  | .serve _ _ => instDecidableTrue
  | .complete _ => instDecidableTrue

/-- Classes of one priority, with names, positive weights and no reserved shares, under the weighted discipline. -/
structure FairnessConfig.Level (cfg : FairnessConfig ℚ) (priority : ℤ) : Prop where
  algorithm : cfg.algorithm ≠ .deficitRoundRobin
  named : ∀ p ∈ cfg.classes, p.name ≠ []
  weight : ∀ p ∈ cfg.classes, 0 < p.weight
  priority : ∀ p ∈ cfg.classes, p.priority = priority
  reserved : ∀ p ∈ cfg.classes, p.reservedShare ≤ 0

lemma level_policy {priority : ℤ} (hcfg : cfg.Level priority) {es : List FairEvent}
    (h : (fairness cfg).Reach es r) {p : ClassPolicy ℚ} (hp : p ∈ cfg.classes) :
    0 < (r.sched.state p.name).policy.weight ∧ (r.sched.state p.name).policy.priority = priority := by
  rw [reach_policy h]
  rcases newFairScheduler_state cfg p.name with ⟨q, hq, -, hstate⟩ | ⟨hne, -⟩
  · rw [hstate, ClassPolicy.fresh, if_neg (not_le.2 (hcfg.weight q hq))]
    exact ⟨hcfg.weight q hq, hcfg.priority q hq⟩
  · exact absurd rfl (hne p hp)

/-- Without reserved shares nothing is picked for one. -/
lemma reach_unreserved (hcfg : ∀ p ∈ cfg.classes, p.reservedShare ≤ 0) {es : List FairEvent}
    (h : (fairness cfg).Reach es r) : r.sched.reservedPick = none := by
  refine reservedPick_none fun name => ?_
  rw [reach_policy h]
  rcases newFairScheduler_state cfg name with ⟨q, hq, -, hstate⟩ | ⟨-, hstate⟩
  · have hreserved := hcfg q hq
    rw [hstate, ClassPolicy.fresh]
    split
    · exact hreserved
    · exact hreserved
  · rw [hstate]
    exact le_rfl

/-- Only `Serve` changes what a class was served. -/
lemma step_service (he : ∀ name now, e ≠ .serve name now) (c : GoString) :
    ((r.step e).sched.state c).ratio = (r.sched.state c).ratio ∧
      ((r.step e).sched.state c).score = (r.sched.state c).score := by
  refine step_forall (P := fun c cs => cs.ratio = (r.sched.state c).ratio ∧ cs.score = (r.sched.state c).score) e
    (fun _ _ _ h => h) (fun c _ _ => ?_) ⟨rfl, rfl⟩
  cases e with
  | admitItem name payload now =>
    simp only [ClassState.after]
    split_ifs <;> exact ⟨rfl, rfl⟩
  | serve name now => exact absurd rfl (he name now)
  | _ => exact ⟨rfl, rfl⟩

lemma ratio_after (cs : ClassState ℚ) (name : GoString) (now : ℤ) : (cs.after (.serve name now)).ratio = cs.score := by
  simp only [ClassState.after, ClassState.ratio, ClassState.score]
  push_cast
  rfl

lemma score_after {cs : ClassState ℚ} (hweight : 0 < cs.policy.weight) (name : GoString) (now : ℤ) :
    cs.score ≤ (cs.after (.serve name now)).score := by
  have hpos : (0 : ℚ) < cs.policy.weight := by exact_mod_cast hweight
  simp only [ClassState.after, ClassState.score]
  push_cast
  gcongr
  linarith

/-- No configured class is ahead of another, and the one that was returned is not ahead once it is served. -/
structure FairRun.Fair (cfg : FairnessConfig ℚ) (r : FairRun ℚ) : Prop where
  queued : ∀ c, 0 < (r.sched.state c).queued → ∃ p ∈ cfg.classes, p.name = c
  bound : ∀ p ∈ cfg.classes, ∀ q ∈ cfg.classes, (r.sched.state p.name).ratio ≤ (r.sched.state q.name).score
  returned : ∀ c, r.returned = some c → (∃ p ∈ cfg.classes, p.name = c) ∧
    ∀ q ∈ cfg.classes, (r.sched.state c).score ≤ (r.sched.state q.name).score

/-- The class that `Next` returns has the lowest score. -/
lemma next_least {priority : ℤ} (hcfg : cfg.Level priority) {es : List FairEvent} (hr : (fairness cfg).Reach es r)
    (h : r.Fair cfg) (hall : Backlogged cfg es r .next) (hc : r.sched.next.2 = some c) {q : ClassPolicy ℚ}
    (hq : q ∈ cfg.classes) : (r.sched.state c).score ≤ (r.sched.state q.name).score := by
  have hnamed : ∀ name, 0 < (r.sched.state name).queued → name ≠ [] := by
    intro name hpos
    obtain ⟨p, hp, rfl⟩ := h.queued name hpos
    exact hcfg.named p hp
  have halg : r.sched.cfg.algorithm ≠ .deficitRoundRobin := by
    rw [(reach_grows hr).cfg, newFairScheduler_cfg]
    split
    · exact nofun
    · exact hcfg.algorithm
  have hpick : r.sched.weightedPick = some c := by
    rw [FairScheduler.next, reach_unreserved hcfg.reserved hr] at hc
    cases hdiscipline : r.sched.cfg.algorithm with
    | deficitRoundRobin => exact absurd hdiscipline halg
    | _ =>
      rw [hdiscipline] at hc
      exact hc
  obtain ⟨rfl, hsome⟩ := picked_eq_some hpick
  have hbest := bestOf_order r.sched hnamed
  obtain ⟨hscore, hpriority⟩ := hbest.own hsome
  have horder : q.name ∈ r.sched.order := (reach_grows hr).order (newFairScheduler_order.2 ⟨q, hq, rfl⟩)
  rcases hbest.beats q.name horder (hall q hq) with hlow | ⟨-, -, hle⟩
  · obtain ⟨p, hp, hname⟩ := h.queued _ (weightedPick_backlogged r.sched hpick)
    have hp := (level_policy hcfg hr hp).2
    rw [hname] at hp
    rw [hpriority, hp, (level_policy hcfg hr hq).2] at hlow
    exact absurd hlow (lt_irrefl _)
  · rwa [hscore] at hle

lemma fair_step {priority : ℤ} (hcfg : cfg.Level priority) {es : List FairEvent} (hr : (fairness cfg).Reach es r)
    (hproper : r.Proper e) (hon : Backlogged cfg [] r e) (h : r.Fair cfg) : (r.step e).Fair cfg := by
  have hqueued := step_queued (e := e) (P := fun c => ∃ p ∈ cfg.classes, p.name = c)
    (fun _ _ _ he => by subst he; exact hon) h.queued
  have hkeep : (∀ name now, e ≠ .serve name now) → (∀ c, (r.step e).returned = some c →
      (∃ p ∈ cfg.classes, p.name = c) ∧ ∀ q ∈ cfg.classes,
        (r.sched.state c).score ≤ (r.sched.state q.name).score) → (r.step e).Fair cfg := by
    intro he hreturned
    have hsame := step_service (r := r) he
    refine ⟨hqueued, fun p hp q hq => ?_, fun c hc => ⟨(hreturned c hc).1, fun q hq => ?_⟩⟩
    · rw [(hsame _).1, (hsame _).2]
      exact h.bound p hp q hq
    · rw [(hsame _).2, (hsame _).2]
      exact (hreturned c hc).2 q hq
  cases e with
  | admitItem name payload now => exact hkeep nofun h.returned
  | complete name => exact hkeep nofun h.returned
  | next =>
    exact hkeep nofun fun c hc =>
      ⟨h.queued c (next_backlogged r.sched hc), fun q hq => next_least hcfg hr h hon hc hq⟩
  | serve name now =>
    obtain ⟨⟨p₀, hp₀, rfl⟩, hleast⟩ := h.returned name hproper
    -- the class that is served had the lowest score, so its service is not ahead of any other
    have hscore : ∀ q ∈ cfg.classes, (r.sched.state q.name).score ≤
        ((r.step (.serve p₀.name now)).sched.state q.name).score := by
      intro q hq
      rw [step_state (k := p₀.name) rfl]
      split
      · exact score_after (level_policy hcfg hr hq).1 _ _
      · exact le_rfl
    refine ⟨hqueued, fun p hp q hq => le_trans ?_ (hscore q hq), nofun⟩
    rw [step_state (k := p₀.name) rfl]
    split
    · rename_i hname
      rw [ratio_after, hname]
      exact hleast q hq
    · exact h.bound p hp q hq

/-- **Weighted fair queueing.** Classes with names, of one priority, with positive weights, no reserved shares and
always a backlog stay within one weighted service of each other. -/
theorem weighted_bound (cfg : FairnessConfig ℚ) (priority : ℤ) (hcfg : cfg.Level priority) (es : List FairEvent)
    (r : FairRun ℚ) (h : ((fairness cfg).only (Backlogged cfg)).Reach es r) :
    ∀ p ∈ cfg.classes, ∀ q ∈ cfg.classes,
      ((r.sched.state p.name).served : ℚ) / (r.sched.state p.name).policy.weight ≤
        ((r.sched.state q.name).served + 1) / (r.sched.state q.name).policy.weight := by
  have hfair : r.Fair cfg := by
    refine System.Reach.invariant (I := fun _ r => r.Fair cfg) ?_ ?_ h
    · refine ⟨fun c hc => ?_, fun p hp q hq => ?_, nofun⟩
      · exact absurd (newFairScheduler_idle cfg c).queued hc.ne'
      have hweight : (0 : ℚ) < ((newFairScheduler cfg).state q.name).policy.weight := by
        exact_mod_cast (level_policy hcfg System.Reach.init hq).1
      show ((newFairScheduler cfg).state p.name).ratio ≤ ((newFairScheduler cfg).state q.name).score
      rw [ClassState.ratio, ClassState.score, newFairScheduler_served, newFairScheduler_served]
      simp [hweight.le]
    · exact fun es r e hr hok h => fair_step hcfg hr.of_only hok.1 hok.2 h
  intro p hp q hq
  have hbound := hfair.bound p hp q hq
  simp only [ClassState.ratio, ClassState.score] at hbound
  push_cast at hbound
  exact hbound

/-- Two classes of weight 1 and priority 0. -/
def pair (name name' : GoString) : FairnessConfig ℚ where
  algorithm := .weightedFair
  starvationThreshold := 0
  classes := [⟨name, 1, 0, 0, {}⟩, ⟨name', 1, 0, 0, {}⟩]

/-- Both classes get an item, and one is served. -/
def oneRound : List FairEvent := [.admitItem (str "a") 0 0, .admitItem (str "b") 0 0, .next, .serve (str "a") 0]

theorem weighted_bound_oneRound :
    let r := (fairness (pair (str "a") (str "b"))).run (fairness (pair (str "a") (str "b"))).init oneRound
    (r.sched.state (str "a")).served = 1 ∧
      ((r.sched.state (str "a")).served : ℚ) / (r.sched.state (str "a")).policy.weight ≤
        ((r.sched.state (str "b")).served + 1) / (r.sched.state (str "b")).policy.weight := by
  have hcfg : (pair (str "a") (str "b")).Level 0 := by constructor <;> decide
  have hreach : ((fairness (pair (str "a") (str "b"))).only (Backlogged (pair (str "a") (str "b")))).Reach oneRound
    ((fairness (pair (str "a") (str "b"))).run (fairness (pair (str "a") (str "b"))).init oneRound) :=
    System.reach_of_allowed (by decide +kernel)
  exact ⟨by decide +kernel, weighted_bound _ 0 hcfg _ _ hreach ⟨str "a", 1, 0, 0, {}⟩ mem_cons_self
    ⟨str "b", 1, 0, 0, {}⟩ (mem_cons_of_mem _ mem_cons_self)⟩

/-- **A class named by the empty string is starved**, although it has a backlog like the other one. -/
theorem unnamed_starved : ∃ es r, ((fairness (pair [] (str "b"))).only (Backlogged (pair [] (str "b")))).Reach es r ∧
    ¬((r.sched.state (str "b")).served : ℚ) / (r.sched.state (str "b")).policy.weight ≤
        ((r.sched.state []).served + 1) / (r.sched.state []).policy.weight :=
  ⟨[.admitItem [] 0 0, .admitItem (str "b") 0 0, .admitItem (str "b") 0 0, .admitItem (str "b") 0 0, .next,
    .serve (str "b") 0, .next, .serve (str "b") 0], _, System.reach_of_allowed (by decide +kernel), by decide +kernel⟩

end BatchWeaver.Adaptive
