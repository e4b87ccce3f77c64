import Mathlib.Logic.Function.Basic
import Mathlib.Order.Lattice.Nat
import Mathlib.Tactic

/-!
# Repeated passes over the edges of a graph

Values are attached to the nodes of a graph and taken up along its edges, in passes over all edges in any
order, until a pass changes nothing or the passes run out.

* `pass_edge`: one pass takes up the value at the other end of every edge.
* `runs_cover`: `n` passes take up the values at the end of every chain of at most `n` edges.
* `runs_invariant`: what taking up a value along an edge keeps, a whole run keeps, and by `runs_sources` it brings a
  node nothing that is not reached from there.
* `backward_covers`, `forward_pass`: a pass that starts at the far end takes up everything, and one that starts at the
  near end reaches one edge further.
-/

namespace BatchWeaver.Passes

/-- How a value takes up another one. Only a live value takes up anything. -/
structure Rules (L : Type) where
  absorb : L → L → L
  Covers : L → L → Prop
  Live : L → Prop
  Sane : L → Prop
  refl : ∀ a, Covers a a
  trans : ∀ {a b c}, Covers a b → Covers b c → Covers a c
  keeps : ∀ a b, Covers (absorb a b) a
  gains : ∀ {a}, Live a → Sane a → ∀ b, Covers (absorb a b) b
  live : ∀ a b, Live (absorb a b) ↔ Live a
  sane : ∀ {a b}, Sane a → Sane b → Sane (absorb a b)

variable {F L : Type} [DecidableEq F]

/-- The value at the start of an edge takes up the one at its end. -/
def visit (R : Rules L) (st : F → L) (e : F × F) : F → L := Function.update st e.1 (R.absorb (st e.1) (st e.2))

def pass (R : Rules L) (edges : List (F × F)) (st : F → L) : F → L := edges.foldl (visit R) st

/-- At most `n` passes over the edges `E`, each in some order, that end early after a pass without change. -/
inductive Runs (R : Rules L) (E : F → F → Prop) : ℕ → (F → L) → (F → L) → Prop
  | done (st : F → L) : Runs R E 0 st st
  | stop {n : ℕ} {st : F → L} (edges : List (F × F)) (hE : ∀ e, e ∈ edges ↔ E e.1 e.2)
      (h : pass R edges st = st) : Runs R E (n + 1) st st
  | more {n : ℕ} {st st' : F → L} (edges : List (F × F)) (hE : ∀ e, e ∈ edges ↔ E e.1 e.2)
      (h : Runs R E n (pass R edges st) st') : Runs R E (n + 1) st st'

/-- A chain of edges that start in live nodes. -/
inductive Chain (E : F → F → Prop) (live : F → Prop) : ℕ → F → F → Prop
  | refl (f : F) : Chain E live 0 f f
  | step {n : ℕ} {f g h : F} : Chain E live n f g → live g → E g h → Chain E live (n + 1) f h

section

variable {R : Rules L} {st : F → L}

lemma visit_covers (st : F → L) (e : F × F) (f : F) : R.Covers (visit R st e f) (st f) := by
  unfold visit
  rcases eq_or_ne f e.1 with rfl | hf
  · rw [Function.update_self]
    exact R.keeps _ _
  · rw [Function.update_of_ne hf]
    exact R.refl _

lemma visit_live (st : F → L) (e : F × F) (f : F) : R.Live (visit R st e f) ↔ R.Live (st f) := by
  unfold visit
  rcases eq_or_ne f e.1 with rfl | hf
  · rw [Function.update_self]
    exact R.live _ _
  · rw [Function.update_of_ne hf]

lemma visit_sane (h : ∀ f, R.Sane (st f)) (e : F × F) (f : F) : R.Sane (visit R st e f) := by
  unfold visit
  rcases eq_or_ne f e.1 with rfl | hf
  · rw [Function.update_self]
    exact R.sane (h _) (h _)
  · rw [Function.update_of_ne hf]
    exact h f

lemma pass_covers (edges : List (F × F)) (st : F → L) (f : F) : R.Covers (pass R edges st f) (st f) := by
  induction edges generalizing st with
  | nil => exact R.refl _
  | cons e edges ih => exact R.trans (ih (visit R st e)) (visit_covers st e f)

lemma pass_live (edges : List (F × F)) (st : F → L) (f : F) : R.Live (pass R edges st f) ↔ R.Live (st f) := by
  induction edges generalizing st with
  | nil => exact Iff.rfl
  | cons e edges ih => exact (ih (visit R st e)).trans (visit_live st e f)

lemma pass_sane (edges : List (F × F)) (h : ∀ f, R.Sane (st f)) (f : F) : R.Sane (pass R edges st f) := by
  induction edges generalizing st with
  | nil => exact h f
  | cons e edges ih => exact ih (visit_sane h e)

/-- **One pass** takes up the value at the end of every edge. -/
theorem pass_edge {edges : List (F × F)} (hsane : ∀ f, R.Sane (st f)) {f g : F} (hlive : R.Live (st f))
    (he : (f, g) ∈ edges) : R.Covers (pass R edges st f) (st g) := by
  induction edges generalizing st with
  | nil => cases he
  | cons e edges ih =>
    rcases List.mem_cons.1 he with rfl | he
    · have hvisit : R.Covers (visit R st (f, g) f) (st g) := by
        unfold visit
        rw [Function.update_self]
        exact R.gains hlive (hsane f) _
      exact R.trans (pass_covers edges (visit R st (f, g)) f) hvisit
    · have hrest := ih (visit_sane hsane e) ((visit_live st e f).2 hlive) he
      exact R.trans hrest (visit_covers st e g)

variable {E : F → F → Prop} {live : F → Prop}

/-- Where a pass changes nothing, chains of any length are taken up. -/
lemma closed_cover {edges : List (F × F)} (hE : ∀ e, e ∈ edges ↔ E e.1 e.2) (h : pass R edges st = st)
    (hsane : ∀ f, R.Sane (st f)) {j : ℕ} {f g : F} (hc : Chain E (fun f => R.Live (st f)) j f g) :
    R.Covers (st f) (st g) := by
  induction hc with
  | refl f => exact R.refl _
  | step _ hlive he ih =>
    have hedge := pass_edge hsane hlive ((hE (_, _)).2 he)
    rw [h] at hedge
    exact R.trans ih hedge

/-- **Passes cover chains** that are no longer than there are passes. -/
theorem runs_cover {n : ℕ} {st' : F → L} (h : Runs R E n st st') (hsane : ∀ f, R.Sane (st f)) {j : ℕ} {f g : F}
    (hc : Chain E (fun f => R.Live (st f)) j f g) (hj : j ≤ n) : R.Covers (st' f) (st g) := by
  induction h generalizing j f g with
  | done st =>
    cases hc with
    | refl f => exact R.refl _
    | step _ _ _ => omega
  | stop edges hE hsame => exact closed_cover hE hsame hsane hc
  | @more n st st' edges hE _ ih =>
    have hsane' := fun f => pass_sane edges hsane f
    cases hc with
    | refl f =>
      have hfinal := ih hsane' (Chain.refl f) (Nat.zero_le _)
      exact R.trans hfinal (pass_covers edges st f)
    | @step j f g' g hc hlive he =>
      -- the last edge is taken up by the first pass, the rest of the chain by the others
      have hc' : Chain E (fun f => R.Live (pass R edges st f)) j f g' := by
        simpa only [pass_live] using hc
      have hfront := ih hsane' hc' (by omega)
      exact R.trans hfront (pass_edge hsane hlive ((hE (_, _)).2 he))

/-- **What an edge keeps, a run keeps.** -/
theorem runs_invariant {P : (F → L) → Prop} (hstep : ∀ st e, E e.1 e.2 → P st → P (visit R st e)) {n : ℕ}
    {st' : F → L} (h : Runs R E n st st') (h0 : P st) : P st' := by
  have hpass : ∀ (edges : List (F × F)) (st : F → L), (∀ e ∈ edges, E e.1 e.2) → P st → P (pass R edges st) := by
    intro edges
    induction edges with
    | nil => exact fun st _ h => h
    | cons e edges ih =>
      intro st hedges h
      rw [List.forall_mem_cons] at hedges
      exact ih _ hedges.2 (hstep st e hedges.1 h)
  induction h with
  | done st => exact h0
  | stop _ _ _ => exact h0
  | more edges hE _ ih => exact ih (hpass edges _ (fun e he => (hE e).1 he) h0)

lemma runs_live {n : ℕ} {st' : F → L} (h : Runs R E n st st') (x : F) : R.Live (st' x) ↔ R.Live (st x) :=
  runs_invariant (P := fun st' => R.Live (st' x) ↔ R.Live (st x))
    (fun st' e _ ih => (visit_live st' e x).trans ih) h Iff.rfl

/-- **A run brings in nothing new**: what holds of all that is reached from a node, and of a value that takes up
another one, holds of all that is reached after the run. -/
theorem runs_sources {Q : L → Prop} (habs : ∀ {a b}, Q a → Q b → Q (R.absorb a b))
    (hdead : ∀ {a} b, ¬R.Live a → R.absorb a b = a) {n : ℕ} {st' : F → L} (h : Runs R E n st st')
    (hlive : ∀ x, live x ↔ R.Live (st x)) {f : F} (h0 : ∀ x k, Chain E live k f x → Q (st x)) {x : F} {k : ℕ}
    (hc : Chain E live k f x) : Q (st' x) := by
  refine (runs_invariant (P := fun st => (∀ x, live x ↔ R.Live (st x)) ∧ ∀ x k, Chain E live k f x → Q (st x)) ?_ h
    ⟨hlive, h0⟩).2 x k hc
  rintro st e he ⟨hlive, hQ⟩
  refine ⟨fun x => (hlive x).trans (visit_live st e x).symm, fun x k hc => ?_⟩
  unfold visit
  rcases eq_or_ne x e.1 with rfl | hx
  · rw [Function.update_self]
    by_cases hl : R.Live (st e.1)
    · exact habs (hQ _ k hc) (hQ _ _ (hc.step ((hlive _).2 hl) he))
    · rw [hdead _ hl]
      exact hQ _ k hc
  · rw [Function.update_of_ne hx]
    exact hQ x k hc

/-! ## Passes along the levels -/

/-- The length of a shortest chain to a node. -/
noncomputable def level (E : F → F → Prop) (live : F → Prop) (f x : F) : ℕ := sInf {k | Chain E live k f x}

variable {f x y g : F} {k : ℕ} {edges : List (F × F)}

omit [DecidableEq F] in
lemma level_le (h : Chain E live k f x) : level E live f x ≤ k := Nat.sInf_le h

omit [DecidableEq F] in
lemma chain_level (h : Chain E live k f x) : Chain E live (level E live f x) f x :=
  Nat.sInf_mem (s := {k | Chain E live k f x}) ⟨k, h⟩

omit [DecidableEq F] in
lemma level_step (h : Chain E live k f x) (hx : live x) (he : E x y) : level E live f y ≤ level E live f x + 1 :=
  level_le ((chain_level h).step hx he)

lemma split_level {α : Type} {lev : α → ℕ} {l : List α} (h : l.Pairwise fun a b => lev b ≤ lev a) (n : ℕ) :
    l.filter (fun a => n ≤ lev a) ++ l.filter (fun a => lev a < n) = l := by
  induction l with
  | nil => rfl
  | cons a l ih =>
    obtain ⟨ha, h⟩ := List.pairwise_cons.1 h
    by_cases hn : n ≤ lev a
    · simp [hn, ih h]
    · -- all that follow are below `n` too
      have hnone : l.filter (fun a => n ≤ lev a) = [] :=
        List.filter_eq_nil_iff.2 fun b hb hle => hn ((of_decide_eq_true hle).trans (ha b hb))
      have hall : l.filter (fun a => lev a < n) = l :=
        List.filter_eq_self.2 fun b hb => decide_eq_true ((ha b hb).trans_lt (not_le.1 hn))
      rw [List.filter_cons_of_neg (by simpa using hn), List.filter_cons_of_pos (by simpa using hn), hnone, hall]
      rfl

/-- **A backward pass** takes up everything that is reached. -/
theorem backward_covers (hsane : ∀ x, R.Sane (st x)) (hlive : ∀ x, live x ↔ R.Live (st x))
    (hsorted : edges.Pairwise fun a b => level E live f b.1 ≤ level E live f a.1)
    (hc : Chain E live k f g) (hk : k = level E live f g)
    (hall : ∀ x y, E x y → level E live f x < k → (x, y) ∈ edges) : R.Covers (pass R edges st f) (st g) := by
  induction k generalizing st edges g with
  | zero =>
    cases hc
    exact pass_covers edges st f
  | succ n ih =>
    cases hc with
    | @step _ _ g' _ hc hg he =>
      have hlev : n = level E live f g' := by
        have := level_le hc
        have := level_step hc hg he
        omega
      -- the last edge is visited before those that start nearer
      have hsplit := split_level hsorted n
      have hlast : R.Covers (pass R (edges.filter fun e => n ≤ level E live f e.1) st g') (st g) :=
        pass_edge hsane ((hlive _).1 hg) (List.mem_filter.2 ⟨hall _ _ he (by omega), decide_eq_true hlev.le⟩)
      have hrest : R.Covers (pass R (edges.filter fun e => level E live f e.1 < n)
          (pass R (edges.filter fun e => n ≤ level E live f e.1) st) f)
          (pass R (edges.filter fun e => n ≤ level E live f e.1) st g') := ih (pass_sane _ hsane)
        (fun x => (hlive x).trans (pass_live _ st x).symm) (hsorted.sublist List.filter_sublist) hc hlev
        fun x y he hlt => List.mem_filter.2 ⟨hall x y he (by omega), decide_eq_true hlt⟩
      have heq : pass R edges st = pass R (edges.filter fun e => level E live f e.1 < n)
          (pass R (edges.filter fun e => n ≤ level E live f e.1) st) := by
        conv_lhs => rw [← hsplit]
        exact List.foldl_append
      rw [heq]
      exact R.trans hrest hlast

/-- **A forward pass** takes up what is one edge further away. -/
theorem forward_pass {Q : ℕ → L → Prop} (hmono : ∀ {m n a}, m ≤ n → Q m a → Q n a)
    (habs : ∀ {n a b}, Q n a → Q n b → Q n (R.absorb a b)) (hdead : ∀ {a} b, ¬R.Live a → R.absorb a b = a)
    (hE : ∀ e ∈ edges, E e.1 e.2) (hsorted : edges.Pairwise fun a b => level E live f a.1 ≤ level E live f b.1)
    (hlive : ∀ x, live x ↔ R.Live (st x)) {n : ℕ} (h : ∀ x k, Chain E live k f x → Q (level E live f x + n) (st x))
    (hc : Chain E live k f x) : Q (level E live f x + (n + 1)) (pass R edges st x) := by
  -- nodes up to level `c` may have been visited in this pass
  suffices hmid : ∀ (edges : List (F × F)) (st : F → L) (c : ℕ), (∀ e ∈ edges, E e.1 e.2) →
      (edges.Pairwise fun a b => level E live f a.1 ≤ level E live f b.1) → (∀ e ∈ edges, c ≤ level E live f e.1) →
      (∀ x, live x ↔ R.Live (st x)) → (∀ x k, Chain E live k f x →
        Q (level E live f x + (n + if level E live f x ≤ c then 1 else 0)) (st x)) →
      Q (level E live f x + (n + 1)) (pass R edges st x) from
    hmid edges st 0 hE hsorted (fun _ _ => Nat.zero_le _) hlive fun x k hc => hmono (by omega) (h x k hc)
  clear h hE hsorted hlive
  intro edges
  induction edges with
  | nil =>
    exact fun st c _ _ _ _ h => hmono (by split <;> omega) (h x k hc)
  | cons e edges ih =>
    intro st c hE hsorted hle hlive h
    obtain ⟨hbefore, hsorted⟩ := List.pairwise_cons.1 hsorted
    rw [List.forall_mem_cons] at hE hle
    refine ih (visit R st e) (level E live f e.1) hE.2 hsorted hbefore
      (fun x => (hlive x).trans (visit_live st e x).symm) fun x k hc => ?_
    unfold visit
    rcases eq_or_ne x e.1 with rfl | hx
    · rw [Function.update_self, if_pos le_rfl]
      have hself : Q (level E live f e.1 + (n + 1)) (st e.1) := hmono (by split <;> omega) (h _ k hc)
      by_cases hl : R.Live (st e.1)
      · have hx := (hlive _).2 hl
        have hnext := level_step hc hx hE.1
        refine habs hself (hmono ?_ (h _ _ (hc.step hx hE.1)))
        split <;> omega
      · rw [hdead _ hl]
        exact hself
    · rw [Function.update_of_ne hx]
      exact hmono (by split <;> split <;> omega) (h x k hc)

end

end BatchWeaver.Passes
