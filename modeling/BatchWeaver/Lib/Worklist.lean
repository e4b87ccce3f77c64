import Mathlib.Data.Fintype.Card
import Mathlib.Logic.Relation
import Mathlib.Tactic

/-!
# Worklists

A depth-first walk over a finite graph: a node is marked when it is put on the stack, so that it is put there
once. The walk returns the nodes in the order they are taken from the stack.

* `traverse_total`: as many turns as there are nodes, and one more, are enough.
* `mem_traverse`: the walk from a node visits exactly what can be reached from it.
-/

namespace BatchWeaver.Worklist

open List

variable {V : Type} [DecidableEq V]

/-- The marked nodes and the stack, its top first. -/
structure Work (V : Type) where
  seen : List V
  stack : List V

/-- Puts a node on the stack unless it is marked. -/
def push (w : Work V) (v : V) : Work V := if v ∈ w.seen then w else ⟨v :: w.seen, v :: w.stack⟩

/-- Takes a node from the stack and puts its successors there; none if the stack is empty. -/
def turn (next : V → List V) (w : Work V) : Option (V × Work V) :=
  match w.stack with
  | [] => none
  | v :: stack => some (v, (next v).foldl push ⟨w.seen, stack⟩)

/-- The nodes that are taken from the stack until it is empty; none if that takes more turns than given. -/
def traverse (next : V → List V) : ℕ → Work V → Option (List V)
  | 0, _ => none
  | fuel + 1, w =>
    match turn next w with
    | none => some []
    | some (v, w') => (traverse next fuel w').map (v :: ·)

/-- Only `v` is marked and on the stack. -/
def start (v : V) : Work V := push ⟨[], []⟩ v

/-! ## Enough turns -/

/-- A node is marked once, and what is on the stack is marked. -/
structure Work.OK (w : Work V) : Prop where
  nodup : w.seen.Nodup
  stack : ∀ v ∈ w.stack, v ∈ w.seen

/-- Nodes that are not marked yet, and nodes on the stack. -/
def Work.size [Fintype V] (w : Work V) : ℕ := (Fintype.card V - w.seen.length) + w.stack.length

variable {w : Work V} {vs : List V} {next : V → List V} {fuel : ℕ} {u : V}

lemma push_ok (h : w.OK) (v : V) : (push w v).OK := by
  unfold push
  split
  · exact h
  rename_i hv
  refine ⟨nodup_cons.2 ⟨hv, h.nodup⟩, fun u hu => ?_⟩
  rcases mem_cons.1 hu with rfl | hu
  · exact mem_cons_self
  · exact mem_cons_of_mem _ (h.stack u hu)

lemma push_size [Fintype V] (h : w.OK) (v : V) : (push w v).size = w.size := by
  have hpush := (push_ok h v).nodup.length_le_card
  unfold push at hpush ⊢
  split
  · rfl
  rename_i hv
  rw [if_neg hv] at hpush
  unfold Work.size
  simp only [length_cons] at hpush ⊢
  omega

lemma pushAll (h : w.OK) (vs : List V) : (vs.foldl push w).OK := by
  induction vs generalizing w with
  | nil => exact h
  | cons v vs ih => exact ih (push_ok h v)

lemma pushAll_size [Fintype V] (h : w.OK) (vs : List V) : (vs.foldl push w).size = w.size := by
  induction vs generalizing w with
  | nil => rfl
  | cons v vs ih => rw [foldl_cons, ih (push_ok h v), push_size h v]

/-- **The walk ends**, after at most one turn for each node. -/
theorem traverse_total [Fintype V] (next : V → List V) (h : w.OK) (hfuel : w.size < fuel) :
    ∃ vs, traverse next fuel w = some vs := by
  induction fuel generalizing w with
  | zero => omega
  | succ fuel ih =>
    obtain ⟨seen, stack⟩ := w
    cases stack with
    | nil => exact ⟨[], rfl⟩
    | cons v stack =>
      have hrest : Work.OK ⟨seen, stack⟩ := ⟨h.nodup, fun u hu => h.stack u (mem_cons_of_mem _ hu)⟩
      have hsize : ((next v).foldl push ⟨seen, stack⟩).size < fuel := by
        rw [pushAll_size hrest]
        unfold Work.size at hfuel ⊢
        simp only [length_cons] at hfuel ⊢
        omega
      obtain ⟨vs, hvs⟩ := ih (pushAll hrest _) hsize
      exact ⟨v :: vs, by simp only [traverse, turn, hvs, Option.map_some]⟩

lemma start_ok (v : V) : (start v).OK := push_ok ⟨nodup_nil, nofun⟩ v

lemma start_size [Fintype V] (v : V) : (start v).size = Fintype.card V := by
  unfold start
  rw [push_size ⟨nodup_nil, nofun⟩]
  rfl

/-! ## What is visited -/

lemma mem_push {v u : V} : u ∈ (push w v).seen ↔ u = v ∨ u ∈ w.seen := by
  unfold push
  split
  · rename_i hv
    constructor
    · exact .inr
    rintro (rfl | hu)
    · exact hv
    · exact hu
  · exact mem_cons

lemma mem_pushAll : u ∈ (vs.foldl push w).seen ↔ u ∈ vs ∨ u ∈ w.seen := by
  induction vs generalizing w with
  | nil => simp
  | cons v vs ih =>
    rw [foldl_cons, ih, mem_push, mem_cons]
    tauto

lemma stack_push {v u : V} (h : u ∈ (push w v).stack) : u = v ∨ u ∈ w.stack := by
  unfold push at h
  split at h
  · exact .inr h
  · exact mem_cons.1 h

lemma stack_pushAll (h : u ∈ (vs.foldl push w).stack) : u ∈ vs ∨ u ∈ w.stack := by
  induction vs generalizing w with
  | nil => exact .inr h
  | cons v vs ih =>
    rcases ih h with h | h
    · exact .inl (mem_cons_of_mem _ h)
    rcases stack_push h with rfl | h
    · exact .inl mem_cons_self
    · exact .inr h

lemma stack_keep (h : u ∈ w.stack) (vs : List V) : u ∈ (vs.foldl push w).stack := by
  induction vs generalizing w with
  | nil => exact h
  | cons v vs ih =>
    refine ih ?_
    unfold push
    split
    · exact h
    · exact mem_cons_of_mem _ h

/-- A node that was marked now is on the stack. -/
lemma stack_of_seen (h : u ∈ (vs.foldl push w).seen) : u ∈ (vs.foldl push w).stack ∨ u ∈ w.seen := by
  induction vs generalizing w with
  | nil => exact .inr h
  | cons v vs ih =>
    rcases ih h with h | h
    · exact .inl h
    by_cases hu : u ∈ w.seen
    · exact .inr hu
    left
    rcases mem_push.1 h with rfl | h
    · refine stack_keep ?_ vs
      unfold push
      rw [if_neg hu]
      exact mem_cons_self
    · exact absurd h hu

/-- What the walk visits is on the stack or reached from it. -/
lemma traverse_sound (h : traverse next fuel w = some vs) :
    ∀ u ∈ vs, ∃ v ∈ w.stack, Relation.ReflTransGen (fun a b => b ∈ next a) v u := by
  induction fuel generalizing w vs with
  | zero => cases h
  | succ fuel ih =>
    obtain ⟨seen, stack⟩ := w
    cases stack with
    | nil =>
      cases h
      exact nofun
    | cons v stack =>
      obtain ⟨rest, hrest, rfl⟩ := Option.map_eq_some_iff.1 h
      intro u hu
      rcases mem_cons.1 hu with rfl | hu
      · exact ⟨u, mem_cons_self, Relation.ReflTransGen.refl⟩
      obtain ⟨x, hx, hreach⟩ := ih hrest u hu
      rcases stack_pushAll hx with hx | hx
      · exact ⟨v, mem_cons_self, Relation.ReflTransGen.head hx hreach⟩
      · exact ⟨x, mem_cons_of_mem _ hx, hreach⟩

/-- What is on the stack is visited, and with a node its successors, unless they were marked before. -/
lemma traverse_complete (h : traverse next fuel w = some vs) :
    (∀ u ∈ w.stack, u ∈ vs) ∧ ∀ u ∈ vs, ∀ x ∈ next u, x ∈ vs ∨ x ∈ w.seen := by
  induction fuel generalizing w vs with
  | zero => cases h
  | succ fuel ih =>
    obtain ⟨seen, stack⟩ := w
    cases stack with
    | nil =>
      cases h
      exact ⟨nofun, nofun⟩
    | cons v stack =>
      obtain ⟨rest, hrest, rfl⟩ := Option.map_eq_some_iff.1 h
      obtain ⟨hstack, hnext⟩ := ih hrest
      -- what is marked after the turn was marked before it or is visited later
      have hseen : ∀ x, x ∈ ((next v).foldl push ⟨seen, stack⟩).seen → x ∈ v :: rest ∨ x ∈ seen := by
        intro x hx
        rcases stack_of_seen hx with hx | hx
        · exact .inl (mem_cons_of_mem _ (hstack x hx))
        · exact .inr hx
      constructor
      · intro u hu
        rcases mem_cons.1 hu with rfl | hu
        · exact mem_cons_self
        · exact mem_cons_of_mem _ (hstack u (stack_keep hu _))
      intro u hu x hx
      rcases mem_cons.1 hu with rfl | hu
      · exact hseen x (mem_pushAll.2 (.inl hx))
      rcases hnext u hu x hx with hx | hx
      · exact .inl (mem_cons_of_mem _ hx)
      · exact hseen x hx

/-- **The walk visits what can be reached.** -/
theorem mem_traverse {v : V} (h : traverse next fuel (start v) = some vs) (u : V) :
    u ∈ vs ↔ Relation.ReflTransGen (fun a b => b ∈ next a) v u := by
  have hstart : start v = ⟨[v], [v]⟩ := rfl
  constructor
  · intro hu
    obtain ⟨x, hx, hreach⟩ := traverse_sound h u hu
    rw [hstart, mem_singleton] at hx
    rwa [hx] at hreach
  intro hreach
  obtain ⟨hstack, hnext⟩ := traverse_complete h
  have hv : v ∈ vs := hstack v (by rw [hstart]; exact mem_singleton_self v)
  induction hreach with
  | refl => exact hv
  | tail _ hstep ih =>
    rcases hnext _ ih _ hstep with hx | hx
    · exact hx
    · rw [hstart, mem_singleton] at hx
      rwa [hx]

end BatchWeaver.Worklist
