import Mathlib.Data.List.Dedup
import Mathlib.Data.List.Sort
import Mathlib.Tactic

/-!
# Words and sorted sets

Two ways of writing a list of words as one word: each word followed by a terminator, or a separator
between neighbours. Neither has lengths or an escape, so the list can be read back only from words
that do not contain the mark. A finite set is written as the sorted list of its elements.

* `Words.blocks_inj`: blocks are determined by their concatenation if the first is determined by it.
* `Words.terminate_inj`: words without the terminator are determined by their concatenation.
* `Words.intercalate_inj`: so are non-empty words without the separator.
* `Words.groups_inj`: in a list of heads, each followed by its tail, heads and tails are told apart when
  no element of a tail can be a head, and by `Words.groups_inj_length` when all tails are equally long.
* `Words.coded_inj`: terminated words, each followed by a code, are read back when no code begins another.
* `sortedSet_inj`: sorted lists without repetition are equal when they have the same elements.
-/

namespace Words

open List

variable {α β : Type*}

/-- The words one after another, each followed by `t`. -/
def terminate (t : α) (ws : List (List α)) : List α := ws.flatMap fun w => w ++ [t]

@[simp] theorem terminate_nil (t : α) : terminate t [] = [] := rfl

@[simp] theorem terminate_cons (t : α) (w : List α) (ws : List (List α)) :
    terminate t (w :: ws) = w ++ t :: terminate t ws := by
  simp [terminate]

lemma terminate_append (t : α) (ws vs : List (List α)) : terminate t (ws ++ vs) = terminate t ws ++ terminate t vs := by
  simp [terminate]

variable {l k : List (β × List β)} {t : α}

/-- A word without elements of `P` ends where the first of them stands. -/
lemma append_cut_inj {P : α → Prop} {u v r s : List α} (hu : ∀ x ∈ u, ¬P x) (hv : ∀ x ∈ v, ¬P x)
    (hr : ∀ x ∈ r.head?, P x) (hs : ∀ x ∈ s.head?, P x) (h : u ++ r = v ++ s) : u = v := by
  induction u generalizing v with
  | nil =>
    cases v with
    | nil => rfl
    | cons b v => exact absurd (hr b (congrArg head? h)) (hv b mem_cons_self)
  | cons a u ih =>
    cases v with
    | nil => exact absurd (hs a (congrArg head? h.symm)) (hu a mem_cons_self)
    | cons b v =>
      rw [forall_mem_cons] at hu hv
      obtain ⟨rfl, hrest⟩ := cons.inj h
      rw [ih hu.2 hv.2 hrest]

/-- The first mark ends the first word. -/
lemma append_mark_inj {u v r s : List α} (hu : t ∉ u) (hv : t ∉ v) (h : u ++ t :: r = v ++ t :: s) : u = v ∧ r = s := by
  obtain rfl : u = v := append_cut_inj (P := (· = t)) (fun x hx he => hu (he ▸ hx)) (fun x hx he => hv (he ▸ hx))
    (by simp) (by simp) h
  exact ⟨rfl, (cons.inj (append_cancel_left h)).2⟩

/-- **Blocks are read back** when the first of them is determined by the word they make. -/
theorem blocks_inj {γ : Type*} {f : γ → List α} {P : γ → Prop} (hne : ∀ a, f a ≠ [])
    (hfirst : ∀ a b (l k : List γ), P a → P b → (∀ x ∈ l, P x) → (∀ x ∈ k, P x) →
      f a ++ l.flatMap f = f b ++ k.flatMap f → a = b) {l k : List γ} (hl : ∀ x ∈ l, P x) (hk : ∀ x ∈ k, P x)
    (h : l.flatMap f = k.flatMap f) : l = k := by
  induction l generalizing k with
  | nil =>
    cases k with
    | nil => rfl
    | cons b k => exact absurd (append_eq_nil_iff.1 h.symm).1 (hne b)
  | cons a l ih =>
    cases k with
    | nil => exact absurd (append_eq_nil_iff.1 h).1 (hne a)
    | cons b k =>
      rw [forall_mem_cons] at hl hk
      obtain rfl := hfirst a b l k hl.1 hk.1 hl.2 hk.2 h
      rw [ih hl.2 hk.2 (append_cancel_left h)]

/-- **Terminated words are read back** when none contains the terminator. -/
theorem terminate_inj {ws vs : List (List α)} (hws : ∀ w ∈ ws, t ∉ w) (hvs : ∀ v ∈ vs, t ∉ v)
    (h : terminate t ws = terminate t vs) : ws = vs := by
  refine blocks_inj (P := (t ∉ ·)) (by simp) (fun w v l k hw hv _ _ h => ?_) hws hvs h
  rw [append_assoc, append_assoc] at h
  exact (append_mark_inj hw hv h).1

/-- Behind a last mark the separated words are the terminated ones. -/
lemma intercalate_mark (t : α) (ws : List (List α)) (h : ws ≠ []) : [t].intercalate ws ++ [t] = terminate t ws := by
  induction ws with
  | nil => exact absurd rfl h
  | cons w ws ih =>
    cases ws with
    | nil => simp [intercalate]
    | cons v ws =>
      have hrest := ih (by simp)
      have hcons : [t].intercalate (w :: v :: ws) = w ++ [t] ++ [t].intercalate (v :: ws) := by
        simp [intercalate]
      rw [hcons, terminate_cons, ← hrest]
      simp

lemma intercalate_ne_nil {ws : List (List α)} (hne : ws ≠ []) (hws : ∀ w ∈ ws, w ≠ []) : [t].intercalate ws ≠ [] := by
  intro hnil
  have hmark := intercalate_mark t ws hne
  rw [hnil] at hmark
  cases ws with
  | nil => exact hne rfl
  | cons w ws =>
    have hw : w ≠ [] := hws w mem_cons_self
    have hlen := congrArg length hmark
    have hpos := length_pos_iff.2 hw
    simp at hlen
    omega

/-- **Separated words are read back** when none is empty and none contains the separator. -/
theorem intercalate_inj {ws vs : List (List α)} (hws : ∀ w ∈ ws, w ≠ [] ∧ t ∉ w)
    (hvs : ∀ v ∈ vs, v ≠ [] ∧ t ∉ v) (h : [t].intercalate ws = [t].intercalate vs) : ws = vs := by
  rcases eq_or_ne ws [] with rfl | hw
  · rcases eq_or_ne vs [] with rfl | hv
    · rfl
    · exact absurd h.symm (intercalate_ne_nil hv fun v hm => (hvs v hm).1)
  rcases eq_or_ne vs [] with rfl | hv
  · exact absurd h (intercalate_ne_nil hw fun w hm => (hws w hm).1)
  have hmark : terminate t ws = terminate t vs := by
    rw [← intercalate_mark t ws hw, ← intercalate_mark t vs hv, h]
  exact terminate_inj (fun w hm => (hws w hm).2) (fun v hm => (hvs v hm).2) hmark

lemma mem_intercalate {t x : α} {ws : List (List α)} (h : x ∈ [t].intercalate ws) : x = t ∨ ∃ w ∈ ws, x ∈ w := by
  rcases eq_or_ne ws [] with rfl | hne
  · exact absurd h (by simp [intercalate])
  have hmem : x ∈ terminate t ws := by
    rw [← intercalate_mark t ws hne]
    exact mem_append_left _ h
  obtain ⟨w, hw, hx⟩ := mem_flatMap.1 hmem
  rcases mem_append.1 hx with hx | hx
  · exact .inr ⟨w, hw, hx⟩
  · exact .inl (mem_singleton.1 hx)

/-! ## Heads and tails -/

/-- Every head followed by its tail. -/
def groups (l : List (β × List β)) : List β := l.flatMap fun g => g.1 :: g.2

@[simp] theorem groups_nil : groups ([] : List (β × List β)) = [] := rfl

@[simp] theorem groups_cons (g : β × List β) (l : List (β × List β)) :
    groups (g :: l) = g.1 :: (g.2 ++ groups l) := by
  simp [groups]

lemma head?_groups {P : β → Prop} (hl : ∀ g ∈ l, P g.1) : ∀ x ∈ (groups l).head?, P x := by
  cases l with
  | nil => simp
  | cons g l => simpa using hl g mem_cons_self

/-- **Groups are read back** when `P` tells heads from the elements of tails. -/
theorem groups_inj {P : β → Prop} (hl : ∀ g ∈ l, P g.1 ∧ ∀ x ∈ g.2, ¬P x)
    (hk : ∀ g ∈ k, P g.1 ∧ ∀ x ∈ g.2, ¬P x) (h : groups l = groups k) : l = k := by
  refine blocks_inj (by simp) (fun g g' l k hg hg' hl hk h => ?_) hl hk h
  obtain ⟨hhead, htail⟩ := cons.inj h
  exact Prod.ext hhead (append_cut_inj hg.2 hg'.2 (head?_groups fun x hx => (hl x hx).1)
    (head?_groups fun x hx => (hk x hx).1) htail)

/-- Groups whose tails all have the same length are read back as well. -/
lemma groups_inj_length {n : ℕ} (hl : ∀ g ∈ l, g.2.length = n) (hk : ∀ g ∈ k, g.2.length = n)
    (h : groups l = groups k) : l = k := by
  refine blocks_inj (by simp) (fun g g' l k hg hg' _ _ h => ?_) hl hk h
  obtain ⟨hhead, htail⟩ := cons.inj h
  exact Prod.ext hhead (append_inj htail (hg.trans hg'.symm)).1

/-- **Words with codes are read back** when no word contains the terminator and no code begins another one. -/
theorem coded_inj {γ : Type*} {code : γ → List α} (hcode : ∀ a b, code a <+: code b → a = b)
    {ps qs : List (List α × γ)} (hps : ∀ p ∈ ps, t ∉ p.1) (hqs : ∀ q ∈ qs, t ∉ q.1)
    (h : (ps.flatMap fun p => p.1 ++ t :: code p.2) = qs.flatMap fun q => q.1 ++ t :: code q.2) : ps = qs := by
  refine blocks_inj (by simp) (fun p q l k hp hq _ _ h => ?_) hps hqs h
  simp only [append_assoc, cons_append] at h
  obtain ⟨hword, hrest⟩ := append_mark_inj hp hq h
  -- one of the two codes at the front begins the other
  refine Prod.ext hword ?_
  rcases prefix_or_prefix_of_prefix (prefix_append (code p.2) _) (hrest ▸ prefix_append (code q.2) _) with hpre | hpre
  · exact hcode _ _ hpre
  · exact (hcode _ _ hpre).symm

lemma mem_groups {l : List (β × List β)} {x : β} : x ∈ groups l ↔ ∃ g ∈ l, x = g.1 ∨ x ∈ g.2 := by
  simp [groups]

end Words

/-! ## Sorted sets -/

section

variable {α : Type*} [DecidableEq α] (r : α → α → Prop) [DecidableRel r]

/-- The elements of a list in increasing order, each once. -/
def sortedSet (l : List α) : List α := l.dedup.insertionSort r

lemma mem_sortedSet {l : List α} {x : α} : x ∈ sortedSet r l ↔ x ∈ l := by
  rw [sortedSet, List.mem_insertionSort, List.mem_dedup]

lemma nodup_sortedSet (l : List α) : (sortedSet r l).Nodup :=
  (List.perm_insertionSort r l.dedup).nodup_iff.2 (List.nodup_dedup l)

/-- A sorted list without repetition is determined by its elements. -/
lemma sortedSet_inj [Std.Total r] [IsTrans α r] [Std.Antisymm r] {l k : List α} :
    sortedSet r l = sortedSet r k ↔ ∀ x, x ∈ l ↔ x ∈ k := by
  constructor
  · intro h x
    rw [← mem_sortedSet r, h, mem_sortedSet r]
  intro h
  have hperm : (sortedSet r l).Perm (sortedSet r k) := by
    rw [List.perm_ext_iff_of_nodup (nodup_sortedSet r l) (nodup_sortedSet r k)]
    intro x
    rw [mem_sortedSet r, mem_sortedSet r, h x]
  exact hperm.eq_of_pairwise (fun a b _ _ hab hba => Std.Antisymm.antisymm a b hab hba)
    (List.pairwise_insertionSort r _) (List.pairwise_insertionSort r _)

end
