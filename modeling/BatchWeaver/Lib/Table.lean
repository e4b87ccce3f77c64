import Mathlib.Data.List.AList
import Mathlib.Data.List.Sort
import Mathlib.Tactic

/-!
# Finite tables

A table is an association list with distinct keys (Mathlib's `AList`) whose
values have one type. `gather f` runs through the table and concatenates the
lists `f v` of its values: what a table of buckets or of batches holds in all.

* `lookup_insert_if`, `lookup_erase_if`: lookups after an update, at any key.
* `gather_insert`, `gather_erase`: an update changes what the table holds only
  by the entry it touches.
* `mem_gather`: an element is held exactly when some entry holds it.
-/

/-- A finite table from keys to values. -/
abbrev Table (κ β : Type*) := AList (fun _ : κ => β)

namespace Table

variable {κ β α : Type*} [DecidableEq κ]

lemma lookup_insert_if (m : Table κ β) (k k' : κ) (v : β) :
    (m.insert k v).lookup k' = if k' = k then some v else m.lookup k' := by
  split
  · rename_i h; subst h; exact AList.lookup_insert m
  · rename_i h; exact AList.lookup_insert_ne h

lemma lookup_erase_if (m : Table κ β) (k k' : κ) : (m.erase k).lookup k' = if k' = k then none else m.lookup k' := by
  split
  · rename_i h; subst h; exact AList.lookup_erase k' m
  · rename_i h; exact AList.lookup_erase_ne h

variable {m : Table κ β} {k : κ} {v : β}

variable {k' : κ} {x : β}

/-- What is found after an insertion is the new entry, or was there. -/
lemma of_lookup_insert (h : (m.insert k v).lookup k' = some x) : k' = k ∧ v = x ∨ k' ≠ k ∧ m.lookup k' = some x := by
  rw [lookup_insert_if] at h
  split at h
  · exact .inl ⟨‹_›, Option.some.inj h⟩
  · exact .inr ⟨‹_›, h⟩

lemma of_lookup_erase (h : (m.erase k).lookup k' = some x) : k' ≠ k ∧ m.lookup k' = some x := by
  rw [lookup_erase_if] at h
  split at h
  · cases h
  · exact ⟨‹_›, h⟩

lemma erase_of_lookup_none (h : m.lookup k = none) : m.erase k = m := by
  apply AList.ext
  exact List.kerase_of_notMem_keys (AList.lookup_eq_none.1 h)

lemma mem_entries {e : Sigma fun _ : κ => β} : e ∈ m.entries ↔ m.lookup e.1 = some e.2 := by
  obtain ⟨k, v⟩ := e
  exact (AList.mem_lookup_iff (a := k) (b := v) (s := m)).symm

lemma length_insert_new (h : m.lookup k = none) : (m.insert k v).entries.length = m.entries.length + 1 := by
  rw [AList.entries_insert_of_notMem (AList.lookup_eq_none.1 h), List.length_cons]

lemma entries_erase_perm (h : m.lookup k = some v) : m.entries.Perm (⟨k, v⟩ :: (m.erase k).entries) := by
  have hm : (⟨k, v⟩ : Sigma fun _ : κ => β) ∈ m.entries := mem_entries.2 h
  obtain ⟨v', l₁, l₂, -, h1, h2⟩ := List.exists_of_kerase (List.mem_keys_of_mem hm)
  have he : (m.erase k).entries = l₁ ++ l₂ := h2
  have hv : v' = v := by
    have hm' : (⟨k, v'⟩ : Sigma fun _ : κ => β) ∈ m.entries := by rw [h1]; simp
    have := mem_entries.1 hm'
    simp only at this
    rw [h] at this
    exact (Option.some.inj this).symm
  rw [he, h1, hv]
  exact List.perm_middle

lemma length_le_insert (m : Table κ β) (k : κ) (v : β) : m.entries.length ≤ (m.insert k v).entries.length := by
  cases h : m.lookup k with
  | none =>
    rw [length_insert_new h]
    omega
  | some v' =>
    have hlen := (entries_erase_perm h).length_eq
    have hins : (m.insert k v).entries = ⟨k, v⟩ :: (m.erase k).entries := AList.entries_insert
    rw [hlen, hins, List.length_cons, List.length_cons]

lemma length_erase (h : m.lookup k = some v) : m.entries.length = (m.erase k).entries.length + 1 := by
  rw [(entries_erase_perm h).length_eq, List.length_cons]

lemma length_replace {v v' : β} (h : m.lookup k = some v) : (m.insert k v').entries.length = m.entries.length := by
  rw [AList.entries_insert, List.length_cons, length_erase h]
  rfl

/-- The lists `f v` of the values `v` of a table, one after the other. -/
def gather {κ β α : Type*} (m : Table κ β) (f : β → List α) : List α := m.entries.flatMap fun e => f e.2

variable {f : β → List α}

lemma mem_gather {x : α} : x ∈ gather m f ↔ ∃ k v, m.lookup k = some v ∧ x ∈ f v := by
  unfold gather
  rw [List.mem_flatMap]
  constructor
  · rintro ⟨e, he, hx⟩; exact ⟨e.1, e.2, mem_entries.1 he, hx⟩
  · rintro ⟨k, v, hk, hx⟩; exact ⟨⟨k, v⟩, mem_entries.2 hk, hx⟩

lemma gather_insert (m : Table κ β) (k : κ) (v : β) (f : β → List α) :
    gather (m.insert k v) f = f v ++ gather (m.erase k) f := by
  unfold gather
  rw [AList.entries_insert]
  rfl

lemma gather_erase (h : m.lookup k = some v) (f : β → List α) : (gather m f).Perm (f v ++ gather (m.erase k) f) :=
  (entries_erase_perm h).flatMap_right _

/-- Replacing the value at a key replaces its part of what the table holds. -/
lemma gather_replace {v v' : β} (h : m.lookup k = some v) (hf : f v' = f v) :
    (gather (m.insert k v') f).Perm (gather m f) := by
  rw [gather_insert, hf]
  exact (gather_erase h f).symm

end Table
