import BatchWeaver.Spec.Dispatch

/-!
# Provider requests and responses

What the two checks of a provider call accept.

* `newBatchRequest_ok`: distinct valid items make a request.
* `validateAgainst_ok`: an accepted response has exactly one outcome per item.
* `lookup_byID`: the map that `distribute` builds finds that outcome.
-/

namespace BatchWeaver

open List

variable {K V E : Type}

/-! ## Requests -/

lemma checkItems_ok : ∀ (items : List (BatchItem K)) (i : ℕ) (seen : List RequestID),
    (∀ it ∈ items, it.validate = .ok ()) → (items.map (·.id)).Nodup →
    (∀ it ∈ items, it.id ∉ seen) → checkItems i seen items = .ok () := by
  intro items
  induction items with
  | nil => intro i seen _ _ _; rfl
  | cons it rest ih =>
    intro i seen hv hnd hs
    obtain ⟨hit, hnd⟩ := nodup_cons.1 (by simpa using hnd : (it.id :: rest.map (·.id)).Nodup)
    unfold checkItems
    rw [hv it (mem_cons_self ..)]
    simp only [if_neg (hs it (mem_cons_self ..))]
    apply ih (i + 1) (it.id :: seen) (fun x hx => hv x (mem_cons_of_mem _ hx)) hnd
    intro x hx hmem
    rcases mem_cons.1 hmem with h | h
    · exact hit (mem_map.2 ⟨x, hx, h⟩)
    · exact hs x (mem_cons_of_mem _ hx) h

/-- **Distinct valid items make a request.** -/
theorem newBatchRequest_ok {items : List (BatchItem K)} (hne : items ≠ [])
    (hv : ∀ it ∈ items, it.validate = .ok ()) (hnd : (items.map (·.id)).Nodup) :
    newBatchRequest items = .ok ⟨items⟩ := by
  unfold newBatchRequest
  rw [if_neg (fun h => hne (eq_nil_of_length_eq_zero h)), checkItems_ok items 0 [] hv hnd nofun]

/-! ## Responses -/

lemma checkOutcomes_nodup : ∀ (os : List (Outcome V E)) (i : ℕ) (seen : List RequestID),
    checkOutcomes i seen os = .ok () →
    (os.map (·.requestID)).Nodup ∧ (∀ o ∈ os, o.requestID ∉ seen) ∧ ∀ o ∈ os, o.validate = .ok () := by
  intro os
  induction os with
  | nil => intro i seen _; simp
  | cons o rest ih =>
    intro i seen h
    unfold checkOutcomes at h
    cases hv : o.validate with
    | error err => rw [hv] at h; cases h
    | ok u =>
      rw [hv] at h
      simp only at h
      split at h
      · cases h
      rename_i hns
      obtain ⟨h1, h2, h3⟩ := ih _ _ h
      refine ⟨?_, ?_, ?_⟩
      · rw [map_cons, nodup_cons]
        refine ⟨?_, h1⟩
        intro hm
        obtain ⟨x, hx, hxe⟩ := mem_map.1 hm
        exact h2 x hx (by rw [hxe]; exact mem_cons_self ..)
      · intro x hx
        rcases mem_cons.1 hx with rfl | hx
        · exact hns
        · intro hm; exact h2 x hx (mem_cons_of_mem _ hm)
      intro x hx
      rcases mem_cons.1 hx with rfl | hx
      · exact hv
      · exact h3 x hx

lemma filter_of_nodup {os : List (Outcome V E)} (hnd : (os.map (·.requestID)).Nodup)
    {o : Outcome V E} (ho : o ∈ os) : os.filter (fun x => x.requestID = o.requestID) = [o] := by
  induction os with
  | nil => cases ho
  | cons x rest ih =>
    rw [map_cons, nodup_cons] at hnd
    rcases mem_cons.1 ho with rfl | ho
    · rw [filter_cons_of_pos (by simp)]
      congr 1
      rw [filter_eq_nil_iff]
      intro y hy hye
      exact hnd.1 (mem_map.2 ⟨y, hy, by simpa using hye⟩)
    rw [filter_cons_of_neg, ih hnd.2 ho]
    intro hxe
    exact hnd.1 (mem_map.2 ⟨o, ho, (by simpa using hxe : x.requestID = o.requestID).symm⟩)

/-- **An accepted response has exactly one outcome, a valid one, for each id asked.** -/
theorem validateAgainst_ok {r : BatchResponse V E} {ids : List RequestID}
    (h : r.validateAgainst ids = .ok ()) {id : RequestID} (hid : id ∈ ids) :
    ∃ o, r.outcomes.filter (fun o => o.requestID = id) = [o] ∧ o.requestID = id ∧ o.validate = .ok () := by
  unfold BatchResponse.validateAgainst at h
  cases hv : r.validate with
  | error err => rw [hv] at h; cases h
  | ok u =>
    rw [hv] at h
    simp only at h
    split at h
    · cases h
    split at h
    · cases h
    rename_i hmiss
    obtain ⟨hnd, -, hval⟩ := checkOutcomes_nodup r.outcomes 0 [] hv
    have hin : id ∈ r.outcomes.map (·.requestID) := by
      have := find?_eq_none.1 hmiss id hid
      simpa using this
    obtain ⟨o, ho, rfl⟩ := mem_map.1 hin
    exact ⟨o, filter_of_nodup hnd ho, rfl, hval o ho⟩

lemma lookup_foldl_insert (os : List (Outcome V E)) (id : RequestID) : ∀ m : Table RequestID (Outcome V E),
    (os.foldl (fun m o => m.insert o.requestID o) m).lookup id =
      ((os.filter (fun o => o.requestID = id)).getLast?).or (m.lookup id) := by
  induction os using reverseRecOn with
  | nil => intro m; simp
  | append_singleton os o ih =>
    intro m
    rw [foldl_append, foldl_cons, foldl_nil, Table.lookup_insert_if, filter_append]
    by_cases he : id = o.requestID
    · rw [if_pos he, filter_cons_of_pos (by simp [he])]
      simp
    · rw [if_neg he, ih, filter_cons_of_neg (by simpa using Ne.symm he)]
      simp

/-- **The map of outcomes finds the one outcome of an id.** -/
theorem lookup_byID {r : BatchResponse V (GoError E)} {id : RequestID} {o : Outcome V (GoError E)}
    (h : r.outcomes.filter (fun o => o.requestID = id) = [o]) : (Coord.byID r).lookup id = some o := by
  unfold Coord.byID
  rw [lookup_foldl_insert, h]
  rfl

end BatchWeaver
