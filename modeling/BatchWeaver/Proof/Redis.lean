import BatchWeaver.Spec.Redis

/-!
# Pipelines decode what was queued

* `queueLoop_cases`: what the callback of the pipeline leaves behind.
* `pipeline_decodes_queued`, `pipeline_decodes_nil`: when `Decode` is called with queued commands only, and when not.
-/

namespace BatchWeaver.Redis

variable {K V C E : Type}

lemma queueLoop_length (queue : ℕ → K → Option C) (items : List (BatchItem K)) (i : ℕ) :
    (queueLoop (E := E) queue i items).1.length = items.length := by
  induction items generalizing i with
  | nil => rfl
  | cons item rest ih =>
    unfold queueLoop
    split <;> simp [ih]

/-- The first item for which `Queue` returns nil. -/
def FirstNil (queue : ℕ → K → Option C) (items : List (BatchItem K)) (i : ℕ) : Prop :=
  (∃ item, items[i]? = some item ∧ queue i item.key = none) ∧
    ∀ j < i, ∀ item, items[j]? = some item → queue j item.key ≠ none

lemma FirstNil.unique {queue : ℕ → K → Option C} {items : List (BatchItem K)} {i j : ℕ} (hi : FirstNil queue items i)
    (hj : FirstNil queue items j) : i = j := by
  obtain ⟨⟨a, ha, hnil⟩, hfirst⟩ := hi
  obtain ⟨⟨b, hb, hnil'⟩, hfirst'⟩ := hj
  rcases lt_trichotomy i j with hlt | heq | hlt
  · exact absurd hnil (hfirst' i hlt a ha)
  · exact heq
  · exact absurd hnil' (hfirst j hlt b hb)

/-- `Queue` returned nil for a first item, which is the callback's error, or every entry is the command it returned. -/
lemma queueLoop_cases (queue : ℕ → K → Option C) (items : List (BatchItem K)) (i : ℕ) :
    (∃ j, FirstNil (fun n => queue (i + n)) items j ∧ (queueLoop (E := E) queue i items).1[j]? = some none ∧
      (queueLoop (E := E) queue i items).2 = some (.nilCommand (i + j))) ∨
    ∀ j item, items[j]? = some item → ∃ cmd, queue (i + j) item.key = some cmd ∧
      (queueLoop (E := E) queue i items).1[j]? = some (some cmd) := by
  induction items generalizing i with
  | nil => exact .inr fun j item h => by simp at h
  | cons item rest ih =>
    unfold queueLoop
    have hnext : ∀ j, i + 1 + j = i + (j + 1) := by omega
    cases hq : queue i item.key with
    | none => exact .inl ⟨0, ⟨⟨item, rfl, hq⟩, nofun⟩, rfl, rfl⟩
    | some cmd =>
      rcases ih (i + 1) with ⟨j, ⟨⟨it, hj, hnil⟩, hfirst⟩, hget, herr⟩ | hrest
      · simp only [hnext] at hnil hfirst herr
        refine .inl ⟨j + 1, ⟨⟨it, hj, hnil⟩, fun k hk it' hit' => ?_⟩, hget, herr⟩
        cases k with
        | zero =>
          rw [Option.some.inj hit'] at hq
          exact fun hnone => Option.some_ne_none cmd (hq.symm.trans hnone)
        | succ k => exact hfirst k (by omega) it' hit'
      refine .inr fun j it hj => ?_
      cases j with
      | zero => exact ⟨cmd, Option.some.inj hj ▸ hq, rfl⟩
      | succ j =>
        rw [← hnext]
        exact hrest j it hj

variable [Inhabited V]

lemma outcome_id (p : PipelineProvider K V C E) (item : BatchItem K) (cmd : Option C) :
    (p.outcome item cmd).requestID = item.id := by
  unfold PipelineProvider.outcome
  repeat' split
  all_goals rfl

lemma outcomes_ids (p : PipelineProvider K V C E) {items cmds} (h : cmds.length = items.length) {resp}
    (hr : newBatchResponse (List.zipWith p.outcome items cmds) = .ok resp) :
    resp.outcomes.map (·.requestID) = items.map (·.id) := by
  unfold newBatchResponse at hr
  split at hr <;> cases hr
  exact List.ext_getElem (by simp [h]) (by simp [outcome_id])

/-- A configured provider decodes nothing if the error of the pipeline is global, and what was queued otherwise. -/
lemma execute_decoded (p : PipelineProvider K V C E) (exec : Option E) (req : BatchRequest K) (hp : p.configured = true) :
    (p.execute exec req).1 =
      if ((queueLoop p.queue 0 req.items).2 <|> exec.map PipeError.client).filter p.isGlobal = none then
        (queueLoop (E := E) p.queue 0 req.items).1 else [] := by
  unfold PipelineProvider.execute
  rw [hp, if_neg (by decide)]
  dsimp only
  split
  · rename_i herr
    rw [herr, if_neg (Option.some_ne_none _)]
  · rename_i herr
    rw [herr, if_pos rfl]

lemma execute_ids (p : PipelineProvider K V C E) (exec : Option E) (req : BatchRequest K) {resp}
    (hr : (p.execute exec req).2 = .ok resp) : resp.outcomes.map (·.requestID) = req.items.map (·.id) := by
  unfold PipelineProvider.execute at hr
  split at hr
  · cases hr
  dsimp only at hr
  split at hr
  · cases hr
  split at hr <;> cases hr
  exact outcomes_ids p (queueLoop_length ..) ‹_›

/-- **Only queued commands are decoded** exactly when `GlobalError` holds for the error of the first nil command of a
configured provider, if there is one. -/
theorem pipeline_decodes_queued (p : PipelineProvider K V C E) (exec : Option E) (req : BatchRequest K) :
    ((∀ j cmd, (p.execute exec req).1[j]? = some cmd → ∃ item c, req.items[j]? = some item ∧
      p.queue j item.key = some c ∧ cmd = some c) ↔
      (p.configured = true → ∀ i, FirstNil p.queue req.items i → p.isGlobal (.nilCommand i) = true)) ∧
    ∀ resp, (p.execute exec req).2 = .ok resp → resp.outcomes.map (·.requestID) = req.items.map (·.id) := by
  refine ⟨?_, fun resp => execute_ids p exec req⟩
  cases hp : p.configured with
  | false =>
    have hnil : (p.execute exec req).1 = [] := by simp [PipelineProvider.execute, hp]
    simp [hnil]
  | true =>
    have hlen : (queueLoop (E := E) p.queue 0 req.items).1.length = req.items.length := queueLoop_length ..
    have hall := queueLoop_cases (E := E) p.queue req.items 0
    simp only [Nat.zero_add] at hall
    rw [execute_decoded p exec req hp]
    rcases hall with ⟨i, hi, hget, herr⟩ | hall
    · have hiff : (((queueLoop p.queue 0 req.items).2 <|> exec.map PipeError.client).filter p.isGlobal = none) ↔
          p.isGlobal (.nilCommand i) = false := by
        rw [herr]
        simp
      simp only [hiff]
      constructor
      · intro hdec _ i' hi'
        -- were the error not global, the nil command would be decoded
        rw [hi'.unique hi]
        by_contra hglobal
        rw [if_pos (Bool.eq_false_iff.2 hglobal)] at hdec
        obtain ⟨_, _, _, _, hnone⟩ := hdec i none hget
        cases hnone
      · intro hglobal j cmd hj
        simp [hglobal trivial i hi] at hj
    · refine iff_of_true (fun j cmd hj => ?_) fun _ i hi => ?_
      · split at hj
        · obtain ⟨item, hitem⟩ : ∃ item, req.items[j]? = some item :=
            ⟨_, List.getElem?_eq_getElem (hlen ▸ (List.getElem?_eq_some_iff.1 hj).1)⟩
          obtain ⟨c, hq, hget⟩ := hall j item hitem
          exact ⟨item, c, hitem, hq, Option.some.inj (hj.symm.trans hget)⟩
        · simp at hj
      · obtain ⟨item, hitem, hnil⟩ := hi.1
        obtain ⟨c, hq, -⟩ := hall i item hitem
        rw [hnil] at hq
        cases hq

/-- A provider whose errors are not global. -/
def demoProvider (queue : ℕ → Option ℕ) : PipelineProvider ℕ ℕ ℕ Unit :=
  ⟨true, fun _ => queue, fun _ cmd => .ok (cmd.getD 0), none, fun _ => false, fun _ => false⟩

theorem pipeline_decodes_queued_two : ∃ item c, [newBatchItem 1 4, newBatchItem 2 5][1]? = some item ∧
    (demoProvider some).queue 1 item.key = some c ∧ some 5 = some c :=
  (pipeline_decodes_queued (demoProvider some) none ⟨[newBatchItem 1 4, newBatchItem 2 5]⟩).1.2
    (fun _ _ ⟨⟨_, _, hnil⟩, _⟩ => absurd hnil (Option.some_ne_none _)) 1 (some 5) rfl

/-- The error of a nil command is not global by default: `Decode` is called with the nil command. -/
theorem pipeline_decodes_nil : ((demoProvider fun _ => none).execute none ⟨[newBatchItem 1 4]⟩).1 = [none] := rfl

end BatchWeaver.Redis
