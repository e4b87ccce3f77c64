import BatchWeaver.Spec.Partition
import BatchWeaver.Proof.Isolation

/-!
# Partitions keep their components apart

A composite encoding is the tag and the frames of the components, and frames are prefix-free:

* `partition_injective`: equal encodings come from equal components, whether these are strings or
  byte slices, and no composite partition is the single or the zero one.
* `batch_components`: the requests of a batch were submitted to partitions with the same components.
-/

namespace BatchWeaver

open List

/-- What the loop writes for a component is its frame: the length is below `2 ^ 64`. -/
lemma putUvarint_frame (v : Bytes) : putUvarint (UInt64.ofNat v.data.length) ++ v.data = frame v.data := by
  have hlen : (UInt64.ofNat v.data.length).toNat = v.data.length := by
    rw [UInt64.toNat_ofNat']
    exact Nat.mod_eq_of_lt (by have := v.short; omega)
  unfold putUvarint frame
  rw [hlen]

lemma writeComponents_eq (b : GoString) (values : List Bytes) :
    writeComponents b values = b ++ (values.map Bytes.data).flatMap frame := by
  unfold writeComponents
  induction values generalizing b with
  | nil => simp
  | cons v values ih =>
    rw [foldl_cons, ih, append_assoc b, putUvarint_frame, map_cons, flatMap_cons, append_assoc]

/-- The components can be read off what the loop wrote. -/
lemma writeComponents_inj {b : GoString} {xs ys : List Bytes}
    (h : writeComponents b xs = writeComponents b ys) : xs = ys := by
  rw [writeComponents_eq, writeComponents_eq] at h
  exact map_injective_iff.2 (fun _ _ => Bytes.ext) (Frame.concat_injective (append_cancel_left h))

lemma partitionFromStrings_inj {xs ys}
    (h : (partitionFromStrings xs).encoded = (partitionFromStrings ys).encoded) : xs = ys := by
  have hbytes : xs.map StringValue.bytes = ys.map StringValue.bytes := writeComponents_inj h
  exact map_injective_iff.2 (fun _ _ => StringValue.ext) hbytes

lemma partitionFromBytes_inj {xs ys}
    (h : (partitionFromBytes xs).encoded = (partitionFromBytes ys).encoded) : xs = ys := by
  have hbytes : xs.map SliceValue.bytes = ys.map SliceValue.bytes := writeComponents_inj h
  exact map_injective_iff.2 (fun _ _ => SliceValue.ext) hbytes

/-- **The encoding of partitions is injective.** -/
theorem partition_injective :
    (∀ xs ys, (partitionFromStrings xs).encoded = (partitionFromStrings ys).encoded ↔ xs = ys) ∧
    (∀ xs ys, (partitionFromBytes xs).encoded = (partitionFromBytes ys).encoded ↔ xs = ys) ∧
    (∀ xs, partitionFromBytes xs = partitionFromStrings (xs.map SliceValue.toString)) ∧
    ∀ xs, (partitionFromStrings xs).encoded ≠ singlePartition.encoded ∧
      (partitionFromStrings xs).encoded ≠ Partition.zero.encoded ∧ (partitionFromStrings xs).isZero = false := by
  refine ⟨fun xs ys => ⟨partitionFromStrings_inj, fun h => by rw [h]⟩,
    fun xs ys => ⟨partitionFromBytes_inj, fun h => by rw [h]⟩, fun xs => ?_, fun xs => ?_⟩
  · unfold partitionFromBytes partitionFromStrings
    rw [List.map_map]
    rfl
  have henc : (partitionFromStrings xs).encoded = tagComposite :: _ := writeComponents_eq [tagComposite] _
  refine ⟨fun h => ?_, fun h => ?_, ?_⟩
  · -- the tags differ
    rw [henc] at h
    exact absurd (List.cons.inj h).1 (by decide)
  · rw [henc] at h
    cases h
  unfold Partition.isZero
  rw [henc]
  rfl

/-- **A batch has the requests of one list of components**, the ones joined to its items included. -/
theorem batch_components {K V E : Type} [Inhabited K] [Inhabited V] {cfg : BindingConfig K}
    {es : List (Move K V E)} {c : Coord K V E} (h : (coordinator cfg).Reach es c) {id : BatchId}
    {xs : List StringValue} {reason : FlushReason} {dl : Option Time} {breq : BatchRequest K}
    (hst : Effect.start id (partitionFromStrings xs).encoded reason dl breq ∈ c.out) :
    ∀ it ∈ breq.ids, ∀ req ∈ submitted es, req.waiter ∈ (c.items it).waiters →
      ∀ ys, req.part = partitionFromStrings ys → ys = xs := by
  intro it hit req hreq hw ys hys
  obtain ⟨pk, hpk⟩ := (reach_homes h).home it
  obtain ⟨r, hr, hrw, hpart⟩ := hpk.waiter _ hw
  obtain rfl := submitted_unique h hr hreq hrw
  rw [hys, ← hpk.sent _ _ _ _ _ hst hit] at hpart
  exact partitionFromStrings_inj hpart

def tenant : List StringValue := [⟨⟨str "a", by decide⟩⟩, ⟨⟨str "b", by decide⟩⟩]

/-- A request that joins another one's item. -/
theorem batch_components_tenant :
    let part := (partitionFromStrings tenant).encoded
    let c := demoRun .manual [demoSubmit part 7 1 none, demoSubmit part 7 2 none, demoControl .flush 1]
    2 ∈ (c.items 1).waiters ∧ ∀ ys, ⟨part⟩ = partitionFromStrings ys → ys = tenant := by
  intro part c
  have hst : Effect.start 1 part .manual none ⟨[⟨1, 7, 0, 0, 1⟩]⟩ ∈ c.out := by decide +kernel
  have hw : (demoReq part 7 2).waiter ∈ (c.items 1).waiters := by decide +kernel
  have hr : (coordinator (demo .manual)).Reach _ c := System.reach_of_allowed (by decide +kernel)
  exact ⟨hw, batch_components hr hst 1 (by decide) _ (.tail _ (.head _)) hw⟩

end BatchWeaver
