import BatchWeaver.Lib.Words

/-!
# Length-prefixed byte strings

A natural number is written in groups of seven bits, the lowest first, each byte but the last with
its high bit set (LEB128). A byte string is framed by its length in front of it. No frame is a proper
part of the beginning of another, so frames can be concatenated without separators:

* `Varint.decode_encode`: a number is read back, and what follows it.
* `Frame.append_inj`: a frame and what follows it are determined by their concatenation.
* `Frame.concat_injective`: so are the strings whose frames were concatenated.
-/

namespace Varint

/-- The bytes of a number. -/
def encode (n : ℕ) : List UInt8 :=
  if n < 128 then [UInt8.ofNat n] else UInt8.ofNat (n % 128 + 128) :: encode (n / 128)
termination_by n
decreasing_by exact Nat.div_lt_self (by omega) (by omega)

/-- The number at the beginning of `bytes` and what follows it; `none` if they end within it. -/
def decode : List UInt8 → Option (ℕ × List UInt8)
  | [] => none
  | b :: rest =>
    if b.toNat < 128 then some (b.toNat, rest)
    else (decode rest).map fun r => (b.toNat - 128 + 128 * r.1, r.2)

lemma toNat_ofNat {n : ℕ} (h : n < 256) : (UInt8.ofNat n).toNat = n := by
  rw [UInt8.toNat_ofNat']
  exact Nat.mod_eq_of_lt h

lemma encode_ne_nil (n : ℕ) : encode n ≠ [] := by
  rw [encode]
  split <;> simp

lemma decode_encode (n : ℕ) (rest : List UInt8) : decode (encode n ++ rest) = some (n, rest) := by
  induction n using Nat.strongRecOn with
  | ind n ih =>
    rw [encode]
    split
    · rename_i hn
      have hb : (UInt8.ofNat n).toNat = n := toNat_ofNat (by omega)
      rw [List.singleton_append, decode, hb, if_pos hn]
    have hb : (UInt8.ofNat (n % 128 + 128)).toNat = n % 128 + 128 := toNat_ofNat (by omega)
    have hrest := ih (n / 128) (Nat.div_lt_self (by omega) (by omega))
    rw [List.cons_append, decode, hb, if_neg (by omega), hrest, Option.map_some]
    -- the two groups make up the number
    have hsplit : n % 128 + 128 - 128 + 128 * (n / 128) = n := by omega
    rw [hsplit]

/-- Numbers are prefix-free. -/
lemma encode_append_inj {m n : ℕ} {r s : List UInt8} (h : encode m ++ r = encode n ++ s) : m = n ∧ r = s := by
  have hm := decode_encode m r
  rw [h, decode_encode n s] at hm
  simp only [Option.some.injEq, Prod.mk.injEq] at hm
  exact ⟨hm.1.symm, hm.2.symm⟩

end Varint

/-- A byte string with its length in front. -/
def frame (s : List UInt8) : List UInt8 := Varint.encode s.length ++ s

namespace Frame

lemma ne_nil (s : List UInt8) : frame s ≠ [] := by
  intro h
  exact Varint.encode_ne_nil s.length (List.append_eq_nil_iff.1 h).1

/-- **Frames are prefix-free.** -/
theorem append_inj {s t r r' : List UInt8} (h : frame s ++ r = frame t ++ r') : s = t ∧ r = r' := by
  unfold frame at h
  rw [List.append_assoc, List.append_assoc] at h
  obtain ⟨hlen, hrest⟩ := Varint.encode_append_inj h
  exact List.append_inj hrest hlen

/-- **The frames of a list determine it.** -/
theorem concat_injective : Function.Injective fun l : List (List UInt8) => l.flatMap frame := fun _ _ h =>
  Words.blocks_inj (P := fun _ => True) ne_nil (fun _ _ _ _ _ _ _ _ h => (append_inj h).1) (by simp) (by simp) h

end Frame
