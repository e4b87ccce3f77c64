import Mathlib.Data.Nat.Digits.Defs
import BatchWeaver.Lib.Words

/-!
# Strings and digests

The functions of Go's `strings`, `sort`, `strconv` and `hex` packages that the model uses, over byte
strings, and the digests built from them (`ids.go` of `internal/proof` and of `internal/transform`).
Letters are the ASCII ones: `toLower` and `toUpper` leave every other byte alone.

SHA-256 is taken to be injective, as a `Sha256` carries. No function into 32 bytes is, so the sum may
have any length but zero.
-/

namespace BatchWeaver

/-- A Go string: any bytes. -/
abbrev GoString := List UInt8

instance instLawfulBEqGoString : LawfulBEq GoString := List.instLawfulBEq

/-- The bytes of a literal. -/
def str (s : String) : GoString := s.toUTF8.data.toList

def isUpper (c : UInt8) : Bool := decide (65 ≤ c.toNat ∧ c.toNat ≤ 90)

def isLower (c : UInt8) : Bool := decide (97 ≤ c.toNat ∧ c.toNat ≤ 122)

def isDigit (c : UInt8) : Bool := decide (48 ≤ c.toNat ∧ c.toNat ≤ 57)

def lowerByte (c : UInt8) : UInt8 := if isUpper c then UInt8.ofNat (c.toNat + 32) else c

def upperByte (c : UInt8) : UInt8 := if isLower c then UInt8.ofNat (c.toNat - 32) else c

/-- `strings.ToLower` -/
def toLower (s : GoString) : GoString := s.map lowerByte

/-- `strings.ToUpper` -/
def toUpper (s : GoString) : GoString := s.map upperByte

/-- `strings.HasPrefix` -/
def hasPrefix (s p : GoString) : Bool := p.isPrefixOf s

/-- `strings.TrimPrefix` -/
def trimPrefix (s p : GoString) : GoString := if hasPrefix s p then s.drop p.length else s

/-- `strings.Join` -/
def joinStrings (l : List GoString) (sep : GoString) : GoString := sep.intercalate l

/-- `sort.Strings` -/
def sortStrings (l : List GoString) : List GoString := l.insertionSort fun a b => a ≤ b

/-- The keys of a map, sorted. -/
def sortedKeys (l : List GoString) : List GoString := sortedSet (fun a b => a ≤ b) l

/-- `strconv.Itoa` on a natural number -/
def itoa (n : ℕ) : GoString :=
  if n = 0 then [48] else (Nat.digits 10 n).reverse.map fun d => UInt8.ofNat (48 + d)

/-- `fmt.Sprintf("%d", n)` and `strconv.FormatInt(n, 10)` -/
def formatInt (n : ℤ) : GoString := if n < 0 then str "-" ++ itoa n.natAbs else itoa n.natAbs

/-- The number that digits write. -/
def digitsValue (digits : GoString) : ℕ := digits.foldl (fun n c => n * 10 + (c.toNat - 48)) 0

/-- A sign and what follows it. -/
def cutSign : GoString → Bool × GoString
  | 43 :: rest => (false, rest)
  | 45 :: rest => (true, rest)
  | rest => (false, rest)

/-- `strconv.ParseInt(s, 10, 64)` -/
def parseInt (s : GoString) : Option ℤ :=
  let digits := (cutSign s).2
  let n : ℤ := if (cutSign s).1 then -digitsValue digits else digitsValue digits
  if digits ≠ [] ∧ digits.all isDigit ∧ -2 ^ 63 ≤ n ∧ n < 2 ^ 63 then some n else none

def hexDigit (n : ℕ) : UInt8 := UInt8.ofNat (if n < 10 then 48 + n else 87 + n)

/-- `hex.EncodeToString` -/
def hexEncode (b : GoString) : GoString :=
  b.flatMap fun x => [hexDigit (x.toNat / 16), hexDigit (x.toNat % 16)]

/-- A stand-in for `crypto/sha256`. -/
structure Sha256 where
  sum : GoString → GoString
  injective : Function.Injective sum
  nonempty : ∀ b, sum b ≠ []

/-- Some injective sum. -/
def Sha256.plain : Sha256 where
  sum b := 0 :: b
  injective := List.cons_injective
  nonempty b := List.cons_ne_nil 0 b

variable (H : Sha256)

/-- `hashParts` of both packages: every part is followed by a zero byte. -/
def hashParts (parts : List GoString) : GoString := hexEncode (H.sum (Words.terminate 0 parts))

/-- `hashBytes` -/
def hashBytes (b : GoString) : GoString := str "sha256:" ++ hexEncode (H.sum b)

/-- `shortID` -/
def shortID (pre : GoString) (parts : List GoString) : GoString :=
  pre ++ str "_" ++ (hashParts H parts).take 12

/-! ## Order -/

instance : Std.Total (fun a b : GoString => a ≤ b) := ⟨List.le_total⟩

instance : IsTrans GoString (fun a b : GoString => a ≤ b) := ⟨fun _ _ _ => List.le_trans⟩

instance : Std.Antisymm (fun a b : GoString => a ≤ b) := ⟨fun _ _ => List.le_antisymm⟩

variable {l : List GoString} {x : GoString}

lemma mem_sortedKeys : x ∈ sortedKeys l ↔ x ∈ l :=
  mem_sortedSet _

lemma sortedKeys_inj {k : List GoString} : sortedKeys l = sortedKeys k ↔ ∀ x, x ∈ l ↔ x ∈ k :=
  sortedSet_inj _

lemma mem_sortStrings : x ∈ sortStrings l ↔ x ∈ l :=
  List.mem_insertionSort _

lemma sortStrings_perm {k : List GoString} (h : l.Perm k) : sortStrings l = sortStrings k := by
  have hperm : (sortStrings l).Perm (sortStrings k) :=
    ((List.perm_insertionSort _ l).trans h).trans (List.perm_insertionSort _ k).symm
  exact hperm.eq_of_pairwise (fun a b _ _ hab hba => List.le_antisymm hab hba)
    (List.pairwise_insertionSort _ _) (List.pairwise_insertionSort _ _)

/-! ## Numbers -/

lemma itoa_digits (n : ℕ) : ∀ c ∈ itoa n, isDigit c = true := by
  intro c hc
  unfold itoa at hc
  split at hc
  · rw [List.mem_singleton.1 hc]
    decide
  · obtain ⟨d, hd, rfl⟩ := List.mem_map.1 hc
    have hlt : d < 10 := Nat.digits_lt_base (by decide) (List.mem_reverse.1 hd)
    have hall : ∀ d : Fin 10, isDigit (UInt8.ofNat (48 + d)) = true := by decide
    exact hall ⟨d, hlt⟩

lemma digitsValue_itoa (n : ℕ) : digitsValue (itoa n) = n := by
  unfold itoa
  split
  · rename_i hn
    rw [hn]
    decide
  have hbyte : ∀ d : Fin 10, (UInt8.ofNat (48 + d)).toNat - 48 = d := by decide
  have hfold : ∀ l : List ℕ, (∀ d ∈ l, d < 10) →
      digitsValue (l.reverse.map fun d => UInt8.ofNat (48 + d)) = Nat.ofDigits 10 l := by
    intro l hl
    induction l with
    | nil => rfl
    | cons d l ih =>
      have hd : (UInt8.ofNat (48 + d)).toNat - 48 = d := hbyte ⟨d, hl d List.mem_cons_self⟩
      rw [List.reverse_cons, List.map_append, digitsValue, List.foldl_append]
      rw [show List.foldl (fun n c => n * 10 + (UInt8.toNat c - 48)) 0
        (l.reverse.map fun d => UInt8.ofNat (48 + d)) = Nat.ofDigits 10 l from
          ih fun x hx => hl x (List.mem_cons_of_mem _ hx)]
      simp only [List.map_cons, List.map_nil, List.foldl_cons, List.foldl_nil, hd, Nat.ofDigits_cons]
      omega
  rw [hfold _ fun d hd => Nat.digits_lt_base (by decide) hd, Nat.ofDigits_digits]

lemma formatInt_injective : Function.Injective formatInt := by
  have hsign : ∀ a b : ℕ, str "-" ++ itoa a ≠ itoa b := by
    intro a b h
    have hmem : 45 ∈ itoa b := by
      rw [← h]
      exact List.mem_cons_self
    exact absurd (itoa_digits b 45 hmem) (by decide)
  have hinj : ∀ {a b : ℕ}, itoa a = itoa b → a = b := by
    intro a b h
    rw [← digitsValue_itoa a, h, digitsValue_itoa]
  intro m n h
  unfold formatInt at h
  split at h <;> split at h
  · have := hinj (List.append_cancel_left h)
    omega
  · exact absurd h (hsign _ _)
  · exact absurd h.symm (hsign _ _)
  · have := hinj h
    omega

lemma formatInt_free {c : UInt8} (hc : isDigit c = false) (hsign : c ≠ 45) (n : ℤ) : c ∉ formatInt n := by
  have hdigits : ∀ k : ℕ, c ∉ itoa k := fun k hk => absurd (itoa_digits k c hk) (by simp [hc])
  unfold formatInt
  split
  · rw [List.mem_append, not_or]
    exact ⟨fun h => hsign (List.mem_singleton.1 h), hdigits _⟩
  · exact hdigits _

lemma formatInt_line (n : ℤ) : 10 ∉ formatInt n := formatInt_free (by decide) (by decide) n

/-! ## Digests -/

lemma hexDigit_inj {a b : ℕ} (ha : a < 16) (hb : b < 16) (h : hexDigit a = hexDigit b) : a = b := by
  have hall : ∀ x y : Fin 16, hexDigit x = hexDigit y → x = y := by decide
  exact congrArg Fin.val (hall ⟨a, ha⟩ ⟨b, hb⟩ h)

lemma hexEncode_injective : Function.Injective hexEncode := by
  intro b
  induction b with
  | nil =>
    intro b' h
    cases b' with
    | nil => rfl
    | cons y b' => simp [hexEncode] at h
  | cons x b ih =>
    intro b' h
    cases b' with
    | nil => simp [hexEncode] at h
    | cons y b' =>
      have hsplit : ∀ (z : UInt8) (l : GoString), hexEncode (z :: l) =
          hexDigit (z.toNat / 16) :: hexDigit (z.toNat % 16) :: hexEncode l := fun _ _ => rfl
      rw [hsplit, hsplit, List.cons.injEq, List.cons.injEq] at h
      obtain ⟨hhigh, hlow, hrest⟩ := h
      have hx : x.toNat < 256 := x.toNat_lt
      have hy : y.toNat < 256 := y.toNat_lt
      have h1 := hexDigit_inj (by omega) (by omega) hhigh
      have h2 := hexDigit_inj (by omega) (by omega) hlow
      have hxy : x = y := by
        apply UInt8.toNat_inj.1
        omega
      rw [hxy, ih hrest]

lemma hexDigit_pos {n : ℕ} (h : n < 16) : hexDigit n ≠ 0 := by
  have hall : ∀ x : Fin 16, hexDigit x ≠ 0 := by decide
  exact hall ⟨n, h⟩

lemma zero_notMem_hexEncode (b : GoString) : 0 ∉ hexEncode b := by
  unfold hexEncode
  rw [List.mem_flatMap]
  rintro ⟨x, -, hx⟩
  have hlt : x.toNat < 256 := x.toNat_lt
  simp only [List.mem_cons, List.not_mem_nil, or_false] at hx
  rcases hx with hx | hx
  · exact hexDigit_pos (by omega) hx.symm
  · exact hexDigit_pos (by omega) hx.symm

lemma hashBytes_injective : Function.Injective (hashBytes H) := by
  intro a b h
  exact H.injective (hexEncode_injective (List.append_cancel_left h))

lemma hashParts_eq_iff {ps qs : List GoString} :
    hashParts H ps = hashParts H qs ↔ Words.terminate 0 ps = Words.terminate 0 qs :=
  hexEncode_injective.eq_iff.trans H.injective.eq_iff

lemma hashParts_inj {ps qs : List GoString} (hps : ∀ p ∈ ps, 0 ∉ p)
    (hqs : ∀ q ∈ qs, 0 ∉ q) (h : hashParts H ps = hashParts H qs) : ps = qs :=
  Words.terminate_inj hps hqs ((hashParts_eq_iff H).1 h)

lemma hashParts_ne_nil (ps : List GoString) : hashParts H ps ≠ [] := by
  intro h
  have hnil : H.sum (Words.terminate 0 ps) = [] := hexEncode_injective h
  exact H.nonempty _ hnil

end BatchWeaver
