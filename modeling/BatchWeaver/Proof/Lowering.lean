import Mathlib.Data.List.TakeWhile
import BatchWeaver.Spec.Lowering
import BatchWeaver.Spec.Materialize
import BatchWeaver.Spec.Operation

/-!
# Names of bridges, and edits

The variable and the file name of a bridge keep the words of an operation's ID and lose the kind of its separators.

* `bridgeVarName_eq_iff`, `bridgeFileName_eq_iff`: what can be read back from the names.
* `bridge_names_distinct`, `bridge_names_clash`: when they differ, and when not.
* `edits_exact`: what `applyEdits` makes of a source.
-/

namespace BatchWeaver.Transform

open List Operation

/-- An ID with a dot for every separator. -/
def dotted (id : GoString) : GoString := id.map fun c => if isAlnum c then c else 46

/-- An ID with a dot in front of every word that starts with a letter, and nothing in front of the others. -/
def lettered : Bool → GoString → GoString
  | _, [] => []
  | start, c :: rest =>
    if isAlnum c then (if start && isLower c then [46, c] else [c]) ++ lettered false rest else lettered true rest

/-- The part of an ID that a byte of the words stands for. -/
def unspell (x : UInt8) : GoString := if isUpper x then [46, lowerByte x] else [x]

/-- The words of an ID that is written with dots in front of letters. -/
def spell : Bool → GoString → GoString
  | _, [] => []
  | cap, c :: rest => if c = 46 then spell true rest else (if cap then upperByte c else c) :: spell false rest

lemma unspell_upperByte {c : UInt8} (h : isLower c = true) : unspell (upperByte c) = [46, c] := by
  have hc := of_decide_eq_true h
  have hup : (upperByte c).toNat = c.toNat - 32 := by
    rw [upperByte, if_pos h, UInt8.toNat_ofNat_of_lt' (by omega : c.toNat - 32 < 256)]
  have hupper : isUpper (upperByte c) = true := decide_eq_true (by omega)
  rw [unspell, if_pos hupper, lowerByte, if_pos hupper, hup, Nat.sub_add_cancel (by omega), UInt8.ofNat_toNat]

lemma upperByte_of_not_lower {c : UInt8} (h : isLower c = false) : upperByte c = c := by simp [upperByte, h]

/-- The words of an ID without capital letters show which of them start with a letter. -/
lemma bridgeWords_unspell {start : Bool} {s : GoString} (h : ∀ c ∈ s, isUpper c = false) :
    (bridgeWords start s).flatMap unspell = lettered start s := by
  induction s generalizing start with
  | nil => rfl
  | cons c rest ih =>
    rw [forall_mem_cons] at h
    cases hc : isAlnum c with
    | false => simp [bridgeWords, lettered, hc, ih h.2]
    | true =>
      cases hlow : isLower c with
      | true =>
        cases start with
        | true => simp [bridgeWords, lettered, hc, hlow, ih h.2, unspell_upperByte hlow]
        | false => simp [bridgeWords, lettered, hc, ih h.2, unspell, h.1]
      | false => simp [bridgeWords, lettered, hc, hlow, ih h.2, upperByte_of_not_lower, unspell, h.1]

/-- They show nothing else. -/
lemma spell_lettered {start : Bool} {s : GoString} : spell false (lettered start s) = bridgeWords start s := by
  induction s generalizing start with
  | nil => rfl
  | cons c rest ih =>
    cases hc : isAlnum c with
    | false => simp [bridgeWords, lettered, hc, ih]
    | true =>
      have hdot : c ≠ 46 := by
        rintro rfl
        cases hc
      cases hlow : isLower c with
      | true => cases start <;> simp [bridgeWords, lettered, hc, hlow, spell, hdot, ih]
      | false => simp [bridgeWords, lettered, hc, hlow, spell, hdot, ih, upperByte_of_not_lower]

lemma lettered_dotted (start : Bool) (s : GoString) : lettered start (dotted s) = lettered start s := by
  induction s generalizing start with
  | nil => rfl
  | cons c rest ih =>
    have hdot : isAlnum 46 = false := rfl
    have hcons : dotted (c :: rest) = (if isAlnum c then c else 46) :: dotted rest := rfl
    cases hc : isAlnum c with
    | false => simp [hcons, lettered, hc, hdot, ih]
    | true => simp [hcons, lettered, hc, ih]

lemma bridgeVarName_eq_iff {p q : GoString} (hp : ∀ c ∈ p, isUpper c = false) (hq : ∀ c ∈ q, isUpper c = false) :
    bridgeVarName p = bridgeVarName q ↔ lettered true p = lettered true q := by
  rw [bridgeVarName, bridgeVarName, append_cancel_left_eq]
  constructor
  · intro h
    rw [← bridgeWords_unspell hp, ← bridgeWords_unspell hq, h]
  · intro h
    rw [← spell_lettered, ← spell_lettered, h]

lemma bridgeFileName_eq_iff {p q : GoString} (hp : ∀ c ∈ p, isUpper c = false) (hq : ∀ c ∈ q, isUpper c = false) :
    bridgeFileName p = bridgeFileName q ↔ dotted p = dotted q := by
  have hfile : ∀ s : GoString, (∀ c ∈ s, isUpper c = false) →
      s.map (fun c => if isAlnum c then lowerByte c else 95) = s.map fun c => if isAlnum c then c else 95 :=
    fun s hs => map_congr_left fun c hc => by simp [lowerByte, hs c hc]
  -- neither separator is a letter or a digit, so each can stand for the other
  have hswap : ∀ (a b : UInt8) (s : GoString), isAlnum a = false →
      (s.map fun c => if isAlnum c then c else a).map (fun c => if isAlnum c then c else b) =
        s.map fun c => if isAlnum c then c else b := by
    intro a b s ha
    rw [map_map]
    refine map_congr_left fun c _ => ?_
    cases hc : isAlnum c <;> simp [hc, ha]
  rw [bridgeFileName, bridgeFileName, append_cancel_right_eq, append_cancel_left_eq, hfile p hp, hfile q hq, dotted, dotted]
  constructor
  · intro h
    rw [← hswap 95 46 p rfl, ← hswap 95 46 q rfl, h]
  · intro h
    rw [← hswap 46 95 p rfl, ← hswap 46 95 q rfl, h]

lemma segmentError_none {L : Library} {i : ℕ} {segs : List GoString} (h : segmentError L i segs = none) :
    ∀ seg ∈ segs, validateSegment L seg = none := by
  induction segs generalizing i with
  | nil => exact nofun
  | cons seg segs ih =>
    unfold segmentError at h
    split at h
    · cases h
    · exact forall_mem_cons.2 ⟨‹_›, ih h⟩

lemma validateSegment_lower {L : Library} {seg : GoString} (h : validateSegment L seg = none) :
    ∀ c ∈ seg, isUpper c = false := by
  have hbyte : ∀ c : UInt8, (isLower c || isDigit c || c = 95 || c = 45) = true → isUpper c = false := by
    intro c hc
    simp only [Bool.or_eq_true, isLower, isDigit, decide_eq_true_eq, ← UInt8.toNat_inj] at hc
    refine decide_eq_false fun hup => ?_
    rcases hc with ((hc | hc) | hc) | hc
    · omega
    · omega
    · exact absurd hup (by rw [hc]; decide)
    · exact absurd hup (by rw [hc]; decide)
  cases seg with
  | nil => exact nofun
  | cons c rest =>
    have hall := firstFailed_none h
    have hfirst : isLower c = true := by simpa using hall _ (mem_of_getElem? (i := 1) rfl)
    have hrest : badSegmentByte rest = [] := by simpa using hall _ (mem_of_getElem? (i := 2) rfl)
    refine forall_mem_cons.2 ⟨hbyte c (by simp [hfirst]), fun x hx => hbyte x ?_⟩
    exact dropWhile_eq_nil_iff.1 hrest x hx

/-- An accepted ID has no capital letter. -/
lemma idError_lower {L : Library} {id : GoString} (h : idError L id = none) : ∀ c ∈ id, isUpper c = false := by
  have hsegs : segmentError L 0 (id.splitOn 46) = none := by
    simpa using wrapFailed_none h _ (mem_of_getElem? (i := 5) rfl)
  have hid : ([46] : GoString).intercalate (id.splitOn 46) = id := intercalate_splitOn ..
  intro c hc
  have hne : id.splitOn 46 ≠ [] := by
    intro hnil
    rw [hnil] at hid
    rw [← hid] at hc
    cases hc
  have hmem : c ∈ Words.terminate 46 (id.splitOn 46) := by
    rw [← Words.intercalate_mark 46 _ hne, hid]
    exact mem_append_left _ hc
  obtain ⟨seg, hseg, hcs⟩ := mem_flatMap.1 hmem
  rcases mem_append.1 hcs with hcs | hcs
  · exact validateSegment_lower (segmentError_none hsegs seg hseg) c hcs
  · rw [mem_singleton.1 hcs]
    rfl

/-- **Bridges of different operations have different names** exactly when their IDs still differ with a dot for every
separator in front of a letter and without the others. -/
theorem bridge_names_distinct (L : Library) (p q : GoString) (hp : idError L p = none) (hq : idError L q = none) :
    bridgeVarName p ≠ bridgeVarName q ∧ bridgeFileName p ≠ bridgeFileName q ↔ lettered true p ≠ lettered true q := by
  rw [Ne, bridgeVarName_eq_iff (idError_lower hp) (idError_lower hq), Ne,
    bridgeFileName_eq_iff (idError_lower hp) (idError_lower hq)]
  refine and_iff_left_of_imp fun hne heq => hne ?_
  rw [← lettered_dotted, heq, lettered_dotted]

theorem bridge_names_distinct_two : bridgeVarName (str "a.b-1") ≠ bridgeVarName (str "a.c") ∧
    bridgeFileName (str "a.b-1") ≠ bridgeFileName (str "a.c") :=
  (bridge_names_distinct .plain _ _ (by decide) (by decide)).2 (by decide)

/-- The kind of a separator is lost. -/
theorem bridge_names_clash : idError Library.plain (str "a.b-c") = none ∧ idError Library.plain (str "a.b_c") = none ∧
    bridgeVarName (str "a.b-c") = bridgeVarName (str "a.b_c") ∧
    bridgeFileName (str "a.b-c") = bridgeFileName (str "a.b_c") := by
  decide

/-! ## Edits -/

variable {src : GoString} {es edits : List PendingEdit} {n : ℕ}

/-- `applyEdits` after `sort.Slice`. -/
def applySorted (src : GoString) (es : List PendingEdit) : Option GoString :=
  if (es.zip es.tail).any fun p => decide (p.2.start < p.1.stop) then none
  else some ((splice src es).1 ++ src.drop (splice src es).2)

/-- What `sort.Slice` may leave: edits with one start come in any order. -/
structure Sorts (edits es : List PendingEdit) : Prop where
  perm : es.Perm edits
  sorted : es.Pairwise fun a b => a.start ≤ b.start

/-- The ranges share a byte, or one is empty and strictly inside of the other. -/
def Overlap (a b : PendingEdit) : Prop := a.start < b.stop ∧ b.start < a.stop

/-- Edits of which no two overlap. -/
def Apart (edits : List PendingEdit) : Prop := edits.Pairwise fun a b => ¬Overlap a b

/-- No insertion stands at the start of a range that is replaced. -/
def Separate (edits : List PendingEdit) : Prop :=
  edits.Pairwise fun a b => a.start = b.start → (a.start = a.stop ↔ b.start = b.stop)

/-- The edits lie in a source of length `n`. -/
def Within (n : ℕ) (edits : List PendingEdit) : Prop := ∀ e ∈ edits, e.start ≤ e.stop ∧ e.stop ≤ n

/-- The source with the range of an edit replaced by its text. -/
def replaceRange (e : PendingEdit) (src : GoString) : GoString := src.take e.start ++ e.repl ++ src.drop e.stop

/-- All edits, the last one first: a replacement moves no byte before it, so every range is one of the source. -/
def rewritten (src : GoString) (es : List PendingEdit) : GoString := es.foldr replaceRange src

/-- Each edit ends before the next one starts. -/
def Ordered (es : List PendingEdit) : Prop := es.Pairwise fun a b => a.stop ≤ b.start

lemma neighbours_ordered (hb : Within n es) :
    (es.zip es.tail).any (fun p => decide (p.2.start < p.1.stop)) = false ↔ Ordered es := by
  induction es with
  | nil => simp [Ordered]
  | cons a es ih =>
    have ih := ih fun e he => hb e (mem_cons_of_mem _ he)
    cases es with
    | nil => simp [Ordered]
    | cons b es =>
      have hbb := hb b (by simp)
      rw [tail_cons] at ih
      rw [tail_cons, zip_cons_cons, any_cons, Bool.or_eq_false_iff, ih,
        show Ordered (a :: b :: es) ↔ _ from pairwise_cons]
      refine ⟨fun ⟨hab, h⟩ => ⟨fun x hx => ?_, h⟩, fun ⟨hall, h⟩ => ⟨?_, h⟩⟩
      · have hab : ¬b.start < a.stop := of_decide_eq_false hab
        rcases mem_cons.1 hx with rfl | hx
        · omega
        · have := (pairwise_cons.1 h).1 x hx
          omega
      · exact decide_eq_false (not_lt.2 (hall b mem_cons_self))

lemma Ordered.apart (h : Ordered es) : Apart es := by
  unfold Apart Overlap
  exact h.imp fun h => by omega

/-- Sorted edits that are apart are in order, if no insertion stands at the start of another one's range. -/
lemma Apart.ordered (h : Apart es) (hsort : es.Pairwise fun a b => a.start ≤ b.start) (hb : Within n es)
    (hsep : Separate es) : Ordered es := by
  unfold Apart Overlap at h
  refine ((hsort.and hsep).and h).imp_of_mem fun ha hb' h => ?_
  have := hb _ ha
  have := hb _ hb'
  omega

/-- What the loop still writes is what the edits make of the rest of the source. -/
lemma splice_from {prev : ℕ} (h : Ordered es) (hb : Within src.length es) (hprev : ∀ e ∈ es, prev ≤ e.start)
    (out : GoString) : ∃ rest, rewritten src es = src.take prev ++ rest ∧
      (let r := es.foldl (fun acc e => (acc.1 ++ (src.take e.start).drop acc.2 ++ e.repl, e.stop)) (out, prev)
      r.1 ++ src.drop r.2 = out ++ rest) := by
  induction es generalizing prev out with
  | nil => exact ⟨_, (take_append_drop prev src).symm, rfl⟩
  | cons e es ih =>
    obtain ⟨hafter, hord⟩ := pairwise_cons.1 h
    obtain ⟨he, hb⟩ := forall_mem_cons.1 hb
    obtain ⟨rest, hrest, hout⟩ := ih hord hb hafter (out ++ (src.take e.start).drop prev ++ e.repl)
    have hstop : (src.take e.stop).length = e.stop := length_take_of_le he.2
    have hstart : src.take prev ++ (src.take e.start).drop prev = src.take e.start := by
      have := take_append_drop prev (src.take e.start)
      rwa [take_take, min_eq_left (hprev e mem_cons_self)] at this
    refine ⟨(src.take e.start).drop prev ++ (e.repl ++ rest), ?_, ?_⟩
    · show replaceRange e (rewritten src es) = _
      rw [replaceRange, hrest, take_append_of_le_length (by omega), take_take, min_eq_left he.1, drop_left' hstop,
        ← append_assoc, hstart, append_assoc]
    rw [foldl_cons]
    refine hout.trans ?_
    simp only [append_assoc]

/-- **Edits in order are applied as they say**, and others refused. -/
theorem applySorted_cases (hb : Within src.length es) :
    Ordered es ∧ applySorted src es = some (rewritten src es) ∨ ¬Ordered es ∧ applySorted src es = none := by
  rw [← neighbours_ordered hb, applySorted]
  cases hany : (es.zip es.tail).any fun p => decide (p.2.start < p.1.stop) with
  | false =>
    obtain ⟨rest, hrest, hout⟩ := splice_from ((neighbours_ordered hb).1 hany) hb (fun _ _ => Nat.zero_le _) []
    exact .inl ⟨rfl, congrArg some (hout.trans hrest.symm)⟩
  | true => exact .inr ⟨nofun, rfl⟩

instance : Std.Total fun a b : PendingEdit => a.start ≤ b.start := ⟨fun a b => Nat.le_total a.start b.start⟩

instance : IsTrans PendingEdit fun a b => a.start ≤ b.start := ⟨fun _ _ _ => Nat.le_trans⟩

/-- By start, with insertions behind the ranges that start at their offset. -/
def InsertionsLast (a b : PendingEdit) : Prop :=
  a.start < b.start ∨ a.start = b.start ∧ (b.start < b.stop → a.start < a.stop)

instance : DecidableRel InsertionsLast := fun a b =>
  inferInstanceAs (Decidable (a.start < b.start ∨ a.start = b.start ∧ (b.start < b.stop → a.start < a.stop)))

instance : Std.Total InsertionsLast := ⟨fun a b => by unfold InsertionsLast; omega⟩

instance : IsTrans PendingEdit InsertionsLast := ⟨fun a b c => by unfold InsertionsLast; omega⟩

/-- Some order that `sort.Slice` may leave is refused if an insertion stands at the start of a range. -/
lemma exists_sorts_separate (hb : Within n edits) : ∃ es, Sorts edits es ∧ (Ordered es → Separate edits) := by
  have hperm := perm_insertionSort InsertionsLast edits
  have hsort := pairwise_insertionSort InsertionsLast edits
  refine ⟨_, ⟨hperm, hsort.imp fun h => ?_⟩, fun hord => ?_⟩
  · unfold InsertionsLast at h
    omega
  have hsep : Separate (edits.insertionSort InsertionsLast) := by
    refine (hord.and hsort).imp_of_mem fun ha hb' h heq => ?_
    have := hb _ (hperm.mem_iff.1 ha)
    have := hb _ (hperm.mem_iff.1 hb')
    unfold InsertionsLast at h
    omega
  exact (hperm.pairwise_iff fun h heq => (h heq.symm).symm).1 hsep

/-- Edits that are apart and of which no two stand at one offset are sorted in one way. -/
lemma Sorts.unique (hs : Sorts edits es) (hb : Within n edits) (hsep : Separate edits) (h : Apart edits)
    (htwin : edits.Pairwise fun a b => ¬(a.start = a.stop ∧ b.start = b.stop ∧ a.start = b.start)) {edits' es'}
    (hperm : edits'.Perm edits) (hs' : Sorts edits' es') : es' = es := by
  have hstart : (edits.map PendingEdit.start).Nodup := by
    unfold Apart Overlap at h
    refine pairwise_map.2 (((h.and hsep).and htwin).imp_of_mem fun ha hb' h => ?_)
    have := hb _ ha
    have := hb _ hb'
    omega
  refine ((hs'.perm.trans hperm).trans hs.perm.symm).eq_of_pairwise (fun a b ha hb hab hba => ?_) hs'.sorted hs.sorted
  exact inj_on_of_nodup_map hstart (hperm.mem_iff.1 (hs'.perm.mem_iff.1 ha)) (hs.perm.mem_iff.1 hb)
    (le_antisymm hab hba)

/-- **Edits are applied exactly** just when two of them overlap, which is refused, or no insertion stands at the start
of a range that is replaced; then the order matters only to insertions at one offset. -/
theorem edits_exact (src : GoString) (edits : List PendingEdit) (hb : Within src.length edits) :
    (∃ es, Sorts edits es ∧ applyEdits src edits = applySorted src es) ∧
    ((∀ es, Sorts edits es →
      (applySorted src es = none ↔ ¬Apart edits) ∧ (Apart edits → applySorted src es = some (rewritten src es)) ∧
      (Apart edits → (edits.Pairwise fun a b => ¬(a.start = a.stop ∧ b.start = b.stop ∧ a.start = b.start)) →
        ∀ edits' es', edits'.Perm edits → Sorts edits' es' → es' = es)) ↔ Separate edits ∨ ¬Apart edits) := by
  refine ⟨⟨_, ⟨perm_insertionSort _ _, pairwise_insertionSort _ _⟩, rfl⟩, fun h => ?_, fun h es hs => ?_⟩
  · obtain ⟨es, hs, hsep⟩ := exists_sorts_separate hb
    have hb' : Within src.length es := fun e he => hb e (hs.perm.mem_iff.1 he)
    rcases applySorted_cases hb' with ⟨hord, -⟩ | ⟨-, hnone⟩
    · exact .inl (hsep hord)
    · exact .inr ((h es hs).1.1 hnone)
  have hb' : Within src.length es := fun e he => hb e (hs.perm.mem_iff.1 he)
  have hapart : Apart es ↔ Apart edits := hs.perm.pairwise_iff fun hno h => hno h.symm
  rcases applySorted_cases hb' with ⟨hord, hok⟩ | ⟨hord, hnone⟩
  · have happ := hapart.1 hord.apart
    have hsep := h.resolve_right (not_not.2 happ)
    rw [hok]
    exact ⟨iff_of_false (Option.some_ne_none _) (not_not.2 happ), fun _ => rfl,
      fun _ htwin edits' es' => hs.unique hb hsep happ htwin⟩
  · have hno : ¬Apart edits := by
      intro happ
      have hsep : Separate es := (hs.perm.pairwise_iff fun h heq => (h heq.symm).symm).2
        (h.resolve_right (not_not.2 happ))
      exact hord ((hapart.2 happ).ordered hs.sorted hb' hsep)
    exact ⟨iff_of_true hnone hno, fun happ => absurd happ hno, fun happ => absurd happ hno⟩

/-- A replacement, an insertion behind it and one at the end, listed from the end. -/
theorem edits_exact_three : ∃ es, Sorts [⟨2, 2, str "z"⟩, ⟨1, 1, str "y"⟩, ⟨0, 1, str "x"⟩] es ∧
    applyEdits (str "ab") [⟨2, 2, str "z"⟩, ⟨1, 1, str "y"⟩, ⟨0, 1, str "x"⟩] = some (rewritten (str "ab") es) := by
  obtain ⟨⟨es, hs, happly⟩, hexact⟩ := edits_exact (str "ab") [⟨2, 2, str "z"⟩, ⟨1, 1, str "y"⟩, ⟨0, 1, str "x"⟩]
    (by unfold Within; decide)
  have hsep : Separate [⟨2, 2, str "z"⟩, ⟨1, 1, str "y"⟩, ⟨0, 1, str "x"⟩] := by simp [Separate]
  have hedits := hexact.2 (.inl hsep) es hs
  refine ⟨es, hs, ?_⟩
  rw [happly]
  exact hedits.2.1 (by simp [Apart, Overlap])

/-- An insertion that is listed after the replacement of the range it stands before is refused. -/
theorem insertion_refused : Apart [⟨0, 1, str "x"⟩, ⟨0, 0, str "y"⟩] ∧
    applyEdits (str "a") [⟨0, 1, str "x"⟩, ⟨0, 0, str "y"⟩] = none ∧
    applyEdits (str "a") [⟨0, 0, str "y"⟩, ⟨0, 1, str "x"⟩] = some (str "yx") := by
  refine ⟨?_, rfl, rfl⟩
  simp [Apart, Overlap]

end BatchWeaver.Transform
