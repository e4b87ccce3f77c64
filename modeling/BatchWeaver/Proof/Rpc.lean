import BatchWeaver.Spec.Rpc

/-!
# The reader and the calls

* `reader_free`: as long as no pending call is answered twice, the reader always finds room in the channel.
* `reader_stuck`: a second response between the first one and a cancellation blocks the reader for good.
-/

namespace BatchWeaver.Lsp

variable {s : Conn} {es : List ConnEvent} {e : ConnEvent}

/-- A pending call is answered once: no response with its ID was read before. -/
def AnsweredOnce (es : List ConnEvent) (s : Conn) : ConnEvent → Prop
  | .response id => (s.calls id).pending = true → .response id ∉ es
  | _ => True

/-- A response in a slot or on its way was read, and the channel it is on its way to has room. -/
structure ConnOK (es : List ConnEvent) (s : Conn) : Prop where
  read : ∀ id, s.full id = true ∨ s.reader = some id → .response id ∈ es
  room : ∀ id, s.reader = some id → s.full id = false

/-- An event that leaves the reader alone and fills no slot. -/
lemma ConnOK.keep (h : ConnOK es s) {t : Conn} (hreader : t.reader = s.reader)
    (hfull : ∀ id, t.full id = true → s.full id = true) : ConnOK (es ++ [e]) t := by
  refine ⟨fun id hid => List.mem_append_left _ (h.read id ?_), fun id hid => ?_⟩
  · rw [hreader] at hid
    exact hid.imp_left (hfull id)
  · rw [hreader] at hid
    have hroom := h.room id hid
    by_contra hne
    rw [hfull id (Bool.not_eq_false _ ▸ hne)] at hroom
    cases hroom

lemma connOK_step (hok : s.enabled e = true) (honce : AnsweredOnce es s e) (h : ConnOK es s) :
    ConnOK (es ++ [e]) (s.next e) := by
  cases e with
  | receive id =>
    refine h.keep rfl fun k (hk : Function.update s.full id false k = true) => ?_
    by_cases hid : k = id
    · rw [hid, Function.update_self] at hk
      cases hk
    · rwa [Function.update_of_ne hid] at hk
  | response id =>
    by_cases hpending : (s.calls id).pending = true
    · -- the slot is empty: what it held would have been read before
      have hempty : s.full id = false := by
        by_contra hfull
        exact honce hpending (h.read id (.inl (Bool.not_eq_false _ ▸ hfull)))
      rw [Conn.next, if_pos hpending]
      refine ⟨fun k hk => ?_, fun k hk => ?_⟩
      · rcases hk with hk | hk
        · exact List.mem_append_left _ (h.read k (.inl hk))
        · cases hk
          simp
      · cases hk
        exact hempty
    · rw [Conn.next, if_neg hpending]
      exact ⟨fun k hk => List.mem_append_left _ (h.read k (.inl (hk.resolve_right nofun))), nofun⟩
  | send =>
    cases hreader : s.reader with
    | none =>
      rw [Conn.enabled, hreader] at hok
      cases hok
    | some id =>
      refine ⟨fun k hk => List.mem_append_left _ (h.read k ?_), nofun⟩
      by_cases hid : k = id
      · exact .inr (hid ▸ hreader)
      have hk : (s.reader.elim s.full fun id => Function.update s.full id true) k = true := hk.resolve_right nofun
      rw [hreader, Option.elim_some, Function.update_of_ne hid] at hk
      exact .inl hk
  | _ => exact h.keep rfl fun _ hk => hk

/-- **The reader is never blocked** in a run in which no pending call is answered twice. -/
theorem reader_free (es : List ConnEvent) (s : Conn) (h : (connection.only AnsweredOnce).Reach es s) :
    ¬s.Stuck ∧ ∀ id, s.reader = some id → s.enabled .send = true := by
  have hok : ConnOK es s := by
    refine h.invariant (I := ConnOK) ⟨fun id hid => ?_, fun id hid => ?_⟩ fun es s e _ hok hs => ?_
    · rcases hid with hid | hid <;> cases hid
    · cases hid
    · exact connOK_step hok.1 hok.2 hs
  refine ⟨fun ⟨id, hreader, hfull, _⟩ => ?_, fun id hreader => ?_⟩
  · rw [hok.room id hreader] at hfull
    cases hfull
  · rw [Conn.enabled, hreader, Option.any_some, hok.room id hreader]
    rfl

instance (es : List ConnEvent) (s : Conn) (e : ConnEvent) : Decidable (connection.ok es s e) :=
  inferInstanceAs (Decidable (_ = true))

instance (es : List ConnEvent) (s : Conn) : (e : ConnEvent) → Decidable (AnsweredOnce es s e)
  | .response id => inferInstanceAs (Decidable ((s.calls id).pending = true → .response id ∉ es))
  | .call _ | .written _ | .writeFailed _ | .receive _ | .abandon _ | .remove _ | .send => .isTrue trivial

/-- A call up to the first response for it. -/
def demoCall : List ConnEvent := [.call (.number 1), .written (.number 1), .response (.number 1), .send]

theorem reader_free_call : ∃ s, (connection.only AnsweredOnce).Reach (demoCall ++ [.abandon (.number 1)]) s ∧ ¬s.Stuck := by
  have hreach : (connection.only AnsweredOnce).Reach (demoCall ++ [.abandon (.number 1)]) _ :=
    System.reach_of_allowed (by decide)
  exact ⟨_, hreach, (reader_free _ _ hreach).1⟩

/-- **A stuck reader**: a second response is looked up before the canceled call leaves the table, and nobody takes the
first one out of the slot. -/
theorem reader_stuck : ∃ s, connection.Reach
    (demoCall ++ [.response (.number 1), .abandon (.number 1), .remove (.number 1)]) s ∧ s.Stuck := by
  have hreach : connection.Reach (demoCall ++ [.response (.number 1), .abandon (.number 1), .remove (.number 1)]) _ :=
    System.reach_of_allowed (by decide)
  exact ⟨_, hreach, .number 1, rfl, rfl, .inr rfl⟩

end BatchWeaver.Lsp
