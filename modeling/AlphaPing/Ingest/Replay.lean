import AlphaPing.Library.Runs
import AlphaPing.Library.SlidingWindow
import AlphaPing.Ingest.Database

/-!
# The replay window of the ingest worker

`claim_replay` is one conditional upsert of `agent_replay_state`. The handler reaches it after
the envelope was authenticated and seals its acknowledgement later, with the sequence it has
claimed as the nonce counter; between the two any number of other requests may claim and seal.

The module follows the SQL text for the stored row and refines it to the set of accepted
sequences. It does not model the cipher: two acknowledgements collide here exactly if they are
sealed for the same agent, key epoch and sequence.
-/

namespace AlphaPing.Ingest.Replay

open Library.Runs Library.SlidingWindow Database

def maxSafeSequence : ℕ := 9007199254740991

/-- A row of `agent_replay_state`; `window_bitmap` is only ever written by the insert. -/
structure ReplayRow where
  highestSequence : ℕ
  windowBitmap : List UInt8
  updatedAt : ℤ
  windowBits : BitVec 64

/-- `agent_replay_state` by its primary key `(agent_id, key_epoch)`. -/
abbrev ReplayTable := String → ℕ → Option ReplayRow

def ReplayTable.set (table : ReplayTable) (agentId : String) (keyEpoch : ℕ) (row : ReplayRow) :
    ReplayTable :=
  fun agent epoch ↦ if agent = agentId ∧ epoch = keyEpoch then some row else table agent epoch

@[simp] theorem ReplayTable.set_self (table : ReplayTable) (agentId : String) (keyEpoch : ℕ)
    (row : ReplayRow) : table.set agentId keyEpoch row agentId keyEpoch = some row := by
  simp [ReplayTable.set]

theorem ReplayTable.set_other (table : ReplayTable) {agentId agent : String}
    {keyEpoch epoch : ℕ} (row : ReplayRow) (h : ¬(agent = agentId ∧ epoch = keyEpoch)) :
    table.set agentId keyEpoch row agent epoch = table agent epoch :=
  if_neg h

/-- The row that the `INSERT` would create. -/
def excluded (sequence : ℕ) (now : ℤ) : ReplayRow where
  highestSequence := sequence
  windowBitmap := [1]
  updatedAt := now
  windowBits := 1#64

/-- The `WHERE` clause of the conflict branch. -/
def claimable (row : ReplayRow) (sequence : ℕ) : Bool :=
  row.highestSequence < sequence ||
    (sequence < row.highestSequence &&
      decide ((row.highestSequence : ℤ) - sequence ≤ 62) &&
      (row.windowBits &&& shiftLeft 1#64 ((row.highestSequence : ℤ) - sequence)) == 0#64)

/-- The `CASE` expression for `window_bits`. -/
def claimedBits (row : ReplayRow) (sequence : ℕ) : BitVec 64 :=
  if row.highestSequence < sequence then
    if (sequence : ℤ) - row.highestSequence ≥ 63 then 1#64
    else
      (shiftLeft row.windowBits ((sequence : ℤ) - row.highestSequence) ||| 1#64) &&&
        9223372036854775807#64
  else row.windowBits ||| shiftLeft 1#64 ((row.highestSequence : ℤ) - sequence)

/-- `claim_replay`: a statement that changed no row is answered `Unauthorized`. -/
def claimReplay (table : ReplayTable) (agentId : String) (keyEpoch sequence : ℕ) (now : ℤ) :
    Except IngestError ReplayTable :=
  match table agentId keyEpoch with
  | none => .ok (table.set agentId keyEpoch (excluded sequence now))
  | some row =>
    if claimable row sequence then
      .ok (table.set agentId keyEpoch
        { row with
          windowBits := claimedBits row sequence
          highestSequence := max row.highestSequence sequence
          updatedAt := now })
    else .error .unauthorized

/-! ## One statement against the accepted sequences -/

variable {row : ReplayRow} {accepted : Set ℕ} {sequence : ℕ}

theorem claimable_iff (h : Represents 63 accepted row.highestSequence row.windowBits.toNat) :
    claimable row sequence = true ↔ Admits 63 accepted sequence := by
  rw [h.admits_iff, claimable]
  simp only [Bool.or_eq_true, Bool.and_eq_true, decide_eq_true_eq, beq_iff_eq]
  refine or_congr_right ?_
  rw [and_assoc]
  refine and_congr_right fun hbelow ↦ ?_
  have hnear : (row.highestSequence : ℤ) - sequence ≤ 62 ↔
      row.highestSequence - sequence < 63 := by omega
  rw [hnear]
  refine and_congr_right fun hdistance ↦ ?_
  rw [shiftLeft_natSub _ hbelow.le]
  exact and_one_shiftLeft_eq_zero _ (by omega)

theorem toNat_claimedBits_above (habove : row.highestSequence < sequence) :
    (claimedBits row sequence).toNat =
      advance 63 row.windowBits.toNat (sequence - row.highestSequence) := by
  have hjump : (sequence : ℤ) - row.highestSequence ≥ 63 ↔
      63 ≤ sequence - row.highestSequence := by omega
  rw [claimedBits, if_pos habove, advance]
  simp only [hjump]
  split_ifs
  · rfl
  · rw [shiftLeft_natSub _ habove.le]
    exact toNat_shifted_and_mask _ _

theorem toNat_claimedBits_below (hbelow : sequence < row.highestSequence)
    (hnear : row.highestSequence - sequence < 63) :
    (claimedBits row sequence).toNat =
      mark row.windowBits.toNat (row.highestSequence - sequence) := by
  rw [claimedBits, if_neg (by omega), shiftLeft_natSub _ hbelow.le, BitVec.toNat_or,
    toNat_one_shiftLeft (by omega), mark]

theorem represents_claimed (h : Represents 63 accepted row.highestSequence row.windowBits.toNat)
    (hadmits : Admits 63 accepted sequence) :
    Represents 63 (insert sequence accepted) (max row.highestSequence sequence)
      (claimedBits row sequence).toNat := by
  rcases h.admits_iff.mp hadmits with habove | ⟨hbelow, hnear, -⟩
  · rw [max_eq_right habove.le, toNat_claimedBits_above habove]
    exact h.advance (by decide) habove
  · rw [max_eq_left hbelow.le, toNat_claimedBits_below hbelow hnear]
    exact h.mark hbelow hnear

/-- What the table stores for one agent and key epoch. -/
def Stores (accepted : Set ℕ) : Option ReplayRow → Prop
  | none => accepted = ∅
  | some row => Represents 63 accepted row.highestSequence row.windowBits.toNat

/-- The statement accepts exactly the admitted sequences, and then its row stores one more. -/
theorem claimReplay_spec {table : ReplayTable} {agentId : String} {keyEpoch : ℕ}
    (h : Stores accepted (table agentId keyEpoch)) (sequence : ℕ) (now : ℤ) :
    (Admits 63 accepted sequence ∧ ∃ row,
        claimReplay table agentId keyEpoch sequence now = .ok (table.set agentId keyEpoch row) ∧
        Stores (insert sequence accepted) (some row)) ∨
      (¬ Admits 63 accepted sequence ∧
        claimReplay table agentId keyEpoch sequence now = .error .unauthorized) := by
  unfold claimReplay
  cases hrow : table agentId keyEpoch with
  | none =>
    rw [hrow] at h
    have hempty : accepted = ∅ := h
    subst hempty
    refine .inl ⟨admits_empty, excluded sequence now, rfl, ?_⟩
    rw [insert_empty_eq]
    exact represents_first (by decide)
  | some row =>
    rw [hrow] at h
    by_cases hadmits : Admits 63 accepted sequence
    · refine .inl ⟨hadmits, _, if_pos ((claimable_iff h).mpr hadmits), ?_⟩
      exact represents_claimed h hadmits
    · exact .inr ⟨hadmits, if_neg fun hclaim ↦ hadmits ((claimable_iff h).mp hclaim)⟩

/-! ## Concurrent handlers -/

/-- What an acknowledgement is sealed under. -/
structure AckNonce where
  agentId : String
  keyEpoch : ℕ
  sequence : ℕ
  deriving DecidableEq

/-- The table, the handlers between their claim and their response, and two history variables. -/
structure Gate where
  table : ReplayTable
  claimed : List AckNonce
  accepted : List AckNonce
  sealedAcks : List AckNonce

inductive GateAction where
  /-- An authenticated request reaches `claim_replay`. -/
  | claim (agentId : String) (keyEpoch sequence : ℕ) (now : ℤ)
  /-- A handler past its claim ends, with a sealed acknowledgement or with an error. -/
  | finish (nonce : AckNonce) (acknowledges : Bool)

def emptyGate : Gate where
  table := fun _ _ ↦ none
  claimed := []
  accepted := []
  sealedAcks := []

/-- The gate after the statement changed its row. -/
def Gate.accept (gate : Gate) (table : ReplayTable) (nonce : AckNonce) : Gate where
  table
  claimed := nonce :: gate.claimed
  accepted := nonce :: gate.accepted
  sealedAcks := gate.sealedAcks

/-- The header checks of `handle_report` that restrict what reaches the statement. -/
def headerSequenceValid (keyEpoch sequence : ℕ) : Bool :=
  keyEpoch != 0 && sequence != 0 && decide (sequence ≤ maxSafeSequence)

def gateStep (gate : Gate) : GateAction → Gate
  | .claim agentId keyEpoch sequence now =>
    if headerSequenceValid keyEpoch sequence then
      match claimReplay gate.table agentId keyEpoch sequence now with
      | .ok table => gate.accept table ⟨agentId, keyEpoch, sequence⟩
      | .error _ => gate
    else gate
  | .finish nonce acknowledges =>
    if nonce ∈ gate.claimed then
      { gate with
        claimed := gate.claimed.erase nonce
        sealedAcks := if acknowledges then nonce :: gate.sealedAcks else gate.sealedAcks }
    else gate

def Gate.acceptedSequences (gate : Gate) (agentId : String) (keyEpoch : ℕ) : Set ℕ :=
  {sequence | ⟨agentId, keyEpoch, sequence⟩ ∈ gate.accepted}

structure GateInvariant (gate : Gate) : Prop where
  stores : ∀ agentId keyEpoch,
    Stores (gate.acceptedSequences agentId keyEpoch) (gate.table agentId keyEpoch)
  accepted_nodup : gate.accepted.Nodup
  used_nodup : (gate.claimed ++ gate.sealedAcks).Nodup
  used_accepted : ∀ nonce ∈ gate.claimed ++ gate.sealedAcks, nonce ∈ gate.accepted

theorem gateInvariant_empty : GateInvariant emptyGate where
  stores _ _ := by
    refine Set.eq_empty_of_forall_notMem fun sequence h ↦ ?_
    simp [Gate.acceptedSequences, emptyGate] at h
  accepted_nodup := List.nodup_nil
  used_nodup := List.nodup_nil
  used_accepted _ h := by simp [emptyGate] at h

theorem acceptedSequences_accept_self (gate : Gate) (table : ReplayTable) (agentId : String)
    (keyEpoch sequence : ℕ) :
    (gate.accept table ⟨agentId, keyEpoch, sequence⟩).acceptedSequences agentId keyEpoch =
      insert sequence (gate.acceptedSequences agentId keyEpoch) := by
  ext other
  simp [Gate.acceptedSequences, Gate.accept]

theorem acceptedSequences_accept_other (gate : Gate) (table : ReplayTable) {agentId agent : String}
    {keyEpoch epoch : ℕ} (sequence : ℕ) (hother : ¬(agent = agentId ∧ epoch = keyEpoch)) :
    (gate.accept table ⟨agentId, keyEpoch, sequence⟩).acceptedSequences agent epoch =
      gate.acceptedSequences agent epoch := by
  ext other
  simp only [Gate.acceptedSequences, Gate.accept, Set.mem_ofPred_eq, List.mem_cons,
    AckNonce.mk.injEq, or_iff_right_iff_imp]
  rintro ⟨hagent, hepoch, -⟩
  exact absurd ⟨hagent, hepoch⟩ hother

theorem gateInvariant_accept {gate : Gate} (h : GateInvariant gate) {agentId : String}
    {keyEpoch sequence : ℕ} (hnew : sequence ∉ gate.acceptedSequences agentId keyEpoch)
    (hrow : Stores (insert sequence (gate.acceptedSequences agentId keyEpoch)) (some row)) :
    GateInvariant
      (gate.accept (gate.table.set agentId keyEpoch row) ⟨agentId, keyEpoch, sequence⟩) where
  stores agent epoch := by
    by_cases hkey : agent = agentId ∧ epoch = keyEpoch
    · obtain ⟨rfl, rfl⟩ := hkey
      rw [acceptedSequences_accept_self]
      simpa [Gate.accept] using hrow
    · rw [acceptedSequences_accept_other gate _ sequence hkey]
      simpa [Gate.accept, ReplayTable.set_other _ row hkey] using h.stores agent epoch
  accepted_nodup := List.nodup_cons.mpr ⟨hnew, h.accepted_nodup⟩
  used_nodup := List.nodup_cons.mpr ⟨fun hused ↦ hnew (h.used_accepted _ hused), h.used_nodup⟩
  used_accepted nonce hnonce := by
    rcases List.mem_cons.mp hnonce with rfl | hold
    · exact List.mem_cons_self
    · exact List.mem_cons_of_mem _ (h.used_accepted nonce hold)

theorem gateInvariant_claim {gate : Gate} (h : GateInvariant gate) (agentId : String)
    (keyEpoch sequence : ℕ) (now : ℤ) :
    GateInvariant (gateStep gate (.claim agentId keyEpoch sequence now)) := by
  unfold gateStep
  dsimp only
  split_ifs with hheader
  · rcases claimReplay_spec (h.stores agentId keyEpoch) sequence now with
      ⟨hadmits, row, hok, hrow⟩ | ⟨-, herror⟩
    · rw [hok]
      exact gateInvariant_accept h hadmits.1 hrow
    · rw [herror]
      exact h
  · exact h

theorem gateInvariant_finish {gate : Gate} (h : GateInvariant gate) (nonce : AckNonce)
    (acknowledges : Bool) : GateInvariant (gateStep gate (.finish nonce acknowledges)) := by
  unfold gateStep
  dsimp only
  split_ifs with hclaimed hacks
  · have hperm : (gate.claimed.erase nonce ++ nonce :: gate.sealedAcks).Perm
        (gate.claimed ++ gate.sealedAcks) := by
      refine List.perm_middle.trans ?_
      rw [← List.cons_append]
      exact (List.perm_cons_erase hclaimed).symm.append_right _
    refine ⟨h.stores, h.accepted_nodup, hperm.nodup_iff.mpr h.used_nodup, fun other hother ↦ ?_⟩
    exact h.used_accepted other (hperm.mem_iff.mp hother)
  · have hsub : (gate.claimed.erase nonce ++ gate.sealedAcks).Sublist
        (gate.claimed ++ gate.sealedAcks) :=
      List.erase_sublist.append_right _
    refine ⟨h.stores, h.accepted_nodup, h.used_nodup.sublist hsub, fun other hother ↦ ?_⟩
    exact h.used_accepted other (hsub.subset hother)
  · exact h

theorem gateInvariant_step (gate : Gate) (action : GateAction) (h : GateInvariant gate) :
    GateInvariant (gateStep gate action) := by
  cases action with
  | claim agentId keyEpoch sequence now => exact gateInvariant_claim h agentId keyEpoch sequence now
  | finish nonce acknowledges => exact gateInvariant_finish h nonce acknowledges

theorem gateInvariant_run (actions : List GateAction) :
    GateInvariant (run gateStep emptyGate actions) :=
  run_invariant gateInvariant_step gateInvariant_empty actions

/-! ## The window over whole runs -/

theorem claimReplay_ok_iff {gate : Gate} (h : GateInvariant gate) (agentId : String)
    (keyEpoch sequence : ℕ) (now : ℤ) :
    (∃ table, claimReplay gate.table agentId keyEpoch sequence now = .ok table) ↔
      Admits 63 (gate.acceptedSequences agentId keyEpoch) sequence := by
  rcases claimReplay_spec (h.stores agentId keyEpoch) sequence now with
    ⟨hadmits, row, hok, -⟩ | ⟨hrefused, herror⟩
  · exact ⟨fun _ ↦ hadmits, fun _ ↦ ⟨_, hok⟩⟩
  · refine ⟨?_, fun hadmits ↦ absurd hadmits hrefused⟩
    rintro ⟨table, hok⟩
    rw [herror] at hok
    cases hok

/-- The integers the statement computes on the way, for a row and a claimed sequence: every one
is in range except the shifted window, whose low 63 bits are exactly what is stored. -/
structure StatementIntegers (row : ReplayRow) (sequence : ℕ) : Prop where
  stored_pos : 0 < row.windowBits.toNat
  stored_lt : row.windowBits.toNat < 2 ^ 63
  single_bit : sequence < row.highestSequence → row.highestSequence - sequence ≤ 62 →
    1 <<< (row.highestSequence - sequence) < 2 ^ 63
  marked : sequence < row.highestSequence → row.highestSequence - sequence ≤ 62 →
    (claimedBits row sequence).toNat =
        row.windowBits.toNat ||| 1 <<< (row.highestSequence - sequence) ∧
      row.windowBits.toNat ||| 1 <<< (row.highestSequence - sequence) < 2 ^ 63
  shifted : row.highestSequence < sequence → sequence - row.highestSequence < 63 →
    (claimedBits row sequence).toNat =
      (row.windowBits.toNat <<< (sequence - row.highestSequence) ||| 1) % 2 ^ 63
  jumped : row.highestSequence < sequence → 63 ≤ sequence - row.highestSequence →
    (claimedBits row sequence).toNat = 1

theorem statementIntegers_of_represents
    (h : Represents 63 accepted row.highestSequence row.windowBits.toNat) (sequence : ℕ) :
    StatementIntegers row sequence where
  stored_pos := h.bits_pos (by decide)
  stored_lt := h.lt_two_pow
  single_bit _ hnear := by
    rw [Nat.one_shiftLeft]
    exact Nat.pow_lt_pow_right Nat.one_lt_two (by omega)
  marked hbelow hnear :=
    ⟨toNat_claimedBits_below hbelow (by omega), mark_lt_two_pow h.lt_two_pow (by omega)⟩
  shifted habove hnear := by
    rw [toNat_claimedBits_above habove, advance, if_neg (by omega)]
  jumped habove hfar := by
    rw [toNat_claimedBits_above habove, advance, if_pos hfar]

/-- After any requests of any agents, in any order and with any repetitions, a claim succeeds
exactly if its sequence is admitted by the sequences accepted before it; nothing is accepted
twice, no two acknowledgements share a nonce, and the statement's integers are in range but for
the bits that the mask removes. -/
theorem claimReplay_refines_window (actions : List GateAction) (agentId : String)
    (keyEpoch sequence : ℕ) (now : ℤ) :
    ((∃ table, claimReplay (run gateStep emptyGate actions).table agentId keyEpoch sequence now =
        .ok table) ↔
      Admits 63 ((run gateStep emptyGate actions).acceptedSequences agentId keyEpoch) sequence) ∧
    (run gateStep emptyGate actions).accepted.Nodup ∧
    (run gateStep emptyGate actions).sealedAcks.Nodup ∧
    ∀ row, (run gateStep emptyGate actions).table agentId keyEpoch = some row →
      StatementIntegers row sequence := by
  have h := gateInvariant_run actions
  refine ⟨claimReplay_ok_iff h agentId keyEpoch sequence now, h.accepted_nodup, ?_, ?_⟩
  · exact (List.nodup_append.mp h.used_nodup).2.1
  · intro row hrow
    have hstores := h.stores agentId keyEpoch
    rw [hrow] at hstores
    exact statementIntegers_of_represents hstores sequence

/-- Sequences 1, 63 and then 64: the window is `2^62 + 1` when it is shifted by one. -/
theorem claimReplay_shift_exceeds_integer :
    ¬ ∀ (actions : List GateAction) (agentId : String) (keyEpoch sequence : ℕ) (row : ReplayRow),
      (run gateStep emptyGate actions).table agentId keyEpoch = some row →
      claimable row sequence = true → row.highestSequence < sequence →
      sequence - row.highestSequence < 63 →
      row.windowBits.toNat <<< (sequence - row.highestSequence) < 2 ^ 63 := by
  intro h
  have hrow := h [.claim "agent" 1 1 0, .claim "agent" 1 63 0] "agent" 1 64
    { highestSequence := 63, windowBitmap := [1], updatedAt := 0,
      windowBits := 4611686018427387905#64 } (by rfl) (by decide) (by decide) (by decide)
  exact absurd hrow (by decide)

end AlphaPing.Ingest.Replay
