import AlphaPing.Library.KeyedCounters
import AlphaPing.Protocol.Messages

/-!
# The sequence numbers of live sessions

The spool stores the identifier of one live session and the last number that was used for it.
Another session starts again at one, and nothing remembers the numbers of the session before it.
A number is used once in the nonce of a live frame, so that a session that comes back after
another one repeats its nonces.
-/

namespace AlphaPing.Agent.Live

open Protocol Library.KeyedCounters

def maxLiveSequence : ℕ := 1000000

/-- The rows `live_session_id` of `meta_blobs` and `live_sequence` of `meta`. -/
structure LiveMeta where
  liveSessionId : Option Bytes
  liveSequence : Option ℤ

/-- The part of `Spool::create` that a start of the process repeats, `INSERT OR IGNORE`. -/
def LiveMeta.create (stored : LiveMeta) : LiveMeta :=
  { stored with liveSequence := some (stored.liveSequence.getD 0) }

/-- The rows of a new spool. -/
def LiveMeta.new : LiveMeta := LiveMeta.create ⟨none, none⟩

/-- `Spool::next_live_sequence`. A transaction that is not committed leaves the rows as they were.
The last conversion comes after the commit. -/
def nextLiveSequence (stored : LiveMeta) (sessionId : Bytes) : Except String ℕ × LiveMeta :=
  if sessionId.length ≠ 16 then (.error "live session ID must be 16 bytes", stored)
  else
    let kept :=
      if stored.liveSessionId ≠ some sessionId then
        { liveSessionId := some sessionId, liveSequence := stored.liveSequence.map fun _ ↦ 0 }
      else stored
    match kept.liveSequence with
    | none => (.error "Query returned no rows", stored)
    | some current =>
      if 2 ^ 63 - 1 < current + 1 then (.error "live sequence exhausted", stored)
      else if 1000000 < current + 1 then
        (.error "live sequence exceeded the session limit", stored)
      else
        let after := { kept with liveSequence := some (current + 1) }
        if current + 1 < 0 then (.error "live sequence rolled back", after)
        else (.ok (current + 1).toNat, after)

/-- `nonce` of the crypto crate. -/
def nonce (noncePrefix : Bytes) (sequence : ℕ) : Bytes := noncePrefix ++ toBeBytes sequence

/-! ## Runs -/

/-- What happens to the rows. A call can fail at a statement or at the commit, and the process
can die before the caller gets to use the number. -/
inductive Event where
  | call (sessionId : Bytes)
  | rolledBack (sessionId : Bytes)
  | lost (sessionId : Bytes)
  | restart

/-- The rows after an event, with the pair that a caller gets. -/
def step (stored : LiveMeta) : Event → Option (Bytes × ℕ) × LiveMeta
  | .call sessionId =>
    match nextLiveSequence stored sessionId with
    | (.ok sequence, after) => (some (sessionId, sequence), after)
    | (.error _, after) => (none, after)
  | .rolledBack _ => (none, stored)
  | .lost sessionId => (none, (nextLiveSequence stored sessionId).2)
  | .restart => (none, stored.create)

/-- The pairs that the callers of a run get. -/
def returned (stored : LiveMeta) : List Event → List (Bytes × ℕ)
  | [] => []
  | event :: events => (step stored event).1.toList ++ returned (step stored event).2 events

/-- The session that an event brings to the rows. -/
def Event.session : Event → Option Bytes
  | .call sessionId => if sessionId.length = 16 then some sessionId else none
  | .rolledBack _ => none
  | .lost sessionId => if sessionId.length = 16 then some sessionId else none
  | .restart => none

/-- The sessions that numbers are taken for, in the order of the calls. -/
def sessions (events : List Event) : List Bytes := events.filterMap Event.session

def Event.isLost : Event → Bool
  | .lost _ => true
  | _ => false

/-! ## The rows as a counter -/

def Stands (stored : LiveMeta) (counter : Counter Bytes) : Prop :=
  stored.liveSessionId = counter.key ∧ stored.liveSequence = some (counter.count : ℤ) ∧
    counter.count ≤ maxLiveSequence

variable {stored : LiveMeta} {counter : Counter Bytes} {sessionId : Bytes}

theorem stands_new : Stands .new .fresh := ⟨rfl, rfl, Nat.zero_le _⟩

theorem Stands.create (h : Stands stored counter) : stored.create = stored := by
  obtain ⟨-, hsequence, -⟩ := h
  cases stored
  simp_all [LiveMeta.create]

theorem stands_next (h : ¬maxLiveSequence < counter.next sessionId) :
    Stands ⟨some sessionId, some (counter.next sessionId : ℤ)⟩
      ⟨some sessionId, counter.next sessionId⟩ :=
  ⟨rfl, rfl, Nat.le_of_not_lt h⟩

/-- A call with an identifier of the right size issues the next number of the counter, unless the
session is at its limit. -/
theorem nextLiveSequence_eq (h : Stands stored counter) (hlength : sessionId.length = 16) :
    nextLiveSequence stored sessionId =
      if maxLiveSequence < counter.next sessionId then
        (.error "live sequence exceeded the session limit", stored)
      else (.ok (counter.next sessionId),
        ⟨some sessionId, some (counter.next sessionId : ℤ)⟩) := by
  obtain ⟨hsession, hsequence, hbound⟩ := h
  unfold maxLiveSequence at hbound ⊢
  unfold nextLiveSequence
  rw [if_neg (not_not.mpr hlength)]
  by_cases hsame : stored.liveSessionId = some sessionId
  · have hnext : counter.next sessionId = counter.count + 1 := if_pos (hsession ▸ hsame)
    have hexhausted : ¬(2 ^ 63 - 1 : ℤ) < counter.count + 1 := by omega
    have hnegative : ¬(counter.count + 1 : ℤ) < 0 := by omega
    have hfull : (1000000 : ℤ) < counter.count + 1 ↔ 1000000 < counter.count + 1 := by omega
    dsimp only
    rw [if_neg (not_not.mpr hsame), hsequence]
    dsimp only
    rw [if_neg hexhausted, if_neg hnegative, hnext]
    simp only [hfull, hsame]
    rfl
  · have hnext : counter.next sessionId = 1 := if_neg (hsession ▸ hsame)
    have hfree : ¬1000000 < 1 := by decide
    rw [hnext, if_neg hfree, if_pos hsame, hsequence]
    rfl

theorem nextLiveSequence_size (h : sessionId.length ≠ 16) :
    nextLiveSequence stored sessionId = (.error "live session ID must be 16 bytes", stored) :=
  if_pos h

/-! ## No pair twice -/

theorem sessions_cons (event : Event) (events : List Event) :
    sessions (event :: events) = event.session.toList ++ sessions events := by
  unfold sessions
  cases h : event.session <;> simp [h]

/-- What callers get is issued by the counter; only a lost number is not handed on. -/
theorem returned_sublist (h : Stands stored counter) (events : List Event) :
    (returned stored events).Sublist (issued maxLiveSequence counter (sessions events)) ∧
      (events.all (fun event ↦ !event.isLost) →
        returned stored events = issued maxLiveSequence counter (sessions events)) := by
  induction events generalizing stored counter with
  | nil => exact ⟨List.Sublist.slnil, fun _ ↦ rfl⟩
  | cons event events ih =>
    rw [sessions_cons]
    cases event with
    | rolledBack => exact ih h
    | restart =>
      simpa [returned, step, h.create, Event.session, Event.isLost] using ih h
    | call sessionId =>
      by_cases hlength : sessionId.length = 16
      · have hnext := nextLiveSequence_eq h hlength
        simp only [returned, step, Event.session, if_pos hlength, Option.toList_some,
          List.singleton_append, issued, Event.isLost, List.all_cons, Bool.not_false,
          Bool.true_and]
        by_cases hfull : maxLiveSequence < counter.next sessionId
        · rw [hnext, if_pos hfull, if_pos hfull]
          exact ih h
        · obtain ⟨hsublist, heq⟩ := ih (stands_next hfull)
          rw [hnext, if_neg hfull, if_neg hfull]
          apply And.intro
          · exact hsublist.cons_cons _
          · intro hlost
            rw [← heq hlost]
            rfl
      · simpa [returned, step, Event.session, nextLiveSequence_size hlength, hlength,
          Event.isLost] using ih h
    | lost sessionId =>
      apply And.intro _ (by simp [Event.isLost])
      by_cases hlength : sessionId.length = 16
      · have hnext := nextLiveSequence_eq h hlength
        simp only [returned, step, Event.session, if_pos hlength, Option.toList_some,
          Option.toList_none, List.singleton_append, List.nil_append, issued]
        by_cases hfull : maxLiveSequence < counter.next sessionId
        · rw [hnext, if_pos hfull, if_pos hfull]
          exact (ih h).1
        · rw [hnext, if_neg hfull, if_neg hfull]
          exact (ih (stands_next hfull)).1.cons _
      · simpa [returned, step, Event.session, nextLiveSequence_size hlength, hlength] using (ih h).1

theorem sequence_le {pair : Bytes × ℕ} {events : List Event} (h : pair ∈ returned .new events) :
    pair.2 ≤ maxLiveSequence :=
  le_limit_of_issued ((returned_sublist stands_new events).1.mem h)

/-! ## No nonce twice -/

theorem toBeBytes_injective {first second : ℕ} (hfirst : first < 2 ^ 64) (hsecond : second < 2 ^ 64)
    (h : toBeBytes first = toBeBytes second) : first = second := by
  simp only [toBeBytes, List.map_cons, List.map_nil, List.cons.injEq, ← UInt8.toNat_inj,
    UInt8.toNat_ofNat', and_true] at h
  omega

theorem nodup_nonces {pairs : List (Bytes × ℕ)} (noncePrefix : Bytes → Bytes)
    (hbound : ∀ pair ∈ pairs, pair.2 ≤ maxLiveSequence) (h : pairs.Nodup) :
    (pairs.map fun pair ↦ (pair.1, nonce (noncePrefix pair.1) pair.2)).Nodup := by
  apply h.map_on
  intro first hfirst second hsecond heq
  obtain ⟨hsession, hnonce⟩ := Prod.mk.inj heq
  unfold nonce at hnonce
  rw [hsession, List.append_cancel_left_eq] at hnonce
  have hfits {pair : Bytes × ℕ} (hpair : pair ∈ pairs) : pair.2 < 2 ^ 64 :=
    Nat.lt_of_le_of_lt (hbound pair hpair) (by decide)
  exact Prod.ext hsession (toBeBytes_injective (hfits hfirst) (hfits hsecond) hnonce)

/-- The number of a session is never handed out twice, and no nonce repeats, in a run in which no
session comes back after another one. Where the caller gets each number that is committed, this
is also needed. -/
theorem returned_nodup_iff (events : List Event) :
    (Unbroken (sessions events) →
      (returned .new events).Nodup ∧
        ∀ noncePrefix : Bytes → Bytes,
          ((returned .new events).map fun pair ↦
            (pair.1, nonce (noncePrefix pair.1) pair.2)).Nodup) ∧
      (events.all (fun event ↦ !event.isLost) → (returned .new events).Nodup →
        Unbroken (sessions events)) := by
  obtain ⟨hsublist, heq⟩ := returned_sublist stands_new events
  have hlimit : 1 ≤ maxLiveSequence := by decide
  apply And.intro
  · intro hunbroken
    have hnodup := hsublist.nodup ((nodup_issued_iff hlimit).mpr hunbroken)
    apply And.intro hnodup
    intro noncePrefix
    apply nodup_nonces noncePrefix _ hnodup
    intro pair hpair
    exact sequence_le hpair
  · intro hlost hnodup
    rw [heq hlost] at hnodup
    exact (nodup_issued_iff hlimit).mp hnodup

/-- Two sessions in turn, as two servers on either side of a slot boundary hand them out. -/
def alternating : List Event :=
  [.call (List.replicate 16 1), .call (List.replicate 16 2), .call (List.replicate 16 1)]

/-- The first session gets its first number again, and with it its first nonce. -/
theorem alternating_repeats :
    returned .new alternating =
        [(List.replicate 16 1, 1), (List.replicate 16 2, 1), (List.replicate 16 1, 1)] ∧
      ¬(returned .new alternating).Nodup ∧
      ¬((returned .new alternating).map fun pair ↦ (pair.1, nonce [0, 0, 0, 0] pair.2)).Nodup := by
  decide

end AlphaPing.Agent.Live
