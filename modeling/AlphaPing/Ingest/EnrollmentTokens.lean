import AlphaPing.Ingest.Enrollment

/-!
# Enrollment tokens are used once

Of the requests that present a token, the batch of at most one finds it unused, and only that one
inserts an agent with its key and is answered with success. The check at the beginning of the
handler plays no part in this.

An attempt that fails leaves nothing behind, unless its batch was committed and the worker did not
hear of it.
-/

namespace AlphaPing.Ingest.EnrollmentTokens

open Library.Runs Library.Tables Library.Workflows Protocol Enrollment

/-! ## The invariant of the tables -/

def UsedBy (token : TokenRow) (agent : AgentRow) : Prop :=
  token.usedByAgentId = some agent.id ∧ agent.workspaceId = token.workspaceId ∧
    agent.machineId = token.machineId

structure Inv (db : EnrollmentDb) : Prop where
  tokenIds : UniqueKey TokenRow.id db.tokens
  agentIds : UniqueKey AgentRow.id db.agents
  issuedIds : UniqueKey Prod.fst db.issued
  issuedDigests : UniqueKey Prod.snd db.issued
  issued : ∀ token ∈ db.tokens, (token.id, token.tokenDigest) ∈ db.issued
  usedBy : ∀ token ∈ db.tokens, token.usedByAgentId ≠ none → ∃ agent ∈ db.agents,
    UsedBy token agent
  firstKey : ∀ agent ∈ db.agents, ∃ key ∈ db.agentKeys, key.agentId = agent.id ∧ key.keyEpoch = 1
  oneActive : ∀ machineId, db.activeAgents machineId ≤ 1
  agentOnce : ∀ digest, db.agentsCreated digest ≤ 1
  keyOnce : ∀ digest, db.keysCreated digest ≤ 1
  /-- A token that has created something was issued, and is used. -/
  spent : ∀ digest, db.agentsCreated digest + db.keysCreated digest ≠ 0 →
    (∃ id, (id, digest) ∈ db.issued) ∧
      ∀ token ∈ db.tokens, token.tokenDigest = digest → token.usedAt ≠ none

theorem inv_emptyEnrollments : Inv emptyEnrollments where
  tokenIds := uniqueKey_nil
  agentIds := uniqueKey_nil
  issuedIds := uniqueKey_nil
  issuedDigests := uniqueKey_nil
  issued _ h := absurd h List.not_mem_nil
  usedBy _ h := absurd h List.not_mem_nil
  firstKey _ h := absurd h List.not_mem_nil
  oneActive _ := Nat.zero_le _
  agentOnce _ := Nat.zero_le _
  keyOnce _ := Nat.zero_le _
  spent _ h := absurd rfl h

/-- The tokens that were issued stay issued. -/
def Rely (db later : EnrollmentDb) : Prop :=
  ∀ pair ∈ db.issued, pair ∈ later.issued

/-- An enrollment sends the identifier of the token whose digest was presented. -/
def Good (db : EnrollmentDb) : Batch → Prop
  | .enroll plan => (plan.tokenId, plan.tokenDigest) ∈ db.issued
  | .administer _ => True

section Enroll

variable {db after : EnrollmentDb} {plan : Enroll} {changes : ℕ}

/-- The batch has used the token. -/
def enrolledWith (db : EnrollmentDb) (plan : Enroll) (token : TokenRow) : EnrollmentDb :=
  { db with
    tokens := updateWhere (usable plan) plan.use db.tokens
    agents := db.agents ++ [plan.agent token]
    agentKeys := db.agentKeys ++ [plan.key]
    created := db.created ++ [⟨plan.tokenDigest, 1, 1⟩] }

/-- The batch has not found the token, or found it used. -/
def notEnrolled (db : EnrollmentDb) (plan : Enroll) : EnrollmentDb :=
  { db with created := db.created ++ [⟨plan.tokenDigest, 0, 0⟩] }

theorem consumeToken_cases (hinv : Inv db) (h : consumeToken db plan = some (after, changes)) :
    ((∀ token ∈ db.tokens, usable plan token = false) ∧ after = db ∧ changes = 0) ∨
      ∃ token ∈ db.tokens, usable plan token = true ∧ changes = 1 ∧
        after = { db with tokens := updateWhere (usable plan) plan.use db.tokens } := by
  rw [consumeToken] at h
  split at h
  · rename_i hnone
    obtain ⟨rfl, rfl⟩ := Prod.mk.inj (Option.some.inj h)
    exact .inl ⟨by simpa using hnone, rfl, rfl⟩
  · rename_i hany
    split at h
    · cases h
    · obtain ⟨rfl, rfl⟩ := Prod.mk.inj (Option.some.inj h)
      simp only [Bool.not_eq_true, Bool.not_eq_false', List.any_eq_true] at hany
      obtain ⟨token, htoken, husable⟩ := hany
      have hid : ∀ other, usable plan other = true → other.id = plan.tokenId := fun other hother ↦ by
        simp only [usable, Bool.and_eq_true, decide_eq_true_eq] at hother
        exact hother.1.1.1
      exact .inr ⟨token, htoken, husable, hinv.tokenIds.countP_eq_one htoken husable
        fun other hother ↦ (hid other hother).trans (hid token husable).symm, rfl⟩

theorem insertAgent_cases (h : insertAgent db plan = some (after, changes)) :
    ((∀ token ∈ db.tokens, token.id = plan.tokenId → token.usedByAgentId ≠ some plan.agentId) ∧
      after = db ∧ changes = 0) ∨
    ∃ token ∈ db.tokens, token.id = plan.tokenId ∧ token.usedByAgentId = some plan.agentId ∧
      (∀ agent ∈ db.agents, agent.id ≠ plan.agentId) ∧
      (∀ agent ∈ db.agents, agent.machineId = token.machineId → agent.active = false) ∧
      after = { db with agents := db.agents ++ [plan.agent token] } ∧ changes = 1 := by
  rw [insertAgent] at h
  split at h
  · rename_i hnone
    obtain ⟨rfl, rfl⟩ := Prod.mk.inj (Option.some.inj h)
    refine .inl ⟨fun token htoken hid hused ↦ ?_, rfl, rfl⟩
    have := List.find?_eq_none.mp hnone token htoken
    simp [hid, hused] at this
  · rename_i token hfound
    have hmatch := List.find?_some hfound
    simp only [Bool.and_eq_true, decide_eq_true_eq] at hmatch
    split at h
    · cases h
    · rename_i hfresh
      split at h
      · cases h
      · rename_i hinactive
        obtain ⟨rfl, rfl⟩ := Prod.mk.inj (Option.some.inj h)
        refine .inr ⟨token, List.mem_of_find?_eq_some hfound, hmatch.1, hmatch.2, ?_, ?_, rfl, rfl⟩
        · simpa using hfresh
        · simpa using hinactive

theorem insertKey_cases (h : insertKey db plan = some (after, changes)) :
    ((∀ agent ∈ db.agents, agent.id ≠ plan.agentId) ∧ after = db ∧ changes = 0) ∨
    ((∃ agent ∈ db.agents, agent.id = plan.agentId) ∧
      (∀ key ∈ db.agentKeys, key.agentId = plan.agentId → key.keyEpoch ≠ 1) ∧
      after = { db with agentKeys := db.agentKeys ++ [plan.key] } ∧ changes = 1) := by
  rw [insertKey] at h
  split at h
  · rename_i hnone
    obtain ⟨rfl, rfl⟩ := Prod.mk.inj (Option.some.inj h)
    exact .inl ⟨by simpa using hnone, rfl, rfl⟩
  · rename_i hagent
    split at h
    · cases h
    · rename_i hfresh
      obtain ⟨rfl, rfl⟩ := Prod.mk.inj (Option.some.inj h)
      exact .inr ⟨by simpa using hagent, by simpa using hfresh, rfl, rfl⟩

/-- Either the token was used by this batch, which then has one change and one row in each table,
or the batch has changed nothing. -/
theorem enrollBatch_cases (hinv : Inv db) (h : enrollBatch db plan = some (after, changes)) :
    (after = notEnrolled db plan ∧ changes = 0) ∨
    ∃ token ∈ db.tokens, usable plan token = true ∧
      (∀ agent ∈ db.agents, agent.id ≠ plan.agentId) ∧
      (∀ agent ∈ db.agents, agent.machineId = token.machineId → agent.active = false) ∧
      after = enrolledWith db plan token ∧ changes = 1 := by
  obtain ⟨⟨consumed, first⟩, hconsumed, h⟩ := Option.bind_eq_some_iff.mp h
  obtain ⟨⟨enrolled, second⟩, henrolled, h⟩ := Option.bind_eq_some_iff.mp h
  obtain ⟨⟨keyed, third⟩, hkeyed, h⟩ := Option.map_eq_some_iff.mp h
  obtain ⟨rfl, rfl⟩ := Prod.mk.inj h
  rcases consumeToken_cases hinv hconsumed with ⟨hunusable, rfl, rfl⟩ |
    ⟨token, htoken, husable, rfl, rfl⟩
  · -- Nothing was used: an agent with this identifier would have its row and its key.
    rcases insertAgent_cases henrolled with ⟨-, rfl, rfl⟩ |
      ⟨used, hused, -, husedBy, hfresh, -⟩
    · rcases insertKey_cases hkeyed with ⟨-, rfl, rfl⟩ | ⟨⟨agent, hagent, hid⟩, hnokey, -⟩
      · exact .inl ⟨rfl, rfl⟩
      · obtain ⟨key, hkey, hkeyId, hepoch⟩ := hinv.firstKey agent hagent
        exact absurd hepoch (hnokey key hkey (hkeyId.trans hid))
    · obtain ⟨agent, hagent, hby, -⟩ := hinv.usedBy used hused (by simp [husedBy])
      exact absurd (Option.some.inj (hby.symm.trans husedBy)) (hfresh agent hagent)
  · have hid : token.id = plan.tokenId := by
      simp only [usable, Bool.and_eq_true, decide_eq_true_eq] at husable
      exact husable.1.1.1
    have hmember : plan.use token ∈ updateWhere (usable plan) plan.use db.tokens :=
      mem_updateWhere.mpr ⟨token, htoken, .inl ⟨husable, rfl⟩⟩
    rcases insertAgent_cases henrolled with ⟨hnone, -, -⟩ |
      ⟨used, hused, husedId, -, hfresh, hinactive, rfl, rfl⟩
    · exact absurd rfl (hnone _ hmember hid)
    · have hunique : UniqueKey TokenRow.id (updateWhere (usable plan) plan.use db.tokens) :=
        hinv.tokenIds.updateWhere fun _ ↦ rfl
      obtain rfl : used = plan.use token :=
        hunique.eq_of_mem hused hmember (husedId.trans hid.symm)
      rcases insertKey_cases hkeyed with ⟨hnone, -, -⟩ | ⟨-, -, rfl, rfl⟩
      · exact absurd rfl (hnone (plan.agent token) (List.mem_append_right _ (by simp [Enroll.agent,
          Enroll.use])))
      · exact .inr ⟨token, htoken, husable, hfresh, hinactive, rfl, rfl⟩

theorem agentsCreated_append (db : EnrollmentDb) (entry : Created) (digest : Bytes) :
    ({ db with created := db.created ++ [entry] } : EnrollmentDb).agentsCreated digest =
      db.agentsCreated digest + if entry.tokenDigest = digest then entry.agents else 0 := by
  by_cases h : entry.tokenDigest = digest <;> simp [EnrollmentDb.agentsCreated, h]

theorem keysCreated_append (db : EnrollmentDb) (entry : Created) (digest : Bytes) :
    ({ db with created := db.created ++ [entry] } : EnrollmentDb).keysCreated digest =
      db.keysCreated digest + if entry.tokenDigest = digest then entry.keys else 0 := by
  by_cases h : entry.tokenDigest = digest <;> simp [EnrollmentDb.keysCreated, h]

theorem agentsCreated_notEnrolled (digest : Bytes) :
    (notEnrolled db plan).agentsCreated digest = db.agentsCreated digest := by
  rw [notEnrolled, agentsCreated_append]
  simp

theorem keysCreated_notEnrolled (digest : Bytes) :
    (notEnrolled db plan).keysCreated digest = db.keysCreated digest := by
  rw [notEnrolled, keysCreated_append]
  simp

theorem agentsCreated_enrolledWith (token : TokenRow) (digest : Bytes) :
    (enrolledWith db plan token).agentsCreated digest =
      db.agentsCreated digest + if plan.tokenDigest = digest then 1 else 0 :=
  agentsCreated_append db ⟨plan.tokenDigest, 1, 1⟩ digest

theorem keysCreated_enrolledWith (token : TokenRow) (digest : Bytes) :
    (enrolledWith db plan token).keysCreated digest =
      db.keysCreated digest + if plan.tokenDigest = digest then 1 else 0 :=
  keysCreated_append db ⟨plan.tokenDigest, 1, 1⟩ digest

theorem Inv.notEnrolled (hinv : Inv db) : Inv (notEnrolled db plan) where
  tokenIds := hinv.tokenIds
  agentIds := hinv.agentIds
  issuedIds := hinv.issuedIds
  issuedDigests := hinv.issuedDigests
  issued := hinv.issued
  usedBy := hinv.usedBy
  firstKey := hinv.firstKey
  oneActive := hinv.oneActive
  agentOnce digest := (agentsCreated_notEnrolled digest).trans_le (hinv.agentOnce digest)
  keyOnce digest := (keysCreated_notEnrolled digest).trans_le (hinv.keyOnce digest)
  spent digest h := by
    rw [agentsCreated_notEnrolled, keysCreated_notEnrolled] at h
    exact hinv.spent digest h

theorem Inv.unspent (hinv : Inv db) (hgood : (plan.tokenId, plan.tokenDigest) ∈ db.issued)
    {token : TokenRow} (htoken : token ∈ db.tokens) (husable : usable plan token = true) :
    token.tokenDigest = plan.tokenDigest ∧ db.agentsCreated plan.tokenDigest = 0 ∧
      db.keysCreated plan.tokenDigest = 0 := by
  simp only [usable, Bool.and_eq_true, decide_eq_true_eq, Option.isNone_iff_eq_none] at husable
  have hdigest : token.tokenDigest = plan.tokenDigest := by
    have hissued := hinv.issued token htoken
    rw [husable.1.1.1] at hissued
    exact congrArg Prod.snd (hinv.issuedIds.eq_of_mem hissued hgood rfl)
  refine ⟨hdigest, Nat.add_eq_zero_iff.mp ?_⟩
  by_contra hspent
  exact (hinv.spent plan.tokenDigest hspent).2 token htoken hdigest husable.1.1.2

theorem Inv.enrolledWith (hinv : Inv db) (hgood : (plan.tokenId, plan.tokenDigest) ∈ db.issued)
    {token : TokenRow} (htoken : token ∈ db.tokens) (husable : usable plan token = true)
    (hfresh : ∀ agent ∈ db.agents, agent.id ≠ plan.agentId)
    (hinactive : ∀ agent ∈ db.agents, agent.machineId = token.machineId → agent.active = false) :
    Inv (enrolledWith db plan token) := by
  obtain ⟨hdigest, hagents, hkeys⟩ := hinv.unspent hgood htoken husable
  have hid : token.id = plan.tokenId := by
    simp only [usable, Bool.and_eq_true, decide_eq_true_eq] at husable
    exact husable.1.1.1
  -- The token that the batch uses is the only usable one.
  have honly : ∀ other ∈ db.tokens, usable plan other = true → other = token := by
    intro other hother hmatch
    simp only [usable, Bool.and_eq_true, decide_eq_true_eq] at hmatch
    exact hinv.tokenIds.eq_of_mem hother htoken (hmatch.1.1.1.trans hid.symm)
  constructor
  · exact hinv.tokenIds.updateWhere fun _ ↦ rfl
  · exact uniqueKey_append_singleton hinv.agentIds hfresh
  · exact hinv.issuedIds
  · exact hinv.issuedDigests
  · intro row hrow
    obtain ⟨old, hold, ⟨-, rfl⟩ | ⟨-, rfl⟩⟩ := mem_updateWhere.mp hrow
    · exact hinv.issued old hold
    · exact hinv.issued row hold
  · intro row hrow hused
    obtain ⟨old, hold, ⟨hmatch, rfl⟩ | ⟨-, rfl⟩⟩ := mem_updateWhere.mp hrow
    · rw [honly old hold hmatch]
      exact ⟨plan.agent token, List.mem_append_right _ (List.mem_singleton_self _), rfl, rfl, rfl⟩
    · obtain ⟨agent, hagent, hby⟩ := hinv.usedBy row hold hused
      exact ⟨agent, List.mem_append_left _ hagent, hby⟩
  · intro agent hagent
    rcases List.mem_append.mp hagent with hold | hnew
    · obtain ⟨key, hkey, hfirst⟩ := hinv.firstKey agent hold
      exact ⟨key, List.mem_append_left _ hkey, hfirst⟩
    · rw [List.mem_singleton.mp hnew]
      exact ⟨plan.key, List.mem_append_right _ (List.mem_singleton_self _), rfl, rfl⟩
  · intro machineId
    have hbefore := hinv.oneActive machineId
    rw [EnrollmentDb.activeAgents] at hbefore ⊢
    dsimp only [EnrollmentTokens.enrolledWith]
    rw [List.countP_append, List.countP_singleton]
    split
    · rename_i hmachine
      have hmachine : token.machineId = machineId :=
        of_decide_eq_true (Bool.and_eq_true_iff.mp hmachine).1
      have hnone : (db.agents.countP fun agent ↦
          agent.machineId = machineId && agent.active) = 0 := by
        refine List.countP_eq_zero.mpr fun agent hagent htrue ↦ ?_
        simp only [Bool.and_eq_true, decide_eq_true_eq] at htrue
        have := hinactive agent hagent (htrue.1.trans hmachine.symm)
        rw [this] at htrue
        exact absurd htrue.2 (by decide)
      omega
    · exact hbefore
  · intro digest
    rw [agentsCreated_enrolledWith]
    split
    · rename_i heq
      rw [← heq, hagents]
    · exact hinv.agentOnce digest
  · intro digest
    rw [keysCreated_enrolledWith]
    split
    · rename_i heq
      rw [← heq, hkeys]
    · exact hinv.keyOnce digest
  · intro digest hspent
    rw [agentsCreated_enrolledWith, keysCreated_enrolledWith] at hspent
    have husedNow : ∀ row ∈ updateWhere (usable plan) plan.use db.tokens,
        row.usedAt = none → row ∈ db.tokens ∧ usable plan row = false := by
      intro row hrow hunused
      obtain ⟨old, hold, ⟨-, rfl⟩ | ⟨hmatch, rfl⟩⟩ := mem_updateWhere.mp hrow
      · exact nomatch hunused
      · exact ⟨hold, hmatch⟩
    by_cases heq : plan.tokenDigest = digest
    · refine ⟨⟨plan.tokenId, heq ▸ hgood⟩, fun row hrow hrowDigest hunused ↦ ?_⟩
      obtain ⟨hold, hunusable⟩ := husedNow row hrow hunused
      have hissued := hinv.issued row hold
      rw [hrowDigest, ← heq] at hissued
      have hrowId := congrArg Prod.fst (hinv.issuedDigests.eq_of_mem hissued hgood rfl)
      rw [hinv.tokenIds.eq_of_mem hold htoken (hrowId.trans hid.symm), husable] at hunusable
      cases hunusable
    · rw [if_neg heq] at hspent
      obtain ⟨hissued, hused⟩ := hinv.spent digest hspent
      refine ⟨hissued, fun row hrow hrowDigest hunused ↦ ?_⟩
      exact hused row (husedNow row hrow hunused).1 hrowDigest hunused

theorem Inv.enrollBatch (hinv : Inv db) (hgood : (plan.tokenId, plan.tokenDigest) ∈ db.issued)
    (h : enrollBatch db plan = some (after, changes)) : Inv after := by
  rcases enrollBatch_cases hinv h with ⟨rfl, -⟩ |
    ⟨token, htoken, husable, hfresh, hinactive, rfl, -⟩
  · exact hinv.notEnrolled
  · exact hinv.enrolledWith hgood htoken husable hfresh hinactive

end Enroll

/-! ## The other writers -/

section Administer

variable {db after : EnrollmentDb}

theorem Inv.of_others (hinv : Inv db) (workspaces : List WorkspaceRow)
    (machines : List MachineRow) :
    Inv { db with workspaces := workspaces, machines := machines } :=
  ⟨hinv.tokenIds, hinv.agentIds, hinv.issuedIds, hinv.issuedDigests, hinv.issued, hinv.usedBy,
    hinv.firstKey, hinv.oneActive, hinv.agentOnce, hinv.keyOnce, hinv.spent⟩

theorem insertToken_cases {token : NewToken} (h : insertToken db token = some after) :
    (∀ old ∈ db.issued, old.1 ≠ token.id ∧ old.2 ≠ token.tokenDigest) ∧
      after = { db with
        tokens := db.tokens ++ [⟨token.id, token.workspaceId, token.machineId, token.tokenDigest,
          token.expiresAt, none, none, none⟩]
        issued := db.issued ++ [(token.id, token.tokenDigest)] } := by
  rw [insertToken] at h
  split at h
  · cases h
  · rename_i hfresh
    refine ⟨fun old hold ↦ ?_, (Option.some.inj h).symm⟩
    simp only [Bool.not_eq_true, List.any_eq_false, Bool.or_eq_true, decide_eq_true_eq,
      not_or] at hfresh
    exact hfresh old hold

theorem Inv.insertToken (hinv : Inv db) {token : NewToken}
    (h : insertToken db token = some after) : Inv after := by
  obtain ⟨hfresh, rfl⟩ := insertToken_cases h
  constructor
  · exact uniqueKey_append_singleton hinv.tokenIds fun row hrow ↦
      (hfresh _ (hinv.issued row hrow)).1
  · exact hinv.agentIds
  · exact uniqueKey_append_singleton hinv.issuedIds fun old hold ↦ (hfresh old hold).1
  · exact uniqueKey_append_singleton hinv.issuedDigests fun old hold ↦ (hfresh old hold).2
  · intro row hrow
    rcases List.mem_append.mp hrow with hold | hnew
    · exact List.mem_append_left _ (hinv.issued row hold)
    · rw [List.mem_singleton.mp hnew]
      exact List.mem_append_right _ (List.mem_singleton_self _)
  · intro row hrow hused
    rcases List.mem_append.mp hrow with hold | hnew
    · exact hinv.usedBy row hold hused
    · rw [List.mem_singleton.mp hnew] at hused
      exact absurd rfl hused
  · exact hinv.firstKey
  · exact hinv.oneActive
  · exact hinv.agentOnce
  · exact hinv.keyOnce
  · intro digest hspent
    obtain ⟨⟨id, hissued⟩, hused⟩ := hinv.spent digest hspent
    refine ⟨⟨id, List.mem_append_left _ hissued⟩, fun row hrow hdigest ↦ ?_⟩
    rcases List.mem_append.mp hrow with hold | hnew
    · exact hused row hold hdigest
    · rw [List.mem_singleton.mp hnew] at hdigest
      exact absurd hdigest.symm (hfresh _ hissued).2.symm.symm

theorem Inv.revokeTokens (hinv : Inv db) (now : ℕ) (condition : TokenRow → Bool) :
    Inv (revokeTokens db now condition) := by
  constructor
  · exact hinv.tokenIds.updateWhere fun _ ↦ rfl
  · exact hinv.agentIds
  · exact hinv.issuedIds
  · exact hinv.issuedDigests
  · intro row hrow
    obtain ⟨old, hold, ⟨-, rfl⟩ | ⟨-, rfl⟩⟩ := mem_updateWhere.mp hrow
    · exact hinv.issued old hold
    · exact hinv.issued row hold
  · intro row hrow hused
    obtain ⟨old, hold, ⟨-, rfl⟩ | ⟨-, rfl⟩⟩ := mem_updateWhere.mp hrow
    · exact hinv.usedBy old hold hused
    · exact hinv.usedBy row hold hused
  · exact hinv.firstKey
  · exact hinv.oneActive
  · exact hinv.agentOnce
  · exact hinv.keyOnce
  · intro digest hspent
    obtain ⟨hissued, hused⟩ := hinv.spent digest hspent
    refine ⟨hissued, fun row hrow hdigest ↦ ?_⟩
    obtain ⟨old, hold, ⟨-, rfl⟩ | ⟨-, rfl⟩⟩ := mem_updateWhere.mp hrow
    · exact hused old hold hdigest
    · exact hused row hold hdigest

theorem Inv.cascade (hinv : Inv db) (goes : String → String → Bool) : Inv (cascade db goes) := by
  constructor
  · exact hinv.tokenIds.filter _
  · exact hinv.agentIds.filter _
  · exact hinv.issuedIds
  · exact hinv.issuedDigests
  · intro row hrow
    exact hinv.issued row (List.mem_filter.mp hrow).1
  · intro row hrow hused
    obtain ⟨hold, hstays⟩ := List.mem_filter.mp hrow
    obtain ⟨agent, hagent, hby, hworkspace, hmachine⟩ := hinv.usedBy row hold hused
    refine ⟨agent, List.mem_filter.mpr ⟨hagent, ?_⟩, hby, hworkspace, hmachine⟩
    rw [hworkspace, hmachine]
    exact hstays
  · intro agent hagent
    obtain ⟨hold, hstays⟩ := List.mem_filter.mp hagent
    obtain ⟨key, hkey, hid, hepoch⟩ := hinv.firstKey agent hold
    refine ⟨key, List.mem_filter.mpr ⟨hkey, ?_⟩, hid, hepoch⟩
    rw [Bool.not_eq_true', List.any_eq_false]
    intro other hother hgoes
    simp only [Bool.and_eq_true, decide_eq_true_eq] at hgoes
    rw [hinv.agentIds.eq_of_mem hother hold (hgoes.1.trans hid)] at hgoes
    simp [hgoes.2] at hstays
  · intro machineId
    have hsublist : (db.agents.filter fun agent ↦
        !goes agent.workspaceId agent.machineId).Sublist db.agents := List.filter_sublist
    exact (hsublist.countP_le).trans (hinv.oneActive machineId)
  · exact hinv.agentOnce
  · exact hinv.keyOnce
  · intro digest hspent
    obtain ⟨hissued, hused⟩ := hinv.spent digest hspent
    exact ⟨hissued, fun row hrow ↦ hused row (List.mem_filter.mp hrow).1⟩

theorem Inv.applyRevision (hinv : Inv db) (agentId : String) (revision : ℕ) :
    Inv { db with
      agents := updateWhere (fun agent ↦ agent.id = agentId)
        (fun agent ↦ { agent with appliedConfigRevision := revision }) db.agents } := by
  constructor
  · exact hinv.tokenIds
  · exact hinv.agentIds.updateWhere fun _ ↦ rfl
  · exact hinv.issuedIds
  · exact hinv.issuedDigests
  · exact hinv.issued
  · intro token htoken hused
    obtain ⟨agent, hagent, hby⟩ := hinv.usedBy token htoken hused
    by_cases hid : agent.id = agentId
    · exact ⟨_, mem_updateWhere.mpr ⟨agent, hagent, .inl ⟨decide_eq_true hid, rfl⟩⟩, hby⟩
    · exact ⟨agent, mem_updateWhere_of_not hagent (decide_eq_false hid), hby⟩
  · intro agent hagent
    obtain ⟨old, hold, ⟨-, rfl⟩ | ⟨-, rfl⟩⟩ := mem_updateWhere.mp hagent
    · exact hinv.firstKey old hold
    · exact hinv.firstKey agent hold
  · intro machineId
    have hsame : (updateWhere (fun agent ↦ agent.id = agentId)
        (fun agent ↦ { agent with appliedConfigRevision := revision }) db.agents).countP
          (fun agent ↦ agent.machineId = machineId && agent.active) =
        db.activeAgents machineId := by
      rw [EnrollmentDb.activeAgents, updateWhere, List.countP_map]
      refine List.countP_congr fun agent _ ↦ ?_
      dsimp only [Function.comp]
      split <;> rfl
    exact hsame.trans_le (hinv.oneActive machineId)
  · exact hinv.agentOnce
  · exact hinv.keyOnce
  · exact hinv.spent

theorem Inv.of_keys (hinv : Inv db) {agentKeys : List AgentKeyRow}
    (h : ∀ key ∈ db.agentKeys, ∃ other ∈ agentKeys,
      other.agentId = key.agentId ∧ other.keyEpoch = key.keyEpoch) :
    Inv { db with agentKeys := agentKeys } where
  tokenIds := hinv.tokenIds
  agentIds := hinv.agentIds
  issuedIds := hinv.issuedIds
  issuedDigests := hinv.issuedDigests
  issued := hinv.issued
  usedBy := hinv.usedBy
  firstKey agent hagent := by
    obtain ⟨key, hkey, hid, hepoch⟩ := hinv.firstKey agent hagent
    obtain ⟨other, hother, hsameId, hsameEpoch⟩ := h key hkey
    exact ⟨other, hother, hsameId.trans hid, hsameEpoch.trans hepoch⟩
  oneActive := hinv.oneActive
  agentOnce := hinv.agentOnce
  keyOnce := hinv.keyOnce
  spent := hinv.spent

theorem Inv.administer (hinv : Inv db) {change : Administration}
    (h : administer db change = some after) : Inv after := by
  cases change with
  | createWorkspace workspace =>
    rw [Enrollment.administer] at h
    split at h
    · cases h
    · obtain rfl := Option.some.inj h
      exact hinv.of_others _ _
  | createMachine machine token =>
    rw [Enrollment.administer] at h
    split at h
    · cases h
    · exact (hinv.of_others db.workspaces (db.machines ++ [machine])).insertToken h
  | updateMachine machineId sampling report containers =>
    obtain rfl := Option.some.inj h
    exact hinv.of_others _ _
  | revokeToken tokenId workspaceId machineId now =>
    obtain rfl := Option.some.inj h
    exact hinv.revokeTokens now _
  | regenerateToken token now =>
    rw [Enrollment.administer] at h
    split at h
    · obtain ⟨inserted, hinserted, rfl⟩ := Option.map_eq_some_iff.mp h
      exact (hinv.insertToken hinserted).revokeTokens now _
    · obtain rfl := Option.some.inj h
      exact hinv
  | setWorkspaceDeleted workspaceId deletedAt =>
    obtain rfl := Option.some.inj h
    exact hinv.of_others _ _
  | setMachineDeleted machineId deletedAt =>
    obtain rfl := Option.some.inj h
    exact hinv.of_others _ _
  | purgeMachine machineId =>
    obtain rfl := Option.some.inj h
    exact (hinv.of_others _ _).cascade _
  | purgeWorkspace workspaceId =>
    obtain rfl := Option.some.inj h
    exact (hinv.of_others _ _).cascade _
  | applyRevision agentId revision =>
    obtain rfl := Option.some.inj h
    exact hinv.applyRevision agentId revision
  | proposeKey key =>
    rw [Enrollment.administer] at h
    split at h
    · cases h
    · split at h
      · obtain rfl := Option.some.inj h
        exact hinv
      · obtain rfl := Option.some.inj h
        exact hinv.of_keys fun old hold ↦ ⟨old, List.mem_append_left _ hold, rfl, rfl⟩
  | limitKey agentId keyEpoch validUntil =>
    obtain rfl := Option.some.inj h
    refine hinv.of_keys fun old hold ↦ ⟨_, mem_updateWhere_of_mem hold, ?_⟩
    split <;> exact ⟨rfl, rfl⟩

theorem issued_administer {change : Administration} (h : administer db change = some after) :
    Rely db after ∧ after.created = db.created := by
  have hinsert : ∀ (db : EnrollmentDb) {after : EnrollmentDb} {token : NewToken},
      insertToken db token = some after → Rely db after ∧ after.created = db.created := by
    intro db after token h
    obtain ⟨-, rfl⟩ := insertToken_cases h
    exact ⟨fun _ hpair ↦ List.mem_append_left _ hpair, rfl⟩
  cases change with
  | createMachine machine token =>
    rw [administer] at h
    split at h
    · cases h
    · exact hinsert { db with machines := db.machines ++ [machine] } h
  | regenerateToken token now =>
    rw [administer] at h
    split at h
    · obtain ⟨inserted, hinserted, rfl⟩ := Option.map_eq_some_iff.mp h
      have hsame := hinsert _ hinserted
      exact ⟨hsame.1, hsame.2⟩
    · obtain rfl := Option.some.inj h
      exact ⟨fun _ hpair ↦ hpair, rfl⟩
  | createWorkspace workspace =>
    rw [administer] at h
    split at h
    · cases h
    · obtain rfl := Option.some.inj h
      exact ⟨fun _ hpair ↦ hpair, rfl⟩
  | proposeKey key =>
    rw [administer] at h
    split at h
    · cases h
    · split at h <;> obtain rfl := Option.some.inj h <;> exact ⟨fun _ hpair ↦ hpair, rfl⟩
  | updateMachine machineId sampling report containers =>
    obtain rfl := Option.some.inj h
    exact ⟨fun _ hpair ↦ hpair, rfl⟩
  | revokeToken tokenId workspaceId machineId now =>
    obtain rfl := Option.some.inj h
    exact ⟨fun _ hpair ↦ hpair, rfl⟩
  | setWorkspaceDeleted workspaceId deletedAt =>
    obtain rfl := Option.some.inj h
    exact ⟨fun _ hpair ↦ hpair, rfl⟩
  | setMachineDeleted machineId deletedAt =>
    obtain rfl := Option.some.inj h
    exact ⟨fun _ hpair ↦ hpair, rfl⟩
  | purgeMachine machineId =>
    obtain rfl := Option.some.inj h
    exact ⟨fun _ hpair ↦ hpair, rfl⟩
  | purgeWorkspace workspaceId =>
    obtain rfl := Option.some.inj h
    exact ⟨fun _ hpair ↦ hpair, rfl⟩
  | applyRevision agentId revision =>
    obtain rfl := Option.some.inj h
    exact ⟨fun _ hpair ↦ hpair, rfl⟩
  | limitKey agentId keyEpoch validUntil =>
    obtain rfl := Option.some.inj h
    exact ⟨fun _ hpair ↦ hpair, rfl⟩

end Administer

/-! ## Batches -/

section Batches

variable {db after : EnrollmentDb}

theorem perform_cases (batch : Batch) (db : EnrollmentDb) :
    perform batch db = (db, none) ∨
      ∃ after changes, execute db batch = some (after, changes) ∧
        perform batch db = (after, some changes) := by
  rw [perform]
  cases hexecute : execute db batch with
  | none => exact .inl rfl
  | some result => exact .inr ⟨result.1, result.2, rfl, rfl⟩

/-- A batch that has used a token has inserted its agent, whatever the tables are like. -/
theorem created_of_changes {plan : Enroll} {changes : ℕ}
    (h : enrollBatch db plan = some (after, changes)) (hchanges : changes ≠ 0) :
    ∃ keys, after.created = db.created ++ [⟨plan.tokenDigest, 1, keys⟩] := by
  obtain ⟨⟨consumed, first⟩, hconsumed, h⟩ := Option.bind_eq_some_iff.mp h
  obtain ⟨⟨enrolled, second⟩, henrolled, h⟩ := Option.bind_eq_some_iff.mp h
  obtain ⟨⟨keyed, third⟩, hkeyed, h⟩ := Option.map_eq_some_iff.mp h
  obtain ⟨rfl, rfl⟩ := Prod.mk.inj h
  have hused : consumed.created = db.created ∧
      ∃ token ∈ consumed.tokens, token.id = plan.tokenId ∧
        token.usedByAgentId = some plan.agentId := by
    rw [consumeToken] at hconsumed
    split at hconsumed
    · obtain ⟨-, rfl⟩ := Prod.mk.inj (Option.some.inj hconsumed)
      exact absurd rfl hchanges
    · rename_i hany
      split at hconsumed
      · cases hconsumed
      · obtain ⟨rfl, -⟩ := Prod.mk.inj (Option.some.inj hconsumed)
        simp only [Bool.not_eq_true, Bool.not_eq_false', List.any_eq_true] at hany
        obtain ⟨token, htoken, husable⟩ := hany
        refine ⟨rfl, plan.use token, mem_updateWhere.mpr ⟨token, htoken, .inl ⟨husable, rfl⟩⟩, ?_,
          rfl⟩
        simp only [usable, Bool.and_eq_true, decide_eq_true_eq] at husable
        exact husable.1.1.1
  obtain ⟨hcreated, token, htoken, hid, hby⟩ := hused
  rcases insertAgent_cases henrolled with ⟨hnone, -⟩ | ⟨used, -, -, -, -, -, rfl, rfl⟩
  · exact absurd hby (hnone token htoken hid)
  · refine ⟨third, ?_⟩
    rcases insertKey_cases hkeyed with ⟨-, rfl, -⟩ | ⟨-, -, rfl, -⟩ <;> dsimp only <;>
      rw [hcreated]

theorem created_enrollBatch {plan : Enroll} {changes : ℕ}
    (h : enrollBatch db plan = some (after, changes)) :
    after.issued = db.issued ∧
      ∃ agents keys, after.created = db.created ++ [⟨plan.tokenDigest, agents, keys⟩] := by
  obtain ⟨⟨consumed, first⟩, hconsumed, h⟩ := Option.bind_eq_some_iff.mp h
  obtain ⟨⟨enrolled, second⟩, henrolled, h⟩ := Option.bind_eq_some_iff.mp h
  obtain ⟨⟨keyed, third⟩, hkeyed, h⟩ := Option.map_eq_some_iff.mp h
  obtain ⟨rfl, rfl⟩ := Prod.mk.inj h
  have hfirst : consumed.issued = db.issued ∧ consumed.created = db.created := by
    rw [consumeToken] at hconsumed
    split at hconsumed
    · obtain ⟨rfl, -⟩ := Prod.mk.inj (Option.some.inj hconsumed)
      exact ⟨rfl, rfl⟩
    · split at hconsumed
      · cases hconsumed
      · obtain ⟨rfl, -⟩ := Prod.mk.inj (Option.some.inj hconsumed)
        exact ⟨rfl, rfl⟩
  have hsecond : enrolled.issued = consumed.issued ∧ enrolled.created = consumed.created := by
    rcases insertAgent_cases henrolled with ⟨-, rfl, -⟩ | ⟨used, -, -, -, -, -, rfl, -⟩
    · exact ⟨rfl, rfl⟩
    · exact ⟨rfl, rfl⟩
  have hthird : keyed.issued = enrolled.issued ∧ keyed.created = enrolled.created := by
    rcases insertKey_cases hkeyed with ⟨-, rfl, -⟩ | ⟨-, -, rfl, -⟩
    · exact ⟨rfl, rfl⟩
    · exact ⟨rfl, rfl⟩
  refine ⟨hthird.1.trans (hsecond.1.trans hfirst.1), second, third, ?_⟩
  dsimp only
  rw [hthird.2, hsecond.2, hfirst.2]

theorem agentsCreated_mono (batch : Batch) (db : EnrollmentDb) (digest : Bytes) :
    db.agentsCreated digest ≤ (perform batch db).1.agentsCreated digest := by
  rcases perform_cases batch db with hsame | ⟨after, changes, hexecute, hperform⟩
  · rw [hsame]
  · rw [hperform]
    cases batch with
    | enroll plan =>
      obtain ⟨-, agents, keys, hcreated⟩ := created_enrollBatch hexecute
      simp only [EnrollmentDb.agentsCreated, hcreated, List.filter_append, List.map_append,
        List.sum_append]
      exact Nat.le_add_right _ _
    | administer change =>
      obtain ⟨administered, hadminister, heq⟩ := Option.map_eq_some_iff.mp hexecute
      obtain ⟨rfl, -⟩ := Prod.mk.inj heq
      rw [EnrollmentDb.agentsCreated, EnrollmentDb.agentsCreated, (issued_administer hadminister).2]

theorem guarantee : Guarantee perform Inv Rely Good fun _ _ ↦ True where
  refl _ _ h := h
  trans hfirst hsecond pair hpair := hsecond pair (hfirst pair hpair)
  inv {store batch} hinv hgood _ := by
    rcases perform_cases batch store with hsame | ⟨after, changes, hexecute, hperform⟩
    · rwa [hsame]
    · rw [hperform]
      cases batch with
      | enroll plan => exact hinv.enrollBatch hgood hexecute
      | administer change =>
        obtain ⟨administered, hadminister, heq⟩ := Option.map_eq_some_iff.mp hexecute
        obtain ⟨rfl, -⟩ := Prod.mk.inj heq
        exact hinv.administer hadminister
  rely {store batch} _ _ _ := by
    rcases perform_cases batch store with hsame | ⟨after, changes, hexecute, hperform⟩
    · rw [hsame]
      exact fun _ hpair ↦ hpair
    · rw [hperform]
      cases batch with
      | enroll plan =>
        intro pair hpair
        rwa [(created_enrollBatch hexecute).1]
      | administer change =>
        obtain ⟨administered, hadminister, heq⟩ := Option.map_eq_some_iff.mp hexecute
        obtain ⟨rfl, -⟩ := Prod.mk.inj heq
        exact (issued_administer hadminister).1

end Batches

/-! ## Handlers -/

section Handlers

variable {env : Env} {request : HttpRequest} {enrollment : EnrollmentRequest} {digest : Bytes}
  {token : EnrollmentTokenRow} {store : EnrollmentDb}

theorem issued_enrollmentToken {now : ℕ} {machineClaimId : String} (hinv : Inv store)
    (h : enrollmentToken store digest now machineClaimId = some token) :
    (token.id, digest) ∈ store.issued := by
  obtain ⟨row, hrow, h⟩ := Option.bind_eq_some_iff.mp h
  obtain ⟨machine, -, h⟩ := Option.bind_eq_some_iff.mp h
  obtain ⟨workspace, -, rfl⟩ := Option.map_eq_some_iff.mp h
  have hmatch := List.find?_some hrow
  simp only [Bool.and_eq_true, decide_eq_true_eq] at hmatch
  have hissued := hinv.issued row (List.mem_of_find?_eq_some hrow)
  rwa [hmatch.1.1.1.1] at hissued

theorem sound_finishEnrollment (response : EnrollmentResponse) (changes : Option ℕ) :
    (finishEnrollment response changes).Sound perform Inv Rely Good store := by
  cases changes with
  | none => trivial
  | some changes =>
    rw [finishEnrollment]
    split <;> trivial

theorem sound_createAgent (hissued : (token.id, digest) ∈ store.issued) :
    (createAgent env request enrollment digest token).Sound perform Inv Rely Good store := by
  rw [createAgent]
  cases request.drawn with
  | none => trivial
  | some drawn =>
    dsimp only
    cases env.wrapKey drawn.wrappingNonce drawn.dataKey drawn.agentId 1 with
    | none => trivial
    | some wrapped =>
      exact fun later hlater _ ↦ ⟨hlater _ hissued, sound_finishEnrollment _ _⟩

theorem sound_enforceRateLimit (key : String) {next : Flow}
    (hnext : ∀ later, Inv later → next.Sound perform Inv Rely Good later) :
    (enforceRateLimit request key next).Sound perform Inv Rely Good store := by
  intro later _ hinv
  dsimp only
  split
  · exact hnext later hinv
  · trivial

theorem sound_enrollAgent :
    (enrollAgent env request enrollment).Sound perform Inv Rely Good store := by
  refine sound_enforceRateLimit _ fun _ _ ↦ sound_enforceRateLimit _ fun _ _ ↦ ?_
  intro later _ hinv
  dsimp only
  split
  · trivial
  · rename_i token htoken
    exact sound_createAgent (issued_enrollmentToken hinv htoken)

theorem sound_handle (env : Env) (request : Request) (store : EnrollmentDb) (_ : Inv store) :
    (handle env request).Sound perform Inv Rely Good store := by
  cases request with
  | administer change => exact fun _ _ _ ↦ ⟨trivial, trivial⟩
  | enroll request =>
    rw [handle, handleEnrollment]
    split
    · trivial
    · split
      · trivial
      · refine sound_enforceRateLimit _ fun _ _ ↦ ?_
        intro later _ _
        dsimp only
        split
        · trivial
        · split
          · trivial
          · exact sound_enrollAgent

/-! The shape of an enrollment: its batch is the last step, and success is the answer to a batch
that has one change. -/

def isEnrolled : Outcome → Bool
  | .enrolled _ => true
  | _ => false

def isEnrollment : Request → Bool
  | .enroll _ => true
  | .administer _ => false

def presents (env : Env) (token : Bytes) : Request → Bool
  | .enroll request => match receivedMessage env request with
    | .ok enrollment => enrollment.token = token
    | .error _ => false
  | .administer _ => false

def succeeds (env : Env) (token : Bytes) (request : Request) (outcome : Outcome) : Bool :=
  presents env token request && isEnrolled outcome

/-- What an enrollment sends, and what it makes of the reply. -/
def Finishes (request : Request) (batch : Batch) (next : Option ℕ → Flow) : Prop :=
  isEnrollment request = true →
    ∃ plan response, batch = .enroll plan ∧ next = finishEnrollment response

theorem sends_handle (env : Env) (request : Request) :
    (handle env request).Sends (Finishes request) := by
  cases request with
  | administer change => exact ⟨fun h ↦ absurd h Bool.false_ne_true, fun _ ↦ trivial⟩
  | enroll request =>
    have hcreate : ∀ enrollment digest token, (createAgent env request enrollment digest
        token).Sends (Finishes (.enroll request)) := by
      intro enrollment digest token
      rw [createAgent]
      cases request.drawn with
      | none => trivial
      | some drawn =>
        dsimp only
        cases env.wrapKey drawn.wrappingNonce drawn.dataKey drawn.agentId 1 with
        | none => trivial
        | some wrapped =>
          refine ⟨fun _ ↦ ⟨_, _, rfl, rfl⟩, fun changes ↦ ?_⟩
          cases changes with
          | none => trivial
          | some changes =>
            rw [finishEnrollment]
            split <;> trivial
    have hlimit : ∀ key (next : Flow), next.Sends (Finishes (.enroll request)) →
        (enforceRateLimit request key next).Sends (Finishes (.enroll request)) := by
      intro key next hnext _
      dsimp only
      split
      · exact hnext
      · trivial
    rw [handle, handleEnrollment]
    split
    · trivial
    · split
      · trivial
      · refine hlimit _ _ fun _ ↦ ?_
        dsimp only
        split
        · trivial
        · split
          · trivial
          · refine hlimit _ _ (hlimit _ _ fun store ↦ ?_)
            dsimp only
            split
            · trivial
            · exact hcreate _ _ _

theorem pays_finishEnrollment (good : Outcome → Bool) (paid : EnrollmentDb → ℕ)
    (response : EnrollmentResponse) (changes : Option ℕ) :
    (finishEnrollment response changes).Pays perform good paid := by
  cases changes with
  | none => trivial
  | some changes =>
    rw [finishEnrollment]
    split <;> trivial

theorem paid_createAgent {plan : Enroll} {response : EnrollmentResponse} {good : Outcome → Bool}
    (hgood : ∀ failure, good (.failed failure) = false)
    (hends : (finishEnrollment response (perform (.enroll plan) store).2).endsWith good = true) :
    store.agentsCreated plan.tokenDigest + 1 ≤
      (perform (.enroll plan) store).1.agentsCreated plan.tokenDigest := by
  rcases perform_cases (.enroll plan) store with hsame | ⟨after, changes, hexecute, hperform⟩
  · rw [hsame, finishEnrollment, Workflow.endsWith, hgood] at hends
    cases hends
  · rw [hperform, finishEnrollment] at hends
    split at hends
    · rw [Workflow.endsWith, hgood] at hends
      cases hends
    · rename_i hone
      have hchanges : changes ≠ 0 := by omega
      obtain ⟨keys, hcreated⟩ := created_of_changes hexecute hchanges
      rw [hperform]
      simp [EnrollmentDb.agentsCreated, hcreated]

theorem pays_handle (env : Env) (token : Bytes) (request : Request) :
    (handle env request).endsWith (succeeds env token request) = false ∧
      (handle env request).Pays perform (succeeds env token request)
        fun store ↦ store.agentsCreated (env.tokenDigest token) := by
  cases request with
  | administer change => exact ⟨rfl, fun _ ↦ ⟨trivial, fun h ↦ absurd h Bool.false_ne_true⟩⟩
  | enroll request =>
    have hfailed : ∀ failure, succeeds env token (.enroll request) (.failed failure) = false :=
      fun failure ↦ Bool.and_false _
    have hlimit : ∀ key (next : Flow),
        next.endsWith (succeeds env token (.enroll request)) = false →
        (next.Pays perform (succeeds env token (.enroll request))
          fun store ↦ store.agentsCreated (env.tokenDigest token)) →
        (enforceRateLimit request key next).Pays perform (succeeds env token (.enroll request))
          fun store ↦ store.agentsCreated (env.tokenDigest token) := by
      intro key next hends hnext _
      dsimp only
      split
      · exact ⟨hends, hnext⟩
      · exact ⟨hfailed _, trivial⟩
    rw [handle, handleEnrollment]
    split
    · exact ⟨hfailed _, trivial⟩
    · split
      · exact ⟨hfailed _, trivial⟩
      · refine ⟨rfl, hlimit _ _ rfl fun _ ↦ ?_⟩
        dsimp only
        split
        · exact ⟨hfailed _, trivial⟩
        · rename_i enrollment hreceived
          split
          · exact ⟨hfailed _, trivial⟩
          · refine ⟨rfl, hlimit _ _ rfl (hlimit _ _ rfl fun store ↦ ?_)⟩
            dsimp only
            split
            · exact ⟨hfailed _, trivial⟩
            · rw [createAgent]
              cases request.drawn with
              | none => exact ⟨hfailed _, trivial⟩
              | some drawn =>
                dsimp only
                cases env.wrapKey drawn.wrappingNonce drawn.dataKey drawn.agentId 1 with
                | none => exact ⟨hfailed _, trivial⟩
                | some wrapped =>
                  refine ⟨rfl, fun store ↦ ⟨pays_finishEnrollment _ _ _ _, fun hends ↦ ?_⟩⟩
                  have hpresents : enrollment.token = token := by
                    by_contra hother
                    have hnever : ∀ outcome,
                        succeeds env token (.enroll request) outcome = false := fun outcome ↦ by
                      simp [succeeds, presents, hreceived, hother]
                    revert hends
                    cases finishEnrollment _ (perform _ store).2 with
                    | ended outcome => rw [Workflow.endsWith, hnever]; exact Bool.false_ne_true
                    | ask query next => exact Bool.false_ne_true
                    | send batch next => exact Bool.false_ne_true
                    | lost performed => exact Bool.false_ne_true
                  rw [← hpresents]
                  exact paid_createAgent hfailed hends

end Handlers

/-! ## Runs -/

abbrev EnrollmentSystem := System Request EnrollmentDb Batch (Option ℕ) Outcome

/-- The success responses that were sent to requests with the token. -/
def successes (env : Env) (token : Bytes) (system : EnrollmentSystem) : ℕ :=
  system.calls.countP fun call ↦ call.rest.endsWith (succeeds env token call.request)

/-- A token creates one agent and one key, is answered with success once, and a machine has one
active agent. -/
structure SingleUse (env : Env) (system : EnrollmentSystem) : Prop where
  agents : ∀ token, system.store.agentsCreated (env.tokenDigest token) ≤ 1
  keys : ∀ token, system.store.keysCreated (env.tokenDigest token) ≤ 1
  responses : ∀ token, successes env token system ≤ 1
  oneActive : ∀ machineId, system.store.activeAgents machineId ≤ 1

/-- The call whose step an action is. -/
def moved : Action Request → Option ℕ
  | .call _ => none
  | .advance index => some index
  | .fail index _ => some index

/-- The call is an enrollment that has not been answered with success. -/
def unsuccessful (system : EnrollmentSystem) (index : ℕ) : Bool :=
  (system.calls[index]?).any fun call ↦
    isEnrollment call.request && !call.rest.endsWith isEnrolled

/-- An attempt leaves the agents and keys alone in each of its steps that does not end in success,
those excused apart. -/
def LeavesNothing (env : Env) (excused : Action Request → Bool) (system : EnrollmentSystem)
    (action : Action Request) : Prop :=
  ∀ index ∈ moved action, excused action = false →
    unsuccessful (step (handle env) perform system action) index = true →
      (step (handle env) perform system action).store.agents = system.store.agents ∧
      (step (handle env) perform system action).store.agentKeys = system.store.agentKeys

instance (env : Env) (excused : Action Request → Bool) (system : EnrollmentSystem)
    (action : Action Request) : Decidable (LeavesNothing env excused system action) :=
  inferInstanceAs (Decidable (∀ index ∈ moved action, excused action = false →
    unsuccessful (step (handle env) perform system action) index = true →
      (step (handle env) perform system action).store.agents = system.store.agents ∧
      (step (handle env) perform system action).store.agentKeys = system.store.agentKeys))

/-- A batch was performed, and its sender does not hear of it. -/
def unheard : Action Request → Bool
  | .fail _ performed => performed
  | _ => false

theorem visits_tables (env : Env) (actions : List (Action Request)) :
    Visits (step (handle env) perform) (fun system ↦ Inv system.store)
      (start emptyEnrollments) actions := by
  have hok : Along (step (handle env) perform) (Performs fun _ _ ↦ True)
      (start emptyEnrollments) actions :=
    along_of_visits (P := fun _ ↦ True) (fun _ _ _ _ _ ↦ trivial)
      (visits_invariant (fun _ _ _ ↦ trivial) trivial actions)
  exact visits_inv (handle env) guarantee (sound_handle env) inv_emptyEnrollments hok

theorem rows_of_unsuccessful {store : EnrollmentDb} {plan : Enroll} {response : EnrollmentResponse}
    (hinv : Inv store)
    (h : (finishEnrollment response (perform (.enroll plan) store).2).endsWith isEnrolled = false) :
    (perform (.enroll plan) store).1.agents = store.agents ∧
      (perform (.enroll plan) store).1.agentKeys = store.agentKeys := by
  rcases perform_cases (.enroll plan) store with hsame | ⟨after, changes, hexecute, hperform⟩
  · rw [hsame]
    exact ⟨rfl, rfl⟩
  · rw [hperform] at h ⊢
    rcases enrollBatch_cases hinv hexecute with ⟨rfl, -⟩ | ⟨token, -, -, -, -, -, rfl⟩
    · exact ⟨rfl, rfl⟩
    · exact nomatch h

theorem leavesNothing_of_inv {env : Env} {system : EnrollmentSystem} (hinv : Inv system.store)
    (hsends : ∀ call ∈ system.calls, call.rest.Sends (Finishes call.request))
    (action : Action Request) : LeavesNothing env unheard system action := by
  intro index hindex hheard hfails
  cases action with
  | call request => exact nomatch hindex
  | advance moved =>
    obtain rfl := Option.some.inj hindex
    rw [step] at hfails ⊢
    cases hcall : system.calls[moved]? with
    | none => exact ⟨rfl, rfl⟩
    | some call =>
      rw [hcall] at hfails
      have hlength := (List.getElem?_eq_some_iff.mp hcall).1
      have hparts := hsends call (List.mem_of_getElem? hcall)
      dsimp only [System.update] at hfails ⊢
      rw [unsuccessful, List.getElem?_set_self hlength] at hfails
      obtain ⟨request, rest⟩ := call
      cases rest with
      | ask query next => exact ⟨rfl, rfl⟩
      | ended outcome => exact ⟨rfl, rfl⟩
      | lost performed => exact ⟨rfl, rfl⟩
      | send batch next =>
        simp only [Option.any_some, Bool.and_eq_true, Bool.not_eq_true',
          Workflow.proceed] at hfails
        obtain ⟨plan, response, rfl, rfl⟩ := hparts.1 hfails.1
        exact rows_of_unsuccessful hinv hfails.2
  | fail moved performed =>
    obtain rfl : performed = false := hheard
    rw [step]
    cases hcall : system.calls[moved]? with
    | none => exact ⟨rfl, rfl⟩
    | some call =>
      obtain ⟨request, rest⟩ := call
      cases rest <;> exact ⟨rfl, rfl⟩

/-- In any interleaving of enrollments, administrators and failures, a token is used once, and an
attempt that fails leaves nothing behind, unless its batch was committed and the worker did not hear
of it. -/
theorem singleUse (env : Env) (actions : List (Action Request)) :
    Visits (step (handle env) perform) (SingleUse env) (start emptyEnrollments) actions ∧
      Along (step (handle env) perform) (LeavesNothing env unheard) (start emptyEnrollments)
        actions := by
  have hinv := visits_tables env actions
  have hpaid : ∀ token, Visits (step (handle env) perform) (Paid (succeeds env token)
      fun store ↦ store.agentsCreated (env.tokenDigest token)) (start emptyEnrollments) actions :=
    fun token ↦ visits_paid (pays_handle env token)
      (fun batch store ↦ agentsCreated_mono batch store (env.tokenDigest token)) _ actions
  have hsends : Visits (step (handle env) perform) (fun system ↦ ∀ call ∈ system.calls,
      call.rest.Sends (Finishes call.request)) (start emptyEnrollments) actions :=
    visits_calls (P := fun request rest ↦ rest.Sends (Finishes request)) (sends_handle env)
      (fun _ _ _ _ h hmoves ↦ h.moves hmoves) _ actions
  constructor
  · rw [visits_iff_prefixes] at hinv ⊢
    intro done rest hsplit
    have hstore := hinv done rest hsplit
    refine ⟨fun token ↦ hstore.agentOnce _, fun token ↦ hstore.keyOnce _, fun token ↦ ?_,
      hstore.oneActive⟩
    exact (visits_iff_prefixes.mp (hpaid token) done rest hsplit).trans (hstore.agentOnce _)
  · exact along_of_visits (fun system action h ↦ leavesNothing_of_inv h.1 h.2 action)
      (visits_and hinv hsends)

def presentedEnrollment : EnrollmentRequest where
  token := List.replicate 43 65
  identityPublicKey := List.replicate 32 1
  platform := "linux"
  arch := "x86_64"
  agentVersion := "1.0.0"
  protocolVersion := 1
  machineClaimId := "01234567-89ab-cdef-0123-456789abcdef"
  requestNonce := List.replicate 32 2
  supportedProtocolVersions := [1]
  pqHybrid := true
  signature := List.replicate 64 3
  hostname := "host"
  osName := "Linux"
  osVersion := "6"
  kernelVersion := "6.1"

/-- Third-party code as it behaves on this one message. -/
def presentedEnv : Env where
  decodeMessage body := if body = [10] then some presentedEnrollment else none
  verifyingKey key := key = presentedEnrollment.identityPublicKey
  verifyStrict _ message _ := message = { presentedEnrollment with signature := [] }
  tokenDigest _ := List.replicate 32 4
  wrapKey _ _ _ _ := some (List.replicate 48 5)

def presentedRequest : HttpRequest where
  post := true
  contentType := some "application/x-protobuf"
  connectingIp := some "203.0.113.8"
  contentLength := none
  chunks := [[10]]
  limit _ := true
  now := 1000
  drawn := some ⟨"agent", List.replicate 32 6, List.replicate 4 7, List.replicate 12 8⟩

/-- The machine is created with its token; the enrollment gets as far as its batch. -/
def unheardEnrollment : List (Action Request) :=
  [.call (.administer (.createWorkspace ⟨"workspace", 1, none⟩)), .advance 0,
    .call (.administer (.createMachine
      ⟨"01234567-89ab-cdef-0123-456789abcdef", 1, "workspace", 10, 60, false, 1, none⟩
      ⟨"token", "workspace", "01234567-89ab-cdef-0123-456789abcdef", List.replicate 32 4, 900000⟩)),
    .advance 1, .call (.enroll presentedRequest), .advance 2, .advance 2, .advance 2, .advance 2,
    .advance 2, .fail 2 true]

theorem unheardEnrollment_leaves :
    ¬ (Visits (step (handle presentedEnv) perform) (SingleUse presentedEnv)
        (start emptyEnrollments) unheardEnrollment ∧
      Along (step (handle presentedEnv) perform) (LeavesNothing presentedEnv fun _ ↦ false)
        (start emptyEnrollments) unheardEnrollment) := by
  rintro ⟨-, hleaves⟩
  revert hleaves
  decide +kernel

end AlphaPing.Ingest.EnrollmentTokens
