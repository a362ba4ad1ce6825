import AlphaPing.Agent.Updater.Metadata

/-!
# When a signed file is accepted

`verify` walks over the signatures of a file once. An entry of a key that is not of the role, or
that has been verified already, is skipped; any other entry has to be well formed, or the whole
file is refused. The keys are counted by their identifiers. A file should be accepted when enough
distinct keys of the role have signed it, whatever else its list of signatures holds, and the
module says exactly when it is.
-/

namespace AlphaPing.Agent.Updater.Signatures

open Library.Endorsement Protocol

variable (crates : Crates) (root : TrustedRoot) (definition : RoleDescription)

/-- The public key behind an identifier, if the agent can use it. -/
def keyOf (keyId : String) : Option Bytes :=
  (root.keys.lookup keyId).bind fun key ↦
    if key.scheme = "ed25519" then publicKey crates key else none

def signatureBytes (signature : MetadataSignature) : Option Bytes :=
  (hexDecode (textBytes signature.signatureHex)).filter (·.length = 64)

/-- The entry can be checked. -/
def wellFormed (signature : MetadataSignature) : Bool :=
  (keyOf crates root signature.keyId).isSome && (signatureBytes signature).isSome

/-- The entry is a valid signature under the key of its identifier. -/
def valid (canonical : Bytes) (signature : MetadataSignature) : Bool :=
  match keyOf crates root signature.keyId, signatureBytes signature with
  | some key, some bytes => crates.verifyStrict key canonical bytes
  | _, _ => false

/-- The identifier that an entry adds to the verified ones. -/
def signer (canonical : Bytes) (signature : MetadataSignature) : Option String :=
  if signature.keyId ∈ definition.trusted ∧ valid crates root canonical signature = true then
    some signature.keyId
  else none

/-- The identifiers of the role that have a valid signature in the list. -/
def signers (canonical : Bytes) (signatures : List MetadataSignature) : Finset String :=
  (signatures.filterMap (signer crates root definition canonical)).toFinset

/-- The keys behind these identifiers. -/
def signingKeys (canonical : Bytes) (signatures : List MetadataSignature) : Finset Bytes :=
  ((signatures.filterMap (signer crates root definition canonical)).filterMap
    (keyOf crates root)).toFinset

/-! ## What is promised -/

/-- The policy of the role over its keys, instead of their identifiers. -/
def keyPolicy : Policy Bytes where
  trusted := definition.trusted.filterMap (keyOf crates root)
  threshold := definition.threshold

/-- The list has a valid signature of the key for an identifier of the role. -/
def HasSigned (signatures : List MetadataSignature) (key canonical : Bytes) : Prop :=
  ∃ signature ∈ signatures, signature.keyId ∈ definition.trusted ∧
    keyOf crates root signature.keyId = some key ∧
    ∃ bytes, signatureBytes signature = some bytes ∧
      crates.verifyStrict key canonical bytes = true

/-- At least as many distinct keys of the role as its threshold have signed. -/
def Enough (canonical : Bytes) (signatures : List MetadataSignature) : Prop :=
  (keyPolicy crates root definition).Endorsed
    (HasSigned crates root definition signatures) canonical

/-- The value is of the type, not expired, and has its fields. -/
def Readable {Metadata : Type} (decode : Json → Option Metadata) (expectedType : String)
    (nowMs : ℤ) (metadata : Json) : Prop :=
  current expectedType nowMs metadata = true ∧ (decode metadata).isSome = true

/-! ## The condition -/

/-- Every entry of the role that comes before a valid one of its identifier is well formed. -/
def Checkable (canonical : Bytes) (signatures : List MetadataSignature) : Prop :=
  ∀ before signature after, signatures = before ++ signature :: after →
    signature.keyId ∈ definition.trusted →
    signature.keyId ∉ signers crates root definition canonical before →
      wellFormed crates root signature = true

/-- The list is one that the loop gets through. -/
structure Clean (canonical : Bytes) (signatures : List MetadataSignature) : Prop where
  nonempty : signatures ≠ []
  length : signatures.length ≤ 16
  checkable : Checkable crates root definition canonical signatures

/-- The threshold is reached only because one key is counted under several identifiers. -/
def CountsTwice (canonical : Bytes) (signatures : List MetadataSignature) : Prop :=
  (signingKeys crates root definition canonical signatures).card < definition.threshold ∧
    definition.threshold ≤ (signers crates root definition canonical signatures).card

variable {crates root definition} {canonical : Bytes} {signatures : List MetadataSignature}
  {signature : MetadataSignature}

/-! ## The keys that have signed -/

theorem valid_iff : valid crates root canonical signature = true ↔
    ∃ key bytes, keyOf crates root signature.keyId = some key ∧
      signatureBytes signature = some bytes ∧ crates.verifyStrict key canonical bytes = true := by
  unfold valid
  cases keyOf crates root signature.keyId with
  | none => simp
  | some key =>
    cases signatureBytes signature with
    | none => simp
    | some bytes => simp

theorem signer_eq_some {keyId : String} :
    signer crates root definition canonical signature = some keyId ↔
      signature.keyId ∈ definition.trusted ∧ valid crates root canonical signature = true ∧
        signature.keyId = keyId := by
  unfold signer
  split
  next h => simp [h]
  next h =>
    apply iff_of_false nofun
    intro hsigner
    exact h ⟨hsigner.1, hsigner.2.1⟩

theorem mem_signingKeys {key : Bytes} :
    key ∈ signingKeys crates root definition canonical signatures ↔
      HasSigned crates root definition signatures key canonical := by
  simp only [signingKeys, List.mem_toFinset, List.mem_filterMap, signer_eq_some, valid_iff]
  constructor
  · rintro ⟨keyId, ⟨signature, hmem, htrusted, ⟨known, bytes, hknown, hbytes, hvalid⟩, rfl⟩, hkey⟩
    obtain rfl := Option.some.inj (hknown.symm.trans hkey)
    exact ⟨signature, hmem, htrusted, hknown, bytes, hbytes, hvalid⟩
  · rintro ⟨signature, hmem, htrusted, hkey, bytes, hbytes, hvalid⟩
    exact ⟨signature.keyId,
      ⟨signature, hmem, htrusted, ⟨key, bytes, hkey, hbytes, hvalid⟩, rfl⟩, hkey⟩

theorem enough_iff : Enough crates root definition canonical signatures ↔
    definition.threshold ≤ (signingKeys crates root definition canonical signatures).card := by
  constructor
  · rintro ⟨keys, hcard, hkeys⟩
    apply hcard.trans
    apply Finset.card_le_card
    intro key hkey
    exact mem_signingKeys.mpr (hkeys key hkey).2
  · intro hcard
    refine ⟨_, hcard, fun key hkey ↦ ?_⟩
    obtain ⟨signature, hmem, htrusted, hknown, hsigned⟩ := mem_signingKeys.mp hkey
    apply And.intro
    · exact List.mem_filterMap.mpr ⟨signature.keyId, htrusted, hknown⟩
    · exact ⟨signature, hmem, htrusted, hknown, hsigned⟩

theorem card_signingKeys_le :
    (signingKeys crates root definition canonical signatures).card ≤
      (signers crates root definition canonical signatures).card := by
  have hsubset : signingKeys crates root definition canonical signatures ⊆
      (signers crates root definition canonical signatures).image
        fun keyId ↦ (keyOf crates root keyId).getD [] := by
    intro key hkey
    rw [signingKeys, List.mem_toFinset] at hkey
    obtain ⟨keyId, hsigner, hknown⟩ := List.mem_filterMap.mp hkey
    apply Finset.mem_image.mpr
    exact ⟨keyId, List.mem_toFinset.mpr hsigner, by rw [hknown, Option.getD_some]⟩
  exact (Finset.card_le_card hsubset).trans Finset.card_image_le

theorem signers_concat :
    signers crates root definition canonical (signatures ++ [signature]) =
      if signature.keyId ∈ definition.trusted ∧ valid crates root canonical signature = true then
        insert signature.keyId (signers crates root definition canonical signatures)
      else signers crates root definition canonical signatures := by
  unfold signers
  rw [List.filterMap_append, List.toFinset_append]
  split
  next h =>
    have hsigner : signer crates root definition canonical signature = some signature.keyId :=
      signer_eq_some.mpr ⟨h.1, h.2, rfl⟩
    simp [hsigner, Finset.union_comm]
  next h =>
    have hsigner : signer crates root definition canonical signature = none := if_neg h
    simp [hsigner]

/-! ## The loop -/

section Step

variable {verified : Finset String}

theorem countSignature_skip
    (h : signature.keyId ∉ definition.trusted ∨ signature.keyId ∈ verified) :
    countSignature crates root definition canonical verified signature = .ok verified :=
  if_pos h

theorem countSignature_wellFormed (htrusted : signature.keyId ∈ definition.trusted)
    (hnew : signature.keyId ∉ verified) (h : wellFormed crates root signature = true) :
    countSignature crates root definition canonical verified signature =
      .ok (if valid crates root canonical signature = true then insert signature.keyId verified
        else verified) := by
  obtain ⟨hkey, hbytes⟩ := Bool.and_eq_true_iff.mp h
  obtain ⟨bytes, hbytes⟩ := Option.isSome_iff_exists.mp hbytes
  obtain ⟨key, hkey⟩ := Option.isSome_iff_exists.mp hkey
  have hvalid : valid crates root canonical signature =
      crates.verifyStrict key canonical bytes := by
    simp only [valid, hkey, hbytes]
  have hskip : ¬(signature.keyId ∉ definition.trusted ∨ signature.keyId ∈ verified) :=
    not_or.mpr ⟨not_not.mpr htrusted, hnew⟩
  obtain ⟨description, hlookup, husable⟩ := Option.bind_eq_some_iff.mp hkey
  rw [signatureBytes] at hbytes
  rw [countSignature, if_neg hskip, hlookup, hvalid]
  dsimp only
  split at husable
  next hscheme =>
    rw [if_neg (not_not.mpr hscheme), husable]
    dsimp only
    rw [hbytes]
  next => cases husable

theorem countSignature_malformed (htrusted : signature.keyId ∈ definition.trusted)
    (hnew : signature.keyId ∉ verified) (h : wellFormed crates root signature = false) :
    ∃ message, countSignature crates root definition canonical verified signature =
      .error message := by
  have hskip : ¬(signature.keyId ∉ definition.trusted ∨ signature.keyId ∈ verified) :=
    not_or.mpr ⟨not_not.mpr htrusted, hnew⟩
  rw [countSignature, if_neg hskip]
  unfold wellFormed keyOf at h
  cases hlookup : root.keys.lookup signature.keyId with
  | none => exact ⟨_, rfl⟩
  | some description =>
    rw [hlookup, Option.bind_some] at h
    dsimp only
    by_cases hscheme : description.scheme = "ed25519"
    · rw [if_neg (not_not.mpr hscheme)]
      rw [if_pos hscheme] at h
      cases hkey : publicKey crates description with
      | none => exact ⟨_, rfl⟩
      | some key =>
        rw [hkey, Option.isSome_some, Bool.true_and, signatureBytes] at h
        dsimp only
        cases hbytes : (hexDecode (textBytes signature.signatureHex)).filter (·.length = 64) with
        | none => exact ⟨_, rfl⟩
        | some bytes =>
          rw [hbytes] at h
          cases h
    · rw [if_pos hscheme]
      exact ⟨_, rfl⟩

end Step

theorem checkable_concat :
    Checkable crates root definition canonical (signatures ++ [signature]) ↔
      Checkable crates root definition canonical signatures ∧
        (signature.keyId ∈ definition.trusted →
          signature.keyId ∉ signers crates root definition canonical signatures →
            wellFormed crates root signature = true) := by
  constructor
  · intro h
    constructor
    · intro before entry after hsplit
      apply h before entry (after ++ [signature])
      rw [hsplit, List.append_assoc, List.cons_append]
    · exact h signatures signature [] rfl
  · rintro ⟨hbefore, hlast⟩ before entry after hsplit
    rcases List.eq_nil_or_concat after with rfl | ⟨front, last, rfl⟩
    · obtain ⟨rfl, hentry⟩ := List.append_inj' hsplit rfl
      obtain rfl := List.singleton_inj.mp hentry
      exact hlast
    · rw [List.concat_eq_append, ← List.cons_append, ← List.append_assoc] at hsplit
      exact hbefore before entry front (List.append_inj_left' hsplit rfl)

/-- One turn adds to the identifiers before it what the entry adds to their list. -/
theorem countSignature_signers
    (h : signature.keyId ∈ definition.trusted →
      signature.keyId ∉ signers crates root definition canonical signatures →
        wellFormed crates root signature = true) :
    countSignature crates root definition canonical
        (signers crates root definition canonical signatures) signature =
      .ok (signers crates root definition canonical (signatures ++ [signature])) := by
  rw [signers_concat]
  by_cases htrusted : signature.keyId ∈ definition.trusted
  · by_cases hold : signature.keyId ∈ signers crates root definition canonical signatures
    · rw [countSignature_skip (.inr hold), Finset.insert_eq_of_mem hold, ite_self]
    · rw [countSignature_wellFormed htrusted hold (h htrusted hold)]
      simp only [htrusted, true_and]
  · rw [countSignature_skip (.inl htrusted), if_neg (fun hvalid ↦ htrusted hvalid.1)]

theorem foldlM_checkable (h : Checkable crates root definition canonical signatures) :
    signatures.foldlM (countSignature crates root definition canonical) ∅ =
      .ok (signers crates root definition canonical signatures) := by
  induction signatures using List.reverseRecOn with
  | nil => rfl
  | append_singleton signatures signature ih =>
    obtain ⟨hbefore, hlast⟩ := checkable_concat.mp h
    rw [List.foldlM_append, ih hbefore, ← countSignature_signers hlast]
    exact bind_pure (countSignature crates root definition canonical
      (signers crates root definition canonical signatures) signature)

theorem foldlM_not_checkable (h : ¬Checkable crates root definition canonical signatures) :
    ∃ message, signatures.foldlM (countSignature crates root definition canonical) ∅ =
      .error message := by
  induction signatures using List.reverseRecOn with
  | nil =>
    apply absurd _ h
    intro before signature after hsplit
    exact absurd hsplit (List.append_ne_nil_of_right_ne_nil before (List.cons_ne_nil _ _)).symm
  | append_singleton signatures signature ih =>
    rw [List.foldlM_append]
    by_cases hbefore : Checkable crates root definition canonical signatures
    · rw [foldlM_checkable hbefore]
      have hlast := mt (fun hlast ↦ checkable_concat.mpr ⟨hbefore, hlast⟩) h
      push Not at hlast
      obtain ⟨htrusted, hnew, hmalformed⟩ := hlast
      have hturn : ∃ message, countSignature crates root definition canonical
          (signers crates root definition canonical signatures) signature = .error message :=
        countSignature_malformed htrusted hnew (Bool.eq_false_iff.mpr hmalformed)
      obtain ⟨message, hmessage⟩ := hturn
      refine ⟨message, Eq.trans ?_ hmessage⟩
      exact bind_pure (countSignature crates root definition canonical
        (signers crates root definition canonical signatures) signature)
    · obtain ⟨message, hmessage⟩ := ih hbefore
      rw [hmessage]
      exact ⟨message, rfl⟩

/-! ## Acceptance -/

/-- A file is accepted exactly if the loop gets through its list, the identifiers that it counts
reach the threshold, and the value is readable. -/
theorem verify_isSome_iff {Metadata : Type} {decode : Json → Option Metadata} {bytes : Bytes}
    {role expectedType : String} {nowMs : ℤ} {envelope : MetadataEnvelope}
    (hsize : bytes.length ≤ 256 * 1024) (henvelope : crates.parseEnvelope bytes = some envelope)
    (hrole : root.roles.lookup role = some definition) :
    (root.verify crates decode bytes role expectedType nowMs).toOption.isSome = true ↔
      Clean crates root definition (crates.toVec envelope.signed) envelope.signatures ∧
        definition.threshold ≤ (signers crates root definition (crates.toVec envelope.signed)
          envelope.signatures).card ∧
        Readable decode expectedType nowMs envelope.signed := by
  unfold TrustedRoot.verify
  rw [if_neg (Nat.not_lt.mpr hsize), henvelope]
  dsimp only
  by_cases hlist : envelope.signatures = [] ∨ 16 < envelope.signatures.length
  · rw [if_pos hlist]
    apply iff_of_false Bool.false_ne_true
    rintro ⟨hclean, -⟩
    exact hlist.elim hclean.nonempty (Nat.not_lt.mpr hclean.length)
  rw [if_neg hlist, hrole]
  dsimp only
  by_cases hcheckable : Checkable crates root definition (crates.toVec envelope.signed)
    envelope.signatures
  · have hclean : Clean crates root definition (crates.toVec envelope.signed)
        envelope.signatures :=
      ⟨fun h ↦ hlist (.inl h), Nat.le_of_not_lt fun h ↦ hlist (.inr h), hcheckable⟩
    rw [foldlM_checkable hcheckable]
    dsimp only
    split
    next hfew => exact iff_of_false Bool.false_ne_true fun h ↦ Nat.not_le.mpr hfew h.2.1
    next henough =>
      split
      next hstale =>
        apply iff_of_false Bool.false_ne_true
        rintro ⟨-, -, hcurrent, -⟩
        rw [hcurrent] at hstale
        cases hstale
      next hcurrent =>
        rw [Bool.not_eq_true, Bool.not_eq_false'] at hcurrent
        cases hdecode : decode envelope.signed with
        | none =>
          apply iff_of_false Bool.false_ne_true
          rintro ⟨-, -, -, hsome⟩
          rw [hdecode] at hsome
          cases hsome
        | some metadata =>
          apply iff_of_true rfl
          exact ⟨hclean, Nat.le_of_not_lt henough, hcurrent, hdecode ▸ rfl⟩
  · obtain ⟨message, hmessage⟩ := foldlM_not_checkable hcheckable
    rw [hmessage]
    exact iff_of_false Bool.false_ne_true fun h ↦ hcheckable h.1.checkable

/-- Acceptance and the promise agree exactly if no entry that the loop reaches is malformed when
enough keys have signed, and no key is counted twice over the threshold when not. -/
theorem verify_iff_enough_iff {Metadata : Type} (decode : Json → Option Metadata) (bytes : Bytes)
    (role expectedType : String) (nowMs : ℤ) {envelope : MetadataEnvelope}
    (hsize : bytes.length ≤ 256 * 1024) (henvelope : crates.parseEnvelope bytes = some envelope)
    (hrole : root.roles.lookup role = some definition) :
    ((root.verify crates decode bytes role expectedType nowMs).toOption.isSome = true ↔
        Enough crates root definition (crates.toVec envelope.signed) envelope.signatures ∧
          Readable decode expectedType nowMs envelope.signed) ↔
      (Readable decode expectedType nowMs envelope.signed →
        (Enough crates root definition (crates.toVec envelope.signed) envelope.signatures →
          Clean crates root definition (crates.toVec envelope.signed) envelope.signatures) ∧
        (CountsTwice crates root definition (crates.toVec envelope.signed) envelope.signatures →
          ¬Clean crates root definition (crates.toVec envelope.signed) envelope.signatures)) := by
  rw [verify_isSome_iff hsize henvelope hrole, enough_iff, CountsTwice]
  have hcount := @card_signingKeys_le crates root definition (crates.toVec envelope.signed)
    envelope.signatures
  constructor
  · intro h hreadable
    constructor
    · intro henough
      exact (h.mpr ⟨henough, hreadable⟩).1
    · rintro ⟨hkeys, hidentifiers⟩ hclean
      exact Nat.not_le.mpr hkeys (h.mp ⟨hclean, hidentifiers, hreadable⟩).1
  · intro h
    constructor
    · rintro ⟨hclean, hidentifiers, hreadable⟩
      refine ⟨?_, hreadable⟩
      by_contra hkeys
      exact (h hreadable).2 ⟨Nat.lt_of_not_le hkeys, hidentifiers⟩ hclean
    · rintro ⟨henough, hreadable⟩
      exact ⟨(h hreadable).1 henough, henough.trans hcount, hreadable⟩

/-! ## Two lists -/

/-- A root in which two identifiers have one key. -/
def sampleRoot : TrustedRoot where
  keys :=
    [("a", ⟨"ed25519", String.ofList (List.replicate 64 '1')⟩),
      ("b", ⟨"ed25519", String.ofList (List.replicate 64 '1')⟩)]
  roles := [("targets", ⟨["a"], 1⟩), ("snapshot", ⟨["a", "b"], 2⟩)]

/-- An entry that verifies. -/
def goodEntry (keyId : String) : MetadataSignature where
  keyId := keyId
  signatureHex := String.ofList (List.replicate 128 '2')

/-- An entry that anybody can add. -/
def badEntry (keyId : String) : MetadataSignature := ⟨keyId, "zz"⟩

def sampleEnvelope (signatures : List MetadataSignature) : MetadataEnvelope where
  signed := .object
    [("type", .string "targets"), ("spec_version", .string "1.0"), ("expires_at_ms", .integer 10)]
  signatures := signatures

/-- The third-party functions on these inputs. -/
def sampleCrates (signatures : List MetadataSignature) : Crates where
  parseEnvelope _ := some (sampleEnvelope signatures)
  parseJson _ := none
  toVec _ := []
  verifyingKey _ := true
  verifyStrict _ _ signature := signature.head? = some 0x22
  sha256 _ := []
  blake3 _ := []

def accepted (role : String) (signatures : List MetadataSignature) : Bool :=
  (sampleRoot.verify (sampleCrates signatures) (fun _ ↦ some ()) [] role "targets"
    0).toOption.isSome

/-- A list whose malformed entry comes after the valid one. -/
def lateList : List MetadataSignature := [goodEntry "a", badEntry "a"]

theorem verify_iff_enough_iff_late :
    (accepted "targets" lateList = true ↔
        Enough (sampleCrates lateList) sampleRoot ⟨["a"], 1⟩ [] lateList ∧
          Readable (fun _ ↦ some ()) "targets" 0 (sampleEnvelope lateList).signed) ↔
      (Readable (fun _ ↦ some ()) "targets" 0 (sampleEnvelope lateList).signed →
        (Enough (sampleCrates lateList) sampleRoot ⟨["a"], 1⟩ [] lateList →
          Clean (sampleCrates lateList) sampleRoot ⟨["a"], 1⟩ [] lateList) ∧
        (CountsTwice (sampleCrates lateList) sampleRoot ⟨["a"], 1⟩ [] lateList →
          ¬Clean (sampleCrates lateList) sampleRoot ⟨["a"], 1⟩ [] lateList)) := by
  have hsize : ([] : Bytes).length ≤ 256 * 1024 := by decide
  have henvelope : (sampleCrates lateList).parseEnvelope [] = some (sampleEnvelope lateList) := rfl
  have hrole : sampleRoot.roles.lookup "targets" = some ⟨["a"], 1⟩ := rfl
  exact verify_iff_enough_iff (fun _ ↦ some ()) [] "targets" "targets" 0 hsize henvelope hrole

/-- A malformed entry in front refuses a file that is signed, the same entry at the end does not,
and a key with two identifiers makes up a threshold of two. -/
theorem acceptance_by_order_and_identifier :
    accepted "targets" [badEntry "a", goodEntry "a"] = false ∧
      Enough (sampleCrates []) sampleRoot ⟨["a"], 1⟩ [] [badEntry "a", goodEntry "a"] ∧
      accepted "targets" [goodEntry "a", badEntry "a"] = true ∧
      accepted "snapshot" [goodEntry "a", goodEntry "b"] = true ∧
      ¬Enough (sampleCrates []) sampleRoot ⟨["a", "b"], 2⟩ [] [goodEntry "a", goodEntry "b"] := by
  rw [enough_iff, enough_iff]
  decide +kernel

end AlphaPing.Agent.Updater.Signatures
