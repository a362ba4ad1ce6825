import AlphaPing.Agent.Updater.Install

/-!
# No rollback, and nothing unsigned

The origin may answer whatever it likes. The signatures are ideal: who does not hold a key cannot
produce a signature that verifies under it, and the attacker holds fewer keys of each role than
its threshold. Then the persisted versions never go down, and whatever takes the place of the
binary is an artifact that the signed metadata of its execution describe.
-/

namespace AlphaPing.Agent.Updater

open Library.Programs Library.Runs Protocol

section

variable {Version : Type} [LinearOrder Version] {crates : Crates} {semver : Semver Version}
  {client : UpdateClient Version} {held : Finset String} {signed : String → Bytes → Prop}

/-! ## What the parameters are assumed to do -/

/-- A signature that verifies under a key was made by the attacker, who holds the key, or by the
party that signs with it. -/
def IdealSignatures (crates : Crates) (root : TrustedRoot) (held : Finset String)
    (signed : String → Bytes → Prop) : Prop :=
  ∀ keyId key bytes message signature, root.keys.lookup keyId = some key →
    publicKey crates key = some bytes → crates.verifyStrict bytes message signature = true →
      keyId ∈ held ∨ signed keyId message

/-- The attacker holds fewer keys of each role than its threshold. -/
def BelowThreshold (root : TrustedRoot) (held : Finset String) : Prop :=
  ∀ role policy, root.roles.lookup role = some policy → policy.Resists held

/-! ## One file -/

/-- The file is signed for the role by the threshold of its keys, one of them out of the
attacker's reach, and is neither of another type nor expired. -/
def Authentic {Metadata : Type} (crates : Crates) (root : TrustedRoot) (held : Finset String)
    (signed : String → Bytes → Prop) (decode : Json → Option Metadata) (role : String)
    (nowMs : ℤ) (bytes : Bytes) (metadata : Metadata) : Prop :=
  ∃ envelope policy, crates.parseEnvelope bytes = some envelope ∧
    root.roles.lookup role = some policy ∧
    policy.Endorsed (fun keyId message ↦ keyId ∈ held ∨ signed keyId message)
      (crates.toVec envelope.signed) ∧
    (∃ keyId ∈ policy.trusted, keyId ∉ held ∧ signed keyId (crates.toVec envelope.signed)) ∧
    current role nowMs envelope.signed = true ∧ decode envelope.signed = some metadata

variable {root : TrustedRoot} {targets : List (String × TargetDescription)}

theorem countSignature_ok {policy : RoleDescription} {canonical : Bytes}
    (hideal : IdealSignatures crates root held signed) {verified after : Finset String}
    {signature : MetadataSignature}
    (h : countSignature crates root policy canonical verified signature = .ok after)
    (hverified : ∀ keyId ∈ verified, keyId ∈ policy.trusted ∧
      (keyId ∈ held ∨ signed keyId canonical)) :
    ∀ keyId ∈ after, keyId ∈ policy.trusted ∧ (keyId ∈ held ∨ signed keyId canonical) := by
  unfold countSignature at h
  split at h
  · obtain rfl := Except.ok.inj h
    exact hverified
  · rename_i hnew
    split at h
    · cases h
    · rename_i key hkey
      split at h
      · cases h
      · split at h
        · cases h
        · rename_i bytes hbytes
          split at h
          · cases h
          · rename_i signatureBytes hsignature
            obtain rfl := Except.ok.inj h
            split_ifs with hstrict
            · intro keyId hkeyId
              rcases Finset.mem_insert.mp hkeyId with rfl | hold
              · exact ⟨of_not_not (not_or.mp hnew).1,
                  hideal signature.keyId key bytes canonical signatureBytes hkey hbytes hstrict⟩
              · exact hverified keyId hold
            · exact hverified

theorem foldlM_countSignature_ok {policy : RoleDescription} {canonical : Bytes}
    (hideal : IdealSignatures crates root held signed) {signatures : List MetadataSignature}
    {verified after : Finset String}
    (h : signatures.foldlM (countSignature crates root policy canonical) verified = .ok after)
    (hverified : ∀ keyId ∈ verified, keyId ∈ policy.trusted ∧
      (keyId ∈ held ∨ signed keyId canonical)) :
    ∀ keyId ∈ after, keyId ∈ policy.trusted ∧ (keyId ∈ held ∨ signed keyId canonical) := by
  induction signatures generalizing verified with
  | nil =>
    obtain rfl := Except.ok.inj h
    exact hverified
  | cons signature rest ih =>
    rw [List.foldlM_cons] at h
    cases hcount : countSignature crates root policy canonical verified signature with
    | error message =>
      rw [hcount] at h
      cases h
    | ok next =>
      rw [hcount] at h
      exact ih h (countSignature_ok hideal hcount hverified)

theorem authentic_of_verify {Metadata : Type} {decode : Json → Option Metadata} {bytes : Bytes}
    {role : String} {nowMs : ℤ} {metadata : Metadata}
    (hideal : IdealSignatures crates root held signed) (hbelow : BelowThreshold root held)
    (h : root.verify crates decode bytes role role nowMs = .ok metadata) :
    Authentic crates root held signed decode role nowMs bytes metadata := by
  unfold TrustedRoot.verify at h
  split at h
  · cases h
  · split at h
    · cases h
    · rename_i envelope henvelope
      split at h
      · cases h
      · split at h
        · cases h
        · rename_i policy hpolicy
          split at h
          · cases h
          · rename_i verified hcounted
            split at h
            · cases h
            · rename_i hthreshold
              split at h
              · cases h
              · rename_i hcurrent
                split at h
                · cases h
                · rename_i value hdecode
                  obtain rfl := Except.ok.inj h
                  have hendorsed : policy.Endorsed
                      (fun keyId message ↦ keyId ∈ held ∨ signed keyId message)
                      (crates.toVec envelope.signed) :=
                    ⟨verified, not_lt.mp hthreshold, foldlM_countSignature_ok hideal hcounted
                      fun keyId hkeyId ↦ absurd hkeyId (Finset.notMem_empty keyId)⟩
                  refine ⟨envelope, policy, henvelope, hpolicy, hendorsed,
                    hendorsed.exists_honest (hbelow role policy hpolicy), ?_, hdecode⟩
                  simpa using hcurrent

theorem matches_of_verify {file : MetadataFile} {bytes : Bytes}
    (h : file.verify crates bytes = .ok ()) :
    Matches crates file.length file.sha256 bytes = true := by
  unfold MetadataFile.verify at h
  split_ifs at h with hlength hhash
  rw [Matches, Bool.and_eq_true]
  exact ⟨decide_eq_true (of_not_not (not_or.mp hlength).1), by simpa using hhash⟩

/-! ## The chain of files -/

/-- The targets are listed by a chain of authentic files, each of which gives the version, the
length and the hash of the next. -/
structure Chain (crates : Crates) (root : TrustedRoot) (held : Finset String)
    (signed : String → Bytes → Prop) (nowMs : ℤ) (targets : TargetsMetadata)
    (versions : MetadataVersions) : Prop where
  files : ∃ timestampBytes timestamp snapshotBytes snapshot targetsBytes,
    Authentic crates root held signed decodeTimestamp "timestamp" nowMs timestampBytes
        timestamp ∧ timestamp.version = versions.timestamp ∧
      timestamp.snapshot.version = versions.snapshot ∧
      Matches crates timestamp.snapshot.length timestamp.snapshot.sha256 snapshotBytes = true ∧
      Authentic crates root held signed decodeSnapshot "snapshot" nowMs snapshotBytes
        snapshot ∧ snapshot.version = versions.snapshot ∧
      snapshot.targets.version = versions.targets ∧
      Matches crates snapshot.targets.length snapshot.targets.sha256 targetsBytes = true ∧
      Authentic crates root held signed decodeTargets "targets" nowMs targetsBytes targets ∧
      targets.version = versions.targets

/-- The bytes are those of a target for the platform and the channel that such a chain lists. -/
def Genuine (crates : Crates) (client : UpdateClient Version) (held : Finset String)
    (signed : String → Bytes → Prop) (candidate : Candidate) : Prop :=
  ∃ targets versions path target,
    Chain crates client.root held signed candidate.nowMs targets versions ∧
      (path, target) ∈ targets.targets ∧ target.platform = client.platform ∧
      target.arch = client.arch ∧ target.channel = client.channel ∧
      Matches crates target.length target.sha256 candidate.bytes = true

theorem mem_candidates {selection : Selection Version}
    (h : selection ∈ candidates semver client targets) :
    (selection.path, selection.target) ∈ targets ∧
      admissible client selection.path selection.target = true := by
  obtain ⟨⟨path, target⟩, hmem, hselected⟩ :=
    List.mem_filterMap.mp ((List.perm_insertionSort _ _).mem_iff.mp h)
  dsimp only at hselected
  split at hselected
  · cases hselected
  · split_ifs at hselected with hadmissible
    obtain rfl := Option.some.inj hselected
    exact ⟨hmem, hadmissible⟩

theorem select_ok {requested : Option Version} {bypassRollout : Bool}
    {selection : Selection Version}
    (h : select crates semver client requested bypassRollout targets = .ok (some selection)) :
    selection ∈ candidates semver client targets := by
  have hchosen : ∀ chosen, choose semver client targets requested = .ok (some chosen) →
      chosen ∈ candidates semver client targets := by
    intro chosen hchosen
    unfold choose at hchosen
    split at hchosen
    · split at hchosen
      · cases hchosen
      · rename_i found hfind
        obtain rfl := Option.some.inj (Except.ok.inj hchosen)
        exact List.mem_of_find?_eq_some hfind
    · exact List.mem_of_find?_eq_some (Except.ok.inj hchosen)
  unfold select at h
  cases hresult : choose semver client targets requested with
  | error message =>
    rw [hresult] at h
    cases h
  | ok result =>
    rw [hresult] at h
    obtain ⟨hsome, -⟩ := Option.filter_eq_some_iff.mp (Except.ok.inj h)
    exact hchosen selection (hsome ▸ hresult)

/-! ## What an execution does to the files -/

/-- Nothing that is durable has changed. -/
def SameFiles (host after : Installation) : Prop :=
  after.stateFile = host.stateFile ∧ after.binary = host.binary ∧
    after.previous = host.previous ∧ after.handed = host.handed ∧
    after.installed = host.installed

theorem SameFiles.refl (host : Installation) : SameFiles host host := ⟨rfl, rfl, rfl, rfl, rfl⟩

theorem maintains_mayFail {invariant : Installation → Prop} : Maintains invariant mayFail :=
  maintains_operation (fun _ h ↦ h) fun _ _ h ↦ h

theorem maintains_fetchBounded (host : Installation) (path : String) (maximum : ℕ)
    (response : Response) :
    Maintains (SameFiles host) (fetchBounded path maximum response) := by
  have hremember : ∀ etag bytes, Maintains (SameFiles host) (remember path maximum etag bytes) := by
    intro etag bytes
    unfold remember
    split
    · exact maintains_pure _
    · exact maintains_ite (maintains_modify fun _ h ↦ h) (maintains_pure _)
  unfold fetchBounded
  apply maintains_ite (maintains_raise _)
  apply maintains_bind maintains_read
  intro before
  apply maintains_bind maintains_mayFail
  intro _
  cases response with
  | notModified =>
    dsimp only
    split
    · exact maintains_raise _
    · exact maintains_pure _
  | status code => exact maintains_raise _
  | ok etag contentLength chunks =>
    apply maintains_ite (maintains_raise _)
    split
    · exact maintains_raise _
    · exact maintains_bind (hremember etag _) fun _ ↦ maintains_pure _

omit [LinearOrder Version] in
/-- The chain is verified file by file, and no version is below the persisted one. -/
theorem ensures_fetchMetadata {previous : MetadataVersions} {nowMs : ℤ} (responses : Responses)
    (hideal : IdealSignatures crates client.root held signed)
    (hbelow : BelowThreshold client.root held) {host before : Installation}
    (h : SameFiles host before) :
    Ensures (fetchMetadata crates client previous nowMs responses) before
      (fun found after ↦ SameFiles host after ∧ previous ≤ found.2 ∧
        Chain crates client.root held signed nowMs found.1 found.2)
      (fun _ ↦ SameFiles host) (SameFiles host) := by
  have hfetch : ∀ path response, Maintains (SameFiles host)
      (fetchBounded path maxMetadataBytes response) :=
    fun path response ↦ maintains_fetchBounded host path maxMetadataBytes response
  unfold fetchMetadata
  refine ensures_bind (ensures_returned (hfetch "alphaping-tuf-timestamp.json" _ before h) ?_)
  intro timestampBytes first hfirst
  refine ensures_bind (ensures_ofExcept (fun timestamp htimestamp ↦ ?_) fun _ _ ↦ hfirst)
  refine ensures_ite (fun _ ↦ ensures_raise hfirst) fun hallowed ↦ ?_
  refine ensures_bind (ensures_returned (hfetch "alphaping-tuf-snapshot.json" _ first hfirst) ?_)
  intro snapshotBytes second hsecond
  refine ensures_bind (ensures_ofExcept (fun _ hsnapshotFile ↦ ?_) fun _ _ ↦ hsecond)
  refine ensures_bind (ensures_ofExcept (fun snapshot hsnapshot ↦ ?_) fun _ _ ↦ hsecond)
  refine ensures_ite (fun _ ↦ ensures_raise hsecond) fun hsnapshotAllowed ↦ ?_
  refine ensures_bind (ensures_returned (hfetch "alphaping-tuf-targets.json" _ second hsecond) ?_)
  intro targetsBytes third hthird
  refine ensures_bind (ensures_ofExcept (fun _ htargetsFile ↦ ?_) fun _ _ ↦ hthird)
  refine ensures_bind (ensures_ofExcept (fun targets htargets ↦ ?_) fun _ _ ↦ hthird)
  refine ensures_ite (fun _ ↦ ensures_raise hthird) fun htargetsAllowed ↦ ?_
  simp only [timestampAllowed, snapshotAllowed, targetsAllowed, Bool.not_eq_true',
    Bool.not_eq_false, Bool.and_eq_true, decide_eq_true_eq]
    at hallowed hsnapshotAllowed htargetsAllowed
  obtain ⟨⟨hsnapshotVersion, hsnapshotOld⟩, htargetsOld⟩ := hsnapshotAllowed
  refine ensures_pure ⟨hthird, ?_, ⟨timestampBytes, timestamp, snapshotBytes, snapshot,
    targetsBytes, ?_⟩⟩
  · exact versions_le_iff.mpr ⟨hallowed.1, hsnapshotOld, htargetsAllowed.2⟩
  · exact ⟨authentic_of_verify hideal hbelow htimestamp, rfl, hsnapshotVersion.symm,
      matches_of_verify hsnapshotFile, authentic_of_verify hideal hbelow hsnapshot, rfl,
      htargetsAllowed.1.symm, matches_of_verify htargetsFile,
      authentic_of_verify hideal hbelow htargets, rfl⟩

/-- What is found is a listed artifact, and the versions are those of its chain. -/
theorem ensures_findUpdate {requested : Option Version} {bypassRollout : Bool}
    {previous : MetadataVersions} {nowMs : ℤ} (responses : Responses)
    (hideal : IdealSignatures crates client.root held signed)
    (hbelow : BelowThreshold client.root held) (host : Installation) :
    Ensures (findUpdate crates semver client requested bypassRollout previous nowMs responses) host
      (fun found after ↦ SameFiles host after ∧ previous ≤ found.2 ∧
        ∀ target ∈ found.1, ∀ text, Genuine crates client held signed ⟨target.bytes, nowMs, text⟩)
      (fun _ ↦ SameFiles host) (SameFiles host) := by
  unfold findUpdate
  refine ensures_bind (ensures_returned
    (ensures_fetchMetadata responses hideal hbelow (.refl host)) ?_)
  rintro ⟨targets, versions⟩ middle ⟨hmiddle, hversions, hchain⟩
  dsimp only at hversions hchain ⊢
  refine ensures_bind (ensures_ofExcept (fun selection hselection ↦ ?_) fun _ _ ↦ hmiddle)
  cases selection with
  | none => exact ensures_pure ⟨hmiddle, hversions, fun target htarget ↦ by cases htarget⟩
  | some selected =>
    refine ensures_bind (ensures_returned (maintains_fetchBounded host _ _ _ middle hmiddle) ?_)
    intro bytes after hafter
    refine ensures_ite (fun _ ↦ ensures_raise hafter) fun hmatches ↦ ?_
    obtain ⟨hlisted, hadmissible⟩ := mem_candidates (select_ok hselection)
    simp only [admissible, Bool.and_eq_true, decide_eq_true_eq] at hadmissible
    refine ensures_pure ⟨hafter, hversions, fun target htarget text ↦ ?_⟩
    obtain rfl := Option.some.inj htarget
    exact ⟨targets, versions, selected.path, selected.target, hchain, hlisted,
      hadmissible.1.1.1.1.1.1.1, hadmissible.1.1.1.1.1.1.2, hadmissible.1.1.1.1.1.2,
      by simpa using hmatches⟩

/-! ## The invariant -/

/-- The bytes were there before, or an update put them in the place of the binary. -/
def Known (origin : List Bytes) (host : Installation) (bytes : Bytes) : Prop :=
  bytes ∈ origin ∨ ∃ candidate ∈ host.installed, candidate.bytes = bytes

/-- No version below `floor` is persisted, and the binary and its backup are genuine or were there
before. -/
structure Sound (crates : Crates) (client : UpdateClient Version) (held : Finset String)
    (signed : String → Bytes → Prop) (floor : MetadataVersions) (origin : List Bytes)
    (host : Installation) : Prop where
  versions : ∀ versions, persisted crates host.stateFile = .ok versions → floor ≤ versions
  installed : ∀ candidate ∈ host.installed, Genuine crates client held signed candidate
  handed : ∀ candidate ∈ host.handed, Genuine crates client held signed candidate
  binary : ∀ bytes, host.binary = some bytes → Known origin host bytes
  previous : ∀ bytes, host.previous = some bytes → Known origin host bytes

variable {floor : MetadataVersions} {origin : List Bytes} {host after : Installation}
  {candidate : Candidate}

omit [LinearOrder Version] in
theorem Sound.sameFiles (h : Sound crates client held signed floor origin host)
    (hsame : SameFiles host after) : Sound crates client held signed floor origin after := by
  obtain ⟨hstate, hbinary, hprevious, hhanded, hinstalled⟩ := hsame
  have hknown : ∀ bytes, Known origin host bytes → Known origin after bytes := by
    intro bytes hbytes
    rwa [Known, hinstalled]
  constructor
  · rw [hstate]
    exact h.versions
  · rw [hinstalled]
    exact h.installed
  · rw [hhanded]
    exact h.handed
  · rw [hbinary]
    exact fun bytes hbytes ↦ hknown bytes (h.binary bytes hbytes)
  · rw [hprevious]
    exact fun bytes hbytes ↦ hknown bytes (h.previous bytes hbytes)

omit [LinearOrder Version] in
theorem Sound.place (h : Sound crates client held signed floor origin host)
    (hgenuine : Genuine crates client held signed candidate) :
    Sound crates client held signed floor origin (host.place candidate) := by
  have hknown : ∀ bytes, Known origin host bytes → Known origin (host.place candidate) bytes := by
    rintro bytes (horigin | ⟨other, hother, hbytes⟩)
    · exact .inl horigin
    · exact .inr ⟨other, List.mem_append_left _ hother, hbytes⟩
  refine ⟨h.versions, ?_, h.handed, ?_, fun bytes hbytes ↦ hknown bytes (h.previous bytes hbytes)⟩
  · intro other hother
    rcases List.mem_append.mp hother with hold | hnew
    · exact h.installed other hold
    · rwa [List.mem_singleton.mp hnew]
  · intro bytes hbytes
    exact .inr ⟨candidate, List.mem_append_right _ (List.mem_singleton_self candidate),
      Option.some.inj hbytes⟩

section Keeping

variable {invariant : Installation → Prop}

theorem maintains_renames {change : Installation → Installation}
    (h : ∀ host, invariant host → invariant (change host)) :
    Maintains invariant (renames change) := by
  apply maintains_operation h
  intro progress host hhost
  split_ifs with hprogress
  · exact hhost
  · exact h host hhost

theorem maintains_checkCandidate : Maintains invariant checkCandidate :=
  maintains_bind maintains_mayFail fun _ ↦ maintains_bind maintains_mayFail fun _ ↦
    maintains_mayFail

theorem maintains_restorePrevious (h : ∀ host bytes, invariant host →
    host.previous = some bytes → invariant { host with binary := some bytes, previous := none }) :
    Maintains invariant restorePrevious := by
  refine maintains_operation (fun host hhost ↦ ?_) fun _ _ hhost ↦ hhost
  split
  · exact hhost
  · rename_i bytes hprevious
    exact h host bytes hhost hprevious

theorem maintains_orRestore {check : Program Installation Unit} (hcheck : Maintains invariant check)
    (hrestore : Maintains invariant restorePrevious) : Maintains invariant (orRestore check) := by
  refine maintains_bind (maintains_attempt hcheck) fun result ↦ ?_
  cases result with
  | ok _ => exact maintains_pure _
  | error message =>
    exact maintains_bind hrestore fun _ ↦ maintains_bind maintains_mayFail fun _ ↦
      maintains_raise message

end Keeping

omit [LinearOrder Version] in
theorem maintains_restore_sound :
    Maintains (Sound crates client held signed floor origin) restorePrevious :=
  maintains_restorePrevious fun _ bytes h hprevious ↦
    ⟨h.versions, h.installed, h.handed, fun _ hother ↦
      Option.some.inj hother ▸ h.previous bytes hprevious, fun _ hother ↦ nomatch hother⟩

omit [LinearOrder Version] in
theorem maintains_place (hgenuine : Genuine crates client held signed candidate) :
    Maintains (Sound crates client held signed floor origin)
      (renames fun host ↦ host.place candidate) :=
  maintains_renames fun _ h ↦ h.place hgenuine

omit [LinearOrder Version] in
theorem maintains_installUnix (hgenuine : Genuine crates client held signed candidate) :
    Maintains (Sound crates client held signed floor origin) (installUnix candidate) := by
  have hkeep : Maintains (Sound crates client held signed floor origin) keepPrevious :=
    maintains_renames fun host h ↦ ⟨h.versions, h.installed, h.handed, h.binary, h.binary⟩
  unfold installUnix
  refine maintains_bind maintains_checkCandidate fun _ ↦ maintains_bind hkeep fun _ ↦
    maintains_bind maintains_mayFail fun _ ↦ maintains_bind (maintains_place hgenuine) fun _ ↦ ?_
  exact maintains_bind (maintains_orRestore maintains_mayFail maintains_restore_sound)
    fun _ ↦ maintains_orRestore maintains_mayFail maintains_restore_sound

omit [LinearOrder Version] in
theorem maintains_installWindows (hgenuine : Genuine crates client held signed candidate) :
    Maintains (Sound crates client held signed floor origin) (installWindows candidate) := by
  refine maintains_bind maintains_checkCandidate fun _ ↦ maintains_renames fun host h ↦ ?_
  refine ⟨h.versions, h.installed, fun other hother ↦ ?_, h.binary, h.previous⟩
  rcases List.mem_append.mp hother with hold | hnew
  · exact h.handed other hold
  · rwa [List.mem_singleton.mp hnew]

omit [LinearOrder Version] in
theorem maintains_applyWindowsUpdate (hgenuine : Genuine crates client held signed candidate) :
    Maintains (Sound crates client held signed floor origin) (applyWindowsUpdate candidate) := by
  have hnoPrevious : Maintains (Sound crates client held signed floor origin)
      (renames fun host ↦ { host with previous := none }) :=
    maintains_renames fun host h ↦
      ⟨h.versions, h.installed, h.handed, h.binary, fun _ hbytes ↦ nomatch hbytes⟩
  have hmove : Maintains (Sound crates client held signed floor origin)
      (renames fun host ↦ { host with previous := host.binary, binary := none }) :=
    maintains_renames fun host h ↦
      ⟨h.versions, h.installed, h.handed, fun _ hbytes ↦ (nomatch hbytes), h.binary⟩
  have hremove : Maintains (Sound crates client held signed floor origin)
      (renames fun host ↦ { host with binary := none }) :=
    maintains_renames fun host h ↦
      ⟨h.versions, h.installed, h.handed, fun _ hbytes ↦ (nomatch hbytes), h.previous⟩
  have hreplace : Maintains (Sound crates client held signed floor origin)
      (replaceByCandidate candidate) := by
    refine maintains_bind (maintains_attempt (maintains_place hgenuine)) fun result ↦ ?_
    cases result with
    | error message =>
      exact maintains_bind (maintains_attempt maintains_restore_sound) fun _ ↦
        maintains_raise message
    | ok _ =>
      refine maintains_bind (maintains_attempt maintains_checkCandidate) fun checked ↦ ?_
      cases checked with
      | ok _ => exact maintains_pure _
      | error message =>
        exact maintains_bind (maintains_attempt hremove) fun _ ↦
          maintains_bind maintains_restore_sound fun _ ↦ maintains_raise message
  refine maintains_bind (maintains_attempt hnoPrevious) fun _ ↦
    maintains_bind (maintains_attempt hmove) fun _ ↦ maintains_bind maintains_read fun host ↦ ?_
  exact maintains_ite (maintains_raise _) hreplace

/-! ## Executions and runs -/

theorem maintains_execute (semver : Semver Version) (request : UpdateRequest Version) (nowMs : ℤ)
    (responses : Responses) (hideal : IdealSignatures crates client.root held signed)
    (hbelow : BelowThreshold client.root held) :
    Maintains (Sound crates client held signed floor origin)
      (execute crates semver client request nowMs responses) := by
  intro host h
  unfold execute
  refine ensures_ite (fun _ ↦ ensures_pure h) fun _ ↦ ?_
  refine ensures_bind (ensures_operation ?_ (fun _ ↦ h) fun _ ↦ h)
  cases hloaded : persisted crates host.stateFile with
  | error message => exact h
  | ok previous =>
    refine ensures_bind (ensures_mono (ensures_findUpdate responses hideal hbelow host) ?_
      (fun _ after hsame ↦ h.sameFiles hsame) fun after hsame ↦ h.sameFiles hsame)
    rintro ⟨target, versions⟩ middle ⟨hsame, hversions, hgenuine⟩
    have hmiddle := h.sameFiles hsame
    have hsaved : Sound crates client held signed floor origin
        { middle with stateFile := some (.saved versions) } := by
      refine ⟨fun found hfound ↦ ?_, hmiddle.installed, hmiddle.handed, hmiddle.binary,
        hmiddle.previous⟩
      obtain rfl := Except.ok.inj hfound
      exact (h.versions previous hloaded).trans hversions
    have hprogress : ∀ progress : ℕ, Sound crates client held signed floor origin
        (if progress = 0 then middle
          else { middle with stateFile := some (.saved versions) }) := by
      intro progress
      split_ifs with hzero
      · exact hmiddle
      · exact hsaved
    refine ensures_bind (ensures_operation ?_ hprogress hprogress)
    cases target with
    | none => exact ensures_pure hsaved
    | some target =>
      have hinstall : Maintains (Sound crates client held signed floor origin)
          (installVerifiedBinary client
            ⟨target.bytes, nowMs, semver.toText target.version⟩) :=
        maintains_ite (maintains_installWindows (hgenuine target rfl _))
          (maintains_installUnix (hgenuine target rfl _))
      exact maintains_bind hinstall (fun _ ↦ maintains_pure _) _ hsaved

section Runs

variable (hideal : IdealSignatures crates client.root held signed)
  (hbelow : BelowThreshold client.root held)

include hideal hbelow

theorem Sound.perform {runtime : Runtime Version} {finish : Installation → Runtime Version}
    (h : Sound crates client held signed floor origin runtime.host)
    (hfinish : ∀ host, (finish host).host = host) (request : UpdateRequest Version) (nowMs : ℤ)
    (responses : Responses) (fates : List Fate) :
    Sound crates client held signed floor origin
      (perform crates semver client runtime finish request nowMs responses fates).host := by
  have hend := maintains_execute semver request nowMs responses hideal hbelow runtime.host h fates
  unfold AlphaPing.Agent.Updater.perform
  generalize execute crates semver client request nowMs responses runtime.host fates = outcome
    at hend ⊢
  obtain ⟨ending, host, left⟩ := outcome
  cases ending with
  | returned value =>
    rw [hfinish]
    exact hend
  | raised message =>
    rw [hfinish]
    exact hend
  | interrupted => exact ⟨hend.versions, hend.installed, hend.handed, hend.binary, hend.previous⟩

theorem sound_step (runtime : Runtime Version) (event : Event Version)
    (h : Sound crates client held signed floor origin runtime.host) :
    Sound crates client held signed floor origin
      (step crates semver client runtime event).host := by
  cases event with
  | commandTick request nowMs =>
    rw [step]
    split_ifs <;> exact h
  | automaticUpdateTick nowMs =>
    rw [step]
    split_ifs <;> exact h
  | ran automatic responses fates =>
    unfold step
    dsimp only
    split
    · exact h.perform hideal hbelow (fun _ ↦ rfl) ..
    · exact h.perform hideal hbelow (fun _ ↦ rfl) ..
    · exact h
  | received automatic =>
    unfold step
    dsimp only
    split <;> exact h
  | helper index fates =>
    unfold step
    dsimp only
    split
    · exact h
    · rename_i candidate hcandidate
      have hgenuine := h.handed candidate (List.mem_of_getElem? hcandidate)
      have hend := maintains_applyWindowsUpdate hgenuine runtime.host h fates
      generalize applyWindowsUpdate candidate runtime.host fates = outcome at hend ⊢
      obtain ⟨ending, host, left⟩ := outcome
      cases ending with
      | returned value => exact hend
      | raised message => exact hend
      | interrupted => exact hend
  | restart => exact ⟨h.versions, h.installed, h.handed, h.binary, h.previous⟩

theorem sound_run (runtime : Runtime Version) (events : List (Event Version))
    (h : Sound crates client held signed floor origin runtime.host) :
    Sound crates client held signed floor origin
      (run (step crates semver client) runtime events).host := by
  have hstep : ∀ (runtime : Runtime Version) (event : Event Version),
      Sound crates client held signed floor origin runtime.host →
      Sound crates client held signed floor origin
        (step crates semver client runtime event).host :=
    fun runtime event ↦ sound_step hideal hbelow runtime event
  exact run_invariant hstep h events

end Runs

/-- From any reachable state on, the versions that are persisted never go down. Whatever an update
has put in the place of the binary has the length and the hash of a target, for this platform and
channel, of metadata that were signed and unexpired when it was downloaded. -/
theorem updates_safe (semver : Semver Version)
    (hideal : IdealSignatures crates client.root held signed)
    (hbelow : BelowThreshold client.root held) (stateFile : Option StateFile)
    (binary previous : Option Bytes) (before later : List (Event Version)) :
    let middle := run (step crates semver client) (.boot stateFile binary previous) before
    let last := run (step crates semver client) middle later
    (∀ versions versions', persisted crates middle.host.stateFile = .ok versions →
        persisted crates last.host.stateFile = .ok versions' → versions ≤ versions') ∧
      (∀ candidate ∈ last.host.installed, Genuine crates client held signed candidate) ∧
      ∀ bytes, last.host.binary = some bytes →
        Known (binary.toList ++ previous.toList) last.host bytes := by
  intro middle last
  have hzero : ∀ versions : MetadataVersions, ⟨0, 0, 0⟩ ≤ versions := fun versions ↦
    versions_le_iff.mpr ⟨Nat.zero_le _, Nat.zero_le _, Nat.zero_le _⟩
  have hboot : Sound crates client held signed ⟨0, 0, 0⟩ (binary.toList ++ previous.toList)
      (.boot stateFile binary previous : Runtime Version).host := by
    refine ⟨fun versions _ ↦ hzero versions, fun _ hmem ↦ absurd hmem List.not_mem_nil,
      fun _ hmem ↦ absurd hmem List.not_mem_nil, fun bytes hbytes ↦ .inl ?_,
      fun bytes hbytes ↦ .inl ?_⟩
    · exact List.mem_append_left _ (Option.mem_toList.mpr hbytes)
    · exact List.mem_append_right _ (Option.mem_toList.mpr hbytes)
  have hmiddle : Sound crates client held signed ⟨0, 0, 0⟩ (binary.toList ++ previous.toList)
      middle.host := sound_run hideal hbelow _ before hboot
  have hlast : ∀ floor, (∀ versions, persisted crates middle.host.stateFile = .ok versions →
      floor ≤ versions) → Sound crates client held signed floor
        (binary.toList ++ previous.toList) last.host := fun floor hfloor ↦
    sound_run hideal hbelow middle later
      ⟨hfloor, hmiddle.installed, hmiddle.handed, hmiddle.binary, hmiddle.previous⟩
  refine ⟨fun versions versions' hversions ↦ ?_, ?_, ?_⟩
  · refine (hlast versions fun found hfound ↦ ?_).versions versions'
    rw [Except.ok.inj (hversions.symm.trans hfound)]
  · exact (hlast ⟨0, 0, 0⟩ fun versions _ ↦ hzero versions).installed
  · exact (hlast ⟨0, 0, 0⟩ fun versions _ ↦ hzero versions).binary

end

/-! ## One update

Three files signed with Ed25519, as a release would be; the artifact has five bytes. -/

def keyA : String := "ea4a6c63e29c520abef5507b132ec5f9954776aebebe7b92421eea691446d22c"

def keyB : String := "fd1724385aa0c75b64fb78cd602fa1d991fdebf76b13c58ed702eac835e9f618"

def keyC : String := "66be7e332c7a453332bd9d0a7f7db055f5c5ef1a06ada66d98b39fb6810c473a"

def timestampSignature : String :=
  "503d51053c4001146a951b8c70838ac3816a6de50d10b0f953804f11d125f99b" ++
    "07ede585c17e2edeacc32a264e9c759ce8b0c6ba2d9b433ccb633c64c2345306"

def snapshotSignature : String :=
  "519b4c1a2e0490b9bfceeb39c287e3b3bf5c79b14d5fec42d6938018451281d7" ++
    "212a734fcb3d764dda5779b588aa173d8d8520d6705cd9647137f4babf9b5f03"

def targetsSignatureA : String :=
  "3b19177a441ee67c3ffbf452817edfcae420052ed20ee5ef77a5e21cb9846500" ++
    "1ff33d0b678b0f99ee1535aba67852f564f93da4c767233eff245c1f7e064b06"

def targetsSignatureB : String :=
  "61a9042b2e64d425186759764853ed3cf502fbc65c202088b445c0d25b27aee5" ++
    "4b4723808ea5b0af52e6ed371355bc582c187ee2fbe62eb5263748bed516690f"

def snapshotSha256 : String := "d211bc99ddfe2a24fde4d8e1f9dac67e42c7ed74aa435546707ea2e4e8c1b873"

def targetsSha256 : String := "b8c8db1263305122ae2db8aafa20afea5bbbc14cd3318af542587f833768f0aa"

def artifactSha256 : String := "d4f0bc5a29de06b510f9aa428f1eedba926012b591fef7a518e776a7c9bd1824"

def artifact : Bytes := [97, 103, 101, 110, 116]

/-- The canonical texts. -/
def timestampText : Bytes :=
  textBytes "\x7b\"expires_at_ms\":1752584400000,\"snapshot\":\x7b\"length\":383,\"sha256\":\"" ++
    textBytes snapshotSha256 ++
    textBytes "\",\"version\":2\x7d,\"spec_version\":\"1.0\",\"type\":\"timestamp\"," ++
    textBytes "\"version\":1\x7d"

def snapshotText : Bytes :=
  textBytes "\x7b\"expires_at_ms\":1752584400000,\"spec_version\":\"1.0\",\"targets\":\x7b" ++
    textBytes "\"length\":640,\"sha256\":\"" ++ textBytes targetsSha256 ++
    textBytes "\",\"version\":3\x7d,\"type\":\"snapshot\",\"version\":2\x7d"

def targetsText : Bytes :=
  textBytes "\x7b\"expires_at_ms\":1752584400000,\"spec_version\":\"1.0\",\"targets\":\x7b" ++
    textBytes "\"agent-linux\":\x7b\"arch\":\"x86_64\",\"channel\":\"stable\",\"length\":5," ++
    textBytes "\"platform\":\"linux\",\"rollout_percent\":100,\"sha256\":\"" ++
    textBytes artifactSha256 ++
    textBytes "\",\"version\":\"0.2.0\"\x7d\x7d,\"type\":\"targets\",\"version\":3\x7d"

def signatureText (signature : MetadataSignature) : Bytes :=
  textBytes "\x7b\"key_id\":\"" ++ textBytes signature.keyId ++
    textBytes "\",\"signature_hex\":\"" ++ textBytes signature.signatureHex ++ textBytes "\"\x7d"

def fileOf (signatures : List MetadataSignature) (text : Bytes) : Bytes :=
  textBytes "\x7b\"signatures\":[" ++
    (textBytes ",").intercalate (signatures.map signatureText) ++
    textBytes "],\"signed\":" ++ text ++ textBytes "\x7d"

def releaseFields (type : String) (version : ℤ) (member : String × Json) : Json :=
  .object [("expires_at_ms", .integer 1752584400000), member, ("spec_version", .string "1.0"),
    ("type", .string type), ("version", .integer version)]

def fileValue (length : ℤ) (sha256 : String) (version : ℤ) : Json :=
  .object [("length", .integer length), ("sha256", .string sha256), ("version", .integer version)]

def timestampEnvelope : MetadataEnvelope :=
  ⟨releaseFields "timestamp" 1 ("snapshot", fileValue 383 snapshotSha256 2),
    [⟨"a", timestampSignature⟩]⟩

def snapshotEnvelope : MetadataEnvelope :=
  ⟨releaseFields "snapshot" 2 ("targets", fileValue 640 targetsSha256 3),
    [⟨"a", snapshotSignature⟩]⟩

def targetsEnvelope : MetadataEnvelope :=
  ⟨releaseFields "targets" 3 ("targets", .object [("agent-linux", .object
      [("arch", .string "x86_64"), ("channel", .string "stable"), ("length", .integer 5),
        ("platform", .string "linux"), ("rollout_percent", .integer 100),
        ("sha256", .string artifactSha256), ("version", .string "0.2.0")])]),
    [⟨"a", targetsSignatureA⟩, ⟨"b", targetsSignatureB⟩]⟩

def timestampFile : Bytes := fileOf timestampEnvelope.signatures timestampText

def snapshotFile : Bytes := fileOf snapshotEnvelope.signatures snapshotText

def targetsFile : Bytes := fileOf targetsEnvelope.signatures targetsText

def textOf (value : Json) : Bytes :=
  match (value.get "type").bind Json.asStr with
  | some "timestamp" => timestampText
  | some "snapshot" => snapshotText
  | some "targets" => targetsText
  | _ => []

/-- The third-party functions on these inputs, which their lengths and first bytes tell apart. -/
def releaseCrates : Crates where
  parseEnvelope bytes :=
    match bytes.length with
    | 385 => some timestampEnvelope
    | 383 => some snapshotEnvelope
    | 640 => some targetsEnvelope
    | _ => none
  parseJson _ := none
  toVec := textOf
  verifyingKey bytes := bytes.head? ∈ [some 0xea, some 0xfd, some 0x66]
  verifyStrict key message signature :=
    (key.head?, message.length, signature.head?) ∈
      [(some 0xea, 197, some 0x50), (some 0xea, 195, some 0x51), (some 0xea, 290, some 0x3b),
        (some 0xfd, 290, some 0x61)]
  sha256 bytes :=
    match bytes.length with
    | 383 => (hexDecode (textBytes snapshotSha256)).getD []
    | 640 => (hexDecode (textBytes targetsSha256)).getD []
    | 5 => (hexDecode (textBytes artifactSha256)).getD []
    | _ => []
  blake3 _ := []

/-- The two versions that occur. -/
def releaseSemver : Semver ℕ where
  parse text := if text = "0.1.0" then some 1 else if text = "0.2.0" then some 2 else none
  toText version := if version = 1 then "0.1.0" else "0.2.0"

def releaseClient : UpdateClient ℕ where
  root :=
    { keys := [("a", ⟨"ed25519", keyA⟩), ("b", ⟨"ed25519", keyB⟩), ("c", ⟨"ed25519", keyC⟩)]
      roles := [("timestamp", ⟨["a"], 1⟩), ("snapshot", ⟨["a"], 1⟩),
        ("targets", ⟨["a", "b", "c"], 2⟩)] }
  agentId := "agent"
  channel := "stable"
  pinnedVersion := none
  currentVersion := 1
  platform := "linux"
  arch := "x86_64"

def served (bytes : Bytes) : Response := .ok none none [bytes]

/-- The automatic update is due, runs and reports. -/
def releaseUpdate : List (Event ℕ) :=
  [.automaticUpdateTick 1752580800000,
    .ran true ⟨served timestampFile, served snapshotFile, served targetsFile, served artifact⟩ [],
    .received true]

def updated : Runtime ℕ :=
  run (step releaseCrates releaseSemver releaseClient) (.boot none (some [1]) none) releaseUpdate

def madeSignature (keyId : String) (message : Bytes) : Prop :=
  ∃ key bytes signature, releaseClient.root.keys.lookup keyId = some key ∧
    publicKey releaseCrates key = some bytes ∧
    releaseCrates.verifyStrict bytes message signature = true

theorem ideal_release : IdealSignatures releaseCrates releaseClient.root {"c"} madeSignature :=
  fun _ key bytes _ signature hkey hbytes hverified ↦
    .inr ⟨key, bytes, signature, hkey, hbytes, hverified⟩

theorem below_release : BelowThreshold releaseClient.root {"c"} := by
  intro role policy hpolicy parties hheld htrusted
  have hparties : parties = ∅ ∨ parties = {"c"} := Finset.subset_singleton_iff.mp hheld
  have hpolicies : policy = ⟨["a"], 1⟩ ∨ policy = ⟨["a", "b", "c"], 2⟩ := by
    simp only [releaseClient, List.lookup_cons, List.lookup_nil] at hpolicy
    split at hpolicy
    · exact .inl (Option.some.inj hpolicy).symm
    · split at hpolicy
      · exact .inl (Option.some.inj hpolicy).symm
      · split at hpolicy
        · exact .inr (Option.some.inj hpolicy).symm
        · cases hpolicy
  rcases hparties with rfl | rfl
  · rcases hpolicies with rfl | rfl <;> decide
  · rcases hpolicies with rfl | rfl
    · exact absurd (htrusted "c" (Finset.mem_singleton_self "c")) (by decide)
    · decide

/-- The attacker has one of the three keys for targets, and the release is installed. -/
theorem updates_safe_release :
    (∀ candidate ∈ updated.host.installed,
        Genuine releaseCrates releaseClient {"c"} madeSignature candidate) ∧
      updated.host.binary = some artifact ∧
      (persisted releaseCrates updated.host.stateFile).toOption = some ⟨1, 2, 3⟩ := by
  have hsafe := updates_safe releaseSemver ideal_release below_release none (some [1]) none []
    releaseUpdate
  constructor
  · obtain ⟨-, hgenuine, -⟩ := hsafe
    rw [run_nil] at hgenuine
    rw [updated]
    exact hgenuine
  · decide +kernel

end AlphaPing.Agent.Updater
