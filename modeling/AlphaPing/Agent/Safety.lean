import AlphaPing.Agent.Runtime
import AlphaPing.Agent.Spool.Frame
import AlphaPing.Library.Runs

/-!
# Upload safety and freshness of the transport sequence

One invariant serves two results. The deliveries that the loop relies on stay present and
pending, so no call of an upload meets a state that it does not expect. Every sequence that
sealed an upload is at most the checkpoint in the configuration file, and at most the counter of
the database that the process has open, so the next one is new: a database that was rolled back
is raised to the checkpoint before it is used.
-/

namespace AlphaPing.Agent.Host

open Protocol Library.Programs Library.Runs
open Library.Tables

/-- The errors by which the spool says that an upload does not match its tables. -/
def stateMismatches : List String :=
  ["Agent delivery is no longer pending", "durable ACK did not match a local delivery",
    "FOREIGN KEY constraint failed"]

/-- A result whose error, if it is one, is not a mismatch. -/
def Harmless {Value : Type} (result : Except String Value) : Prop :=
  ∀ message, result = .error message → message ∉ stateMismatches

section Harmless

variable {Value : Type}

theorem harmless_ok (value : Value) : Harmless (.ok value : Except String Value) :=
  fun _ h ↦ by cases h

theorem harmless_error {message : String} (h : message ∉ stateMismatches) :
    Harmless (.error message : Except String Value) := by
  rintro _ ⟨⟩
  exact h

theorem harmless_forM {Item : Type} {check : Item → Except String Unit} {items : List Item}
    (h : ∀ item, Harmless (check item)) : Harmless (items.forM check) := by
  induction items with
  | nil => exact harmless_ok ()
  | cons item rest ih =>
    have hcons : (item :: rest).forM check = (check item >>= fun _ ↦ rest.forM check) := rfl
    rw [hcons]
    cases hitem : check item with
    | error message => exact harmless_error (h item message hitem)
    | ok value => exact ih

theorem harmless_validate (config : AgentConfig) : Harmless config.validate := by
  unfold AgentConfig.validate
  split_ifs <;> first | exact harmless_ok () | exact harmless_error (by simp [stateMismatches])

theorem harmless_validateConfig (codec : Codec) (config : AgentConfigSnapshot) :
    Harmless (Probes.Config.validateConfig codec config) := by
  have htasks : Harmless
      (config.probeTasks.forM (Probes.Config.validateTask codec config.revision)) := by
    refine harmless_forM fun task ↦ ?_
    unfold Probes.Config.validateTask
    split_ifs <;> first | exact harmless_ok () | exact harmless_error (by simp [stateMismatches])
  unfold Probes.Config.validateConfig
  split_ifs <;> first
    | exact htasks
    | exact harmless_ok ()
    | exact harmless_error (by simp [stateMismatches])

theorem harmless_validateNewConfig (codec : Codec) (config : AgentConfigSnapshot)
    (expectedRevision : ℕ) : Harmless (validateNewConfig codec config expectedRevision) := by
  unfold validateNewConfig
  split
  · exact harmless_error (by simp [stateMismatches])
  · exact harmless_validateConfig codec config

theorem harmless_rotatedAgentConfig (config : AgentConfig) (proposal : KeyRotationProposal)
    (nowMs : ℤ) : Harmless (rotatedAgentConfig config proposal nowMs) := by
  have hvalidate : Harmless (validateKeyRotation proposal config.keyEpoch nowMs) := by
    unfold validateKeyRotation
    dsimp only
    split_ifs <;> first | exact harmless_ok () | exact harmless_error (by simp [stateMismatches])
  unfold rotatedAgentConfig
  split
  · next message heq => exact harmless_error (hvalidate message heq)
  · exact harmless_ok _

variable (spool : Spool)

theorem harmless_acceptCommands (codec : Codec) (commands : List AgentCommand) (nowMs : ℤ) :
    Harmless (spool.acceptCommands codec commands nowMs).1 := by
  have hvalidate : ∀ command, Harmless (Spool.validateCommand codec command nowMs) := by
    intro command
    unfold Spool.validateCommand
    split_ifs <;> first | exact harmless_ok () | exact harmless_error (by simp [stateMismatches])
  unfold Spool.acceptCommands
  split
  · exact harmless_error (by simp [stateMismatches])
  · split
    · next message heq => exact harmless_error (harmless_forM hvalidate message heq)
    · exact harmless_ok ()

theorem harmless_applyProbeConfig (config : AgentConfigSnapshot) (nowMs : ℤ) :
    Harmless (spool.applyProbeConfig config nowMs).1 := by
  unfold Spool.applyProbeConfig
  split_ifs
  · exact harmless_error (by simp [stateMismatches])
  · exact harmless_ok _
  · exact harmless_ok _

theorem harmless_createNextDelivery (codec : Codec) (machinePk workspacePk : ℕ) (reportId : Bytes)
    (nowMs : ℤ) :
    Harmless (spool.createNextDelivery codec machinePk workspacePk reportId nowMs).1 := by
  unfold Spool.createNextDelivery
  split
  · exact harmless_ok _
  · dsimp only
    split
    · exact harmless_ok _
    · split
      · exact harmless_error (by simp [stateMismatches])
      · split
        · exact harmless_error (by simp [stateMismatches])
        · exact harmless_ok _

theorem harmless_completeCommand (result : AgentCommandResult) :
    Harmless (spool.completeCommand result).1 := by
  unfold Spool.completeCommand
  dsimp only
  split
  · exact harmless_error (by simp [stateMismatches])
  · exact harmless_ok ()

theorem harmless_markCommandAttempt (commandId : String) (retryAtMs : ℤ) :
    Harmless (spool.markCommandAttempt commandId retryAtMs).1 := by
  unfold Spool.markCommandAttempt
  split
  · exact harmless_error (by simp [stateMismatches])
  · exact harmless_ok _

theorem harmless_wakeBacklog (retryAt : ℤ) (limit : ℕ) :
    Harmless (spool.wakeBacklog retryAt limit).1 := by
  unfold Spool.wakeBacklog
  split
  · exact harmless_error (by simp [stateMismatches])
  · exact harmless_ok ()

theorem ioError_not_mismatch : ioError ∉ stateMismatches := by
  simp [ioError, stateMismatches]

end Harmless

/-! ## The invariant -/

/-- A database state that the agent may have open next. -/
def Fits (host : Host) (spool : Spool) : Prop :=
  spool.Wellformed ∧ spool.transportSequence ≤ host.file.transportSequenceCheckpoint

/-- What a crash leaves: every database state is one that the reservation in the file covers. -/
structure Sound (host : Host) : Prop where
  spool : host.Fits host.spool
  snapshots : ∀ spool ∈ host.snapshots, host.Fits spool
  restored : ∀ spool ∈ host.restored, host.Fits spool
  sealed_le : ∀ nonce ∈ host.sealed, nonce.2 ≤ host.file.transportSequenceCheckpoint
  sealed_nodup : (host.sealed.map Prod.snd).Nodup
  log : ∀ message ∈ host.log, message ∉ stateMismatches

/-- What holds of a running process. The deliveries in `held` are the ones it relies on, and
`reserved` is the checkpoint that memory and the file agree on. -/
structure Live (upload : Option Upload) (held : List Bytes) (reserved : ℕ) (host : Host) :
    Prop where
  sound : Sound host
  sealed_le : ∀ nonce ∈ host.sealed, nonce.2 ≤ host.spool.transportSequence
  config : host.config.transportSequenceCheckpoint = reserved
  file : host.file.transportSequenceCheckpoint = reserved
  bounded : reserved ≤ maxSequence
  upload : host.upload = upload
  held : ∀ reportId ∈ held, host.spool.Pending reportId

def inFlight (upload : Option Upload) : List Bytes :=
  upload.toList.map fun upload ↦ upload.delivery.reportId

def Invariant (host : Host) : Prop :=
  Sound host ∧ (host.running = true → Live host.upload (inFlight host.upload)
    host.file.transportSequenceCheckpoint host)

variable {host : Host} {upload : Option Upload} {reserved : ℕ}

theorem Live.invariant (h : Live upload (inFlight upload) reserved host) : Invariant host :=
  ⟨h.sound, fun _ ↦ by rw [h.upload, h.file]; exact h⟩

theorem Live.of_eq {held : List Bytes} {host next : Host} (h : Live upload held reserved host)
    (hfile : next.file = host.file) (hspool : next.spool = host.spool)
    (hconfig : next.config.transportSequenceCheckpoint = host.config.transportSequenceCheckpoint)
    (hupload : next.upload = host.upload) (hrestored : next.restored = host.restored)
    (hsnapshots : next.snapshots = host.snapshots) (hsealed : next.sealed = host.sealed)
    (hlog : ∀ message ∈ next.log, message ∉ stateMismatches) : Live upload held reserved next where
  sound :=
    { spool := by rw [Fits, hfile, hspool]; exact h.sound.spool
      snapshots := by simpa only [Fits, hfile, hsnapshots] using h.sound.snapshots
      restored := by simpa only [Fits, hfile, hrestored] using h.sound.restored
      sealed_le := by simpa only [hfile, hsealed] using h.sound.sealed_le
      sealed_nodup := by rw [hsealed]; exact h.sound.sealed_nodup
      log := hlog }
  sealed_le := by simpa only [hsealed, hspool] using h.sealed_le
  config := hconfig.trans h.config
  file := by rw [hfile, h.file]
  bounded := h.bounded
  upload := hupload.trans h.upload
  held := by simpa only [hspool] using h.held

theorem Live.rely {held held' : List Bytes} (h : Live upload held reserved host)
    (hheld : ∀ reportId ∈ held', host.spool.Pending reportId) :
    Live upload held' reserved host where
  sound := h.sound
  sealed_le := h.sealed_le
  config := h.config
  file := h.file
  bounded := h.bounded
  upload := h.upload
  held := hheld

variable {states : List Spool} {spool : Spool}

theorem Sound.pass (h : Sound host) (hstates : ∀ spool ∈ states, host.Fits spool) :
    Sound (host.pass states) where
  spool := by
    rcases List.eq_nil_or_concat states with rfl | ⟨before, last, rfl⟩
    · exact h.spool
    · have hlast : (host.pass (before.concat last)).spool = last := by simp [Host.pass]
      rw [hlast]
      exact hstates last (by simp)
  snapshots spool hspool := by
    rcases List.mem_append.mp hspool with hnew | hold
    · exact hstates spool hnew
    · exact h.snapshots spool hold
  restored := h.restored
  sealed_le := h.sealed_le
  sealed_nodup := h.sealed_nodup
  log := h.log

theorem Sound.fits_of_keeps (h : Sound host) (hkeeps : Spool.Keeps host.spool spool) :
    host.Fits spool :=
  ⟨hkeeps.wellformed h.spool.1, hkeeps.sequence ▸ h.spool.2⟩

theorem keeps_getLastD (h : ∀ state ∈ states, Spool.Keeps spool state) :
    Spool.Keeps spool (states.getLastD spool) := by
  rcases List.eq_nil_or_concat states with rfl | ⟨before, last, rfl⟩
  · exact .refl spool
  · rw [List.concat_eq_append, List.getLastD_concat]
    exact h last (by simp)

theorem Live.pass {held : List Bytes} (h : Live upload held reserved host)
    (hstates : ∀ spool ∈ states, Spool.Keeps host.spool spool) :
    Live upload held reserved (host.pass states) where
  sound := h.sound.pass fun spool hspool ↦ h.sound.fits_of_keeps (hstates spool hspool)
  sealed_le nonce hnonce := by
    have hsequence := (keeps_getLastD hstates).sequence
    change nonce.2 ≤ (states.getLastD host.spool).transportSequence
    rw [hsequence]
    exact h.sealed_le nonce hnonce
  config := h.config
  file := h.file
  bounded := h.bounded
  upload := h.upload
  held reportId hid := (keeps_getLastD hstates).pending reportId (h.held reportId hid)

/-! ## Programs that keep the invariant -/

/-- From every state of a running process the program ends in such a state, or is cut off in a
sound one, and it raises no mismatch. -/
def Tame {Value : Type} (upload : Option Upload) (held : List Bytes) (reserved : ℕ)
    (program : Program Host Value) : Prop :=
  ∀ host, Live upload held reserved host → Ensures program host (fun _ ↦ Live upload held reserved)
    (fun message next ↦ message ∉ stateMismatches ∧ Live upload held reserved next) Sound

section Tame

variable {Value Other : Type} {upload : Option Upload} {held : List Bytes} {reserved : ℕ}

theorem tame_pure (value : Value) : Tame upload held reserved (pure value) :=
  fun _ h ↦ ensures_pure h

theorem tame_bind {program : Program Host Value} {next : Value → Program Host Other}
    (h : Tame upload held reserved program) (hnext : ∀ value, Tame upload held reserved (next value)) :
    Tame upload held reserved (program >>= next) :=
  fun host hhost ↦ ensures_bind (ensures_returned (h host hhost) fun value after ↦
    hnext value after)

theorem tame_read : Tame upload held reserved Program.read :=
  fun _ h ↦ ensures_read h

theorem tame_raise {message : String} (h : message ∉ stateMismatches) :
    Tame upload held reserved (Program.raise message : Program Host Value) :=
  fun _ hhost ↦ ensures_raise ⟨h, hhost⟩

theorem tame_modify {change : Host → Host}
    (h : ∀ host, Live upload held reserved host → Live upload held reserved (change host)) :
    Tame upload held reserved (Program.modify change) :=
  fun host hhost ↦ ensures_modify (h host hhost)

theorem tame_ofExcept {result : Except String Value} (h : Harmless result) :
    Tame upload held reserved (Program.ofExcept result : Program Host Value) :=
  fun _ hhost ↦ ensures_ofExcept (fun _ _ ↦ hhost) fun message heq ↦ ⟨h message heq, hhost⟩

theorem tame_ite {condition : Prop} [Decidable condition] {first second : Program Host Value}
    (hfirst : Tame upload held reserved first) (hsecond : Tame upload held reserved second) :
    Tame upload held reserved (if condition then first else second) := by
  split
  · exact hfirst
  · exact hsecond

theorem tame_query (question : Spool → Value) : Tame upload held reserved (query question) :=
  fun _ h ↦ ensures_operation h (fun _ ↦ ⟨ioError_not_mismatch, h⟩) fun _ ↦ h.sound

theorem tame_mayFail : Tame upload held reserved mayFail :=
  fun _ h ↦ ensures_operation h (fun _ ↦ ⟨ioError_not_mismatch, h⟩) fun _ ↦ h.sound

theorem tame_onSpool {operation : Spool → Outcome Value} {between : Spool → List Spool}
    (hkeeps : ∀ spool : Spool, spool.Wellformed → Spool.Keeps spool (operation spool).2)
    (hharmless : ∀ spool, Harmless (operation spool).1)
    (hbetween : ∀ spool : Spool, spool.Wellformed →
      ∀ state ∈ between spool, Spool.Keeps spool state) :
    Tame upload held reserved (onSpool operation between) := by
  intro host h
  have hwellformed := h.sound.spool.1
  have htake : ∀ count, Live upload held reserved (host.pass ((between host.spool).take count)) :=
    fun count ↦ h.pass fun state hstate ↦
      hbetween host.spool hwellformed state (List.mem_of_mem_take hstate)
  have hfull : Live upload held reserved
      (host.pass (between host.spool ++ [(operation host.spool).2])) := by
    refine h.pass fun state hstate ↦ ?_
    rcases List.mem_append.mp hstate with hmid | hlast
    · exact hbetween host.spool hwellformed state hmid
    · rw [List.mem_singleton.mp hlast]
      exact hkeeps host.spool hwellformed
  refine ensures_operation ?_ (fun count ↦ ⟨ioError_not_mismatch, htake count⟩)
    fun count ↦ (htake count).sound
  dsimp only
  cases hresult : (operation host.spool).1 with
  | ok value => exact hfull
  | error message => exact ⟨hharmless host.spool message hresult, hfull⟩

theorem tame_transaction {change : Spool → Spool}
    (hkeeps : ∀ spool : Spool, spool.Wellformed → Spool.Keeps spool (change spool)) :
    Tame upload held reserved (onSpool fun spool ↦ (.ok (), change spool)) :=
  tame_onSpool hkeeps (fun _ ↦ harmless_ok ()) fun _ _ _ h ↦ absurd h List.not_mem_nil

theorem tame_logError {message : String} (h : message ∉ stateMismatches) :
    Tame upload held reserved (logError message) := by
  refine tame_modify fun host hhost ↦ hhost.of_eq rfl rfl rfl rfl rfl rfl rfl ?_
  intro other hother
  rcases List.mem_append.mp hother with hold | hnew
  · exact hhost.sound.log other hold
  · rwa [List.mem_singleton.mp hnew]

theorem tame_attempt {program : Program Host Value} {next : Except String Value →
    Program Host Other} (h : Tame upload held reserved program)
    (hok : ∀ value, Tame upload held reserved (next (.ok value)))
    (herror : ∀ message ∉ stateMismatches, Tame upload held reserved (next (.error message))) :
    Tame upload held reserved (program.attempt >>= next) := by
  intro host hhost
  refine ensures_bind (ensures_attempt ?_)
  refine ensures_mono (h host hhost) ?_ ?_ fun _ ↦ id
  · intro value after hafter
    exact hok value after hafter
  · rintro message after ⟨hmessage, hafter⟩
    exact herror message hmessage after hafter

theorem tame_logged {program : Program Host Unit} (h : Tame upload held reserved program) :
    Tame upload held reserved (logged program) :=
  tame_attempt h (fun _ ↦ tame_pure ()) fun _ ↦ tame_logError

end Tame

/-! ## The branches of the loop -/

section Branches

variable {upload : Option Upload} {held : List Bytes} {reserved : ℕ} {codec : Codec} {nowMs : ℤ}

theorem tame_sampleTick (sample : MetricSample) (readings : StorageReadings) :
    Tame upload held reserved (sampleTick sample nowMs readings) := by
  refine tame_bind (tame_logged (tame_transaction fun spool _ ↦
    Spool.keeps_appendSample spool sample nowMs)) fun _ ↦ tame_bind tame_read fun host ↦ ?_
  refine tame_logged (tame_onSpool (fun spool hspool ↦ ?_) (fun _ ↦ harmless_ok ()) ?_)
  · exact Spool.keeps_enforceCapacity hspool host.config.maxSpoolBytes readings nowMs
  · intro spool hspool
    exact Spool.keeps_statesAfter hspool host.config.maxSpoolBytes readings nowMs

theorem tame_createDeliveries (machinePk workspacePk : ℕ) (reportIds : List Bytes) :
    Tame upload held reserved
      (createDeliveries codec machinePk workspacePk nowMs reportIds) := by
  induction reportIds with
  | nil => exact tame_pure ()
  | cons reportId rest ih =>
    refine tame_attempt (tame_onSpool (fun spool _ ↦ ?_) (fun spool ↦ ?_) ?_) ?_ ?_
    · exact Spool.keeps_createNextDelivery spool codec machinePk workspacePk reportId nowMs
    · exact harmless_createNextDelivery spool codec machinePk workspacePk reportId nowMs
    · intro spool _ state hstate
      obtain ⟨count, -, rfl⟩ := List.mem_map.mp hstate
      exact Spool.keeps_nextMinute (floorMinute nowMs) count spool
    · intro created
      cases created with
      | none => exact tame_pure ()
      | some reportId => exact ih
    · intro message hmessage
      exact tame_logError hmessage

theorem tame_collectInventory (inventory : Option ContainerInventory) :
    Tame upload held reserved (collectInventory inventory nowMs) := by
  refine tame_bind tame_read fun host ↦ ?_
  cases inventory with
  | none => exact tame_pure ()
  | some inventory =>
    exact tame_ite (tame_logged (tame_transaction fun spool _ ↦
      Spool.keeps_appendContainerInventory spool inventory nowMs)) (tame_pure ())

theorem tame_reportTick (inventory : Option ContainerInventory) (reportIds : List Bytes) :
    Tame upload held reserved (reportTick codec inventory nowMs reportIds) := by
  refine tame_bind (tame_collectInventory inventory) fun _ ↦ tame_bind tame_read fun host ↦ ?_
  exact tame_bind (tame_logged (tame_transaction fun spool _ ↦
    Spool.keeps_redriveQuarantined spool nowMs)) fun _ ↦ tame_createDeliveries _ _ _

theorem tame_complete (result : AgentCommandResult) : Tame upload held reserved (complete result) :=
  tame_onSpool (fun spool _ ↦ Spool.keeps_completeCommand spool result)
    (fun spool ↦ harmless_completeCommand spool result) fun _ _ _ h ↦ absurd h List.not_mem_nil

theorem tame_startDueCommand (refreshed : Bool) (retryDelayMs : ℕ) :
    Tame upload held reserved (startDueCommand nowMs refreshed retryDelayMs) := by
  have hcomplete : ∀ (result : AgentCommandResult), Tame upload held reserved
      (complete result >>= fun _ ↦ (pure false : Program Host Bool)) :=
    fun result ↦ tame_bind (tame_complete result) fun _ ↦ tame_pure false
  refine tame_bind (tame_query _) fun due ↦ ?_
  cases due with
  | none => exact tame_pure false
  | some pending =>
    refine tame_ite (hcomplete _) (tame_ite (hcomplete _) ?_)
    refine tame_bind (tame_onSpool (fun spool _ ↦ ?_) (fun spool ↦ ?_)
      fun _ _ _ h ↦ absurd h List.not_mem_nil) fun _ ↦ ?_
    · exact Spool.keeps_markCommandAttempt spool _ _
    · exact harmless_markCommandAttempt spool _ _
    · cases pending.command.type.getD .unspecified with
      | refreshConfig => exact hcomplete _
      | redetectRuntimes => exact tame_bind tame_read fun _ ↦ hcomplete _
      | checkUpdate => exact tame_pure true
      | installVersion => exact tame_pure true
      | unspecified => exact hcomplete _

theorem tame_commandTick (refreshed : Bool) (retryDelayMs : ℕ) :
    Tame upload held reserved (commandTick nowMs refreshed retryDelayMs) := by
  refine tame_bind tame_read fun host ↦ tame_ite (tame_pure ()) ?_
  refine tame_bind (tame_startDueCommand refreshed retryDelayMs) fun started ↦ ?_
  exact tame_modify fun host h ↦ h.of_eq rfl rfl rfl rfl rfl rfl rfl h.sound.log

theorem tame_commandDone (execution : CommandExecution) :
    Tame upload held reserved (commandDone execution nowMs) := by
  refine tame_bind (tame_modify fun host h ↦ ?_) fun _ ↦ ?_
  · exact h.of_eq rfl rfl rfl rfl rfl rfl rfl h.sound.log
  · refine tame_ite (tame_pure ()) (tame_bind (tame_complete _) fun _ ↦ ?_)
    exact tame_ite
      (tame_modify fun host h ↦ h.of_eq rfl rfl rfl rfl rfl rfl rfl h.sound.log) (tame_pure ())

theorem tame_probeResult (result : ProbeResult) :
    Tame upload held reserved
      (logged (onSpool fun spool ↦ (.ok (), (spool.appendProbeResult result nowMs).2))) :=
  tame_logged (tame_transaction fun spool _ ↦ Spool.keeps_appendProbeResult spool result nowMs)

end Branches

/-! ## Writing the configuration file -/

theorem Sound.reserve {host next : Host} (h : Sound host)
    (hle : host.file.transportSequenceCheckpoint ≤ next.file.transportSequenceCheckpoint)
    (hspool : next.spool = host.spool) (hrestored : next.restored = host.restored)
    (hsnapshots : next.snapshots = host.snapshots) (hsealed : next.sealed = host.sealed)
    (hlog : next.log = host.log) : Sound next := by
  have hfits : ∀ spool, host.Fits spool → next.Fits spool :=
    fun _ hspool ↦ ⟨hspool.1, hspool.2.trans hle⟩
  refine ⟨?_, ?_, ?_, ?_, ?_, ?_⟩
  · rw [hspool]
    exact hfits _ h.spool
  · rw [hsnapshots]
    exact fun spool hmem ↦ hfits spool (h.snapshots spool hmem)
  · rw [hrestored]
    exact fun spool hmem ↦ hfits spool (h.restored spool hmem)
  · rw [hsealed]
    exact fun nonce hmem ↦ (h.sealed_le nonce hmem).trans hle
  · rw [hsealed]
    exact h.sealed_nodup
  · rw [hlog]
    exact h.log

theorem ensures_save {config : AgentConfig} {returned : Unit → Host → Prop}
    {raised : String → Host → Prop} {interrupted : Host → Prop}
    (hreturned : config.validate = .ok () → returned () { host with file := config })
    (hraised : ∀ message ∉ stateMismatches, raised message host) (hgone : interrupted host) :
    Ensures (save config) host returned raised interrupted := by
  refine ensures_operation ?_ (fun _ ↦ hraised _ ioError_not_mismatch) fun _ ↦ hgone
  dsimp only
  cases hvalid : config.validate with
  | ok value =>
    rw [if_pos rfl]
    exact hreturned hvalid
  | error message =>
    rw [if_neg (by simp)]
    exact hraised message (harmless_validate config message hvalid)

section Uploads

variable {upload : Option Upload} {held : List Bytes} {reserved : ℕ} {codec : Codec} {nowMs : ℤ}

theorem tame_save {config : AgentConfig} (hconfig : config.transportSequenceCheckpoint = reserved) :
    Tame upload held reserved (save config) := by
  intro host h
  refine ensures_save (fun _ ↦ ?_) (fun message hmessage ↦ ⟨hmessage, h⟩) h.sound
  exact
    { sound := h.sound.reserve (by rw [h.file, hconfig]) rfl rfl rfl rfl rfl
      sealed_le := h.sealed_le
      config := h.config
      file := hconfig
      bounded := h.bounded
      upload := h.upload
      held := h.held }

theorem reservation_le (current : ℕ) : reservation current ≤ maxSequence := by
  unfold reservation
  exact min_le_right _ _

theorem lt_reservation {current : ℕ} (hlimit : current ≤ maxSequence)
    (hmore : reservation current ≠ current) : current < reservation current := by
  refine lt_of_le_of_ne ?_ hmore.symm
  unfold reservation
  exact le_min (Nat.le_add_right _ _) hlimit

variable {host : Host}

theorem ensures_reserve (h : Live upload held reserved host)
    (hreached : reserved ≤ host.spool.transportSequence) :
    Ensures (reserve host.spool.transportSequence) host
      (fun _ next ↦ ∃ checkpoint, Live upload held checkpoint next ∧
        next.spool.transportSequence < checkpoint)
      (fun message next ↦ message ∉ stateMismatches ∧ Sound next) Sound := by
  have hspool := h.sound.spool.2
  rw [h.file] at hspool
  unfold reserve
  split
  · exact ensures_raise ⟨by simp [stateMismatches], h.sound⟩
  · next hmore =>
    have hroom := lt_reservation (hspool.trans h.bounded) hmore
    refine ensures_bind (ensures_read (ensures_bind (ensures_save
      (fun _ ↦ ensures_modify ⟨_, ?_, hroom⟩)
      (fun message hmessage ↦ ⟨hmessage, h.sound⟩) h.sound)))
    exact
      { sound := h.sound.reserve (by rw [h.file]; exact hreached.trans hroom.le) rfl rfl rfl rfl rfl
        sealed_le := h.sealed_le
        config := rfl
        file := rfl
        bounded := reservation_le _
        upload := h.upload
        held := h.held }

theorem ensures_ensureSequenceReservation (h : Live upload held reserved host) :
    Ensures ensureSequenceReservation host
      (fun _ next ↦ ∃ checkpoint, Live upload held checkpoint next ∧
        next.spool.transportSequence < checkpoint)
      (fun message next ↦ message ∉ stateMismatches ∧ Sound next) Sound := by
  refine ensures_bind (ensures_operation ?_ (fun _ ↦ ⟨ioError_not_mismatch, h.sound⟩)
    fun _ ↦ h.sound)
  refine ensures_bind (ensures_read (ensures_ite (fun hreached ↦ ?_) fun hfree ↦ ?_))
  · rw [h.config] at hreached
    exact ensures_reserve h hreached
  · refine ensures_pure ⟨reserved, h, ?_⟩
    rw [h.config] at hfree
    exact Nat.lt_of_not_le hfree

theorem Live.seal (h : Live none [] reserved host) (hroom : host.spool.transportSequence < reserved)
    {spool : Spool} {delivery : PendingDelivery} (hwellformed : spool.Wellformed)
    (hpending : spool.Pending delivery.reportId)
    (hsequence : spool.transportSequence = host.spool.transportSequence + 1) (retryDelayMs : ℕ) :
    let upload : Upload :=
      { delivery, keyEpoch := host.uploaderKeyEpoch,
        sequence := host.spool.transportSequence + 1, retryDelayMs }
    Live (some upload) (inFlight (some upload)) reserved
      { host.pass ([] ++ [spool]) with
        upload := some upload
        sealed := host.sealed ++ [(host.uploaderKeyEpoch, host.spool.transportSequence + 1)] } := by
  intro upload
  have hfits : host.Fits spool := ⟨hwellformed, by rw [hsequence, h.file]; exact hroom⟩
  have hsound : Sound (host.pass ([] ++ [spool])) := h.sound.pass fun state hstate ↦ by
    rw [List.mem_singleton.mp hstate]
    exact hfits
  refine
    { sound :=
        { spool := hsound.spool
          snapshots := hsound.snapshots
          restored := hsound.restored
          sealed_le := fun nonce hnonce ↦ ?_
          sealed_nodup := ?_
          log := hsound.log }
      sealed_le := fun nonce hnonce ↦ ?_
      config := h.config
      file := h.file
      bounded := h.bounded
      upload := rfl
      held := fun reportId hid ↦ ?_ }
  · rcases List.mem_append.mp hnonce with hold | hnew
    · exact hsound.sealed_le nonce hold
    · rw [List.mem_singleton.mp hnew]
      exact h.file.symm ▸ hroom
  · rw [List.map_append]
    refine List.Nodup.append h.sound.sealed_nodup (List.nodup_singleton _) ?_
    refine List.disjoint_singleton.mpr fun hmem ↦ ?_
    obtain ⟨nonce, hnonce, heq⟩ := List.mem_map.mp hmem
    have hle := h.sealed_le nonce hnonce
    dsimp only at heq
    omega
  · change nonce.2 ≤ spool.transportSequence
    rcases List.mem_append.mp hnonce with hold | hnew
    · exact (h.sealed_le nonce hold).trans (by rw [hsequence]; exact Nat.le_succ _)
    · rw [List.mem_singleton.mp hnew, hsequence]
  · obtain rfl := List.mem_singleton.mp hid
    exact hpending

theorem ensures_startDueUpload (retryDelayMs : ℕ)
    (h : Live host.upload (inFlight host.upload) reserved host) :
    Ensures (startDueUpload nowMs retryDelayMs) host
      (fun _ next ↦ ∃ upload checkpoint, Live upload (inFlight upload) checkpoint next)
      (fun message next ↦ message ∉ stateMismatches ∧ Sound next) Sound := by
  refine ensures_bind (ensures_read (ensures_ite (fun _ ↦ ensures_pure ⟨_, _, h⟩) fun hidle ↦ ?_))
  have hnone : host.upload = none := by simpa using hidle
  rw [hnone] at h
  refine ensures_bind (ensures_operation ?_ (fun _ ↦ ⟨ioError_not_mismatch, h.sound⟩)
    fun _ ↦ h.sound)
  dsimp only [Ending.Satisfies]
  cases hdue : host.spool.dueDelivery nowMs with
  | none => exact ensures_pure ⟨_, _, h⟩
  | some delivery =>
    have hheld : Live none [delivery.reportId] reserved host :=
      h.rely fun reportId hid ↦ by
        rw [List.mem_singleton.mp hid]
        exact Spool.pending_of_dueDelivery hdue
    refine ensures_bind (ensures_returned (ensures_ensureSequenceReservation hheld) ?_)
    rintro _ middle ⟨checkpoint, hlive, hroom⟩
    have hpending := hlive.held delivery.reportId List.mem_cons_self
    have hidle : Live none [] checkpoint middle :=
      hlive.rely fun _ hid ↦ absurd hid List.not_mem_nil
    refine ensures_bind (ensures_operation ?_ (fun _ ↦ ⟨ioError_not_mismatch, ?_⟩) fun _ ↦ ?_)
    · dsimp only
      rcases Spool.beginDeliveryAttempt_cases hlive.sound.spool.1 hpending (nowMs + retryDelayMs)
        with hfull | ⟨hok, hsequence, hwellformed, hkept⟩
      · rw [hfull]
        refine ⟨by simp [stateMismatches], hlive.sound.pass fun state hstate ↦ ?_⟩
        rw [List.mem_singleton.mp hstate]
        exact hlive.sound.spool
      · rw [hok]
        exact ensures_modify ⟨_, _, hidle.seal hroom hwellformed hkept hsequence retryDelayMs⟩
    · exact hlive.sound.pass fun _ hstate ↦ absurd (List.mem_of_mem_take hstate) List.not_mem_nil
    · exact hlive.sound.pass fun _ hstate ↦ absurd (List.mem_of_mem_take hstate) List.not_mem_nil

variable (acknowledgement : DurableAck)

theorem tame_applyConfig : Tame upload held reserved (applyConfig codec acknowledgement nowMs) := by
  refine tame_bind (tame_query _) fun currentRevision ↦ tame_ite ?_ (tame_pure false)
  cases acknowledgement.config with
  | none => exact tame_raise (by simp [stateMismatches])
  | some next =>
    refine tame_bind (tame_ofExcept (harmless_validateNewConfig codec next _)) fun _ ↦ ?_
    intro host h
    refine ensures_bind (ensures_read ?_)
    have hcheckpoint : (withSettings host.config next).transportSequenceCheckpoint = reserved :=
      h.config
    refine tame_bind (tame_save hcheckpoint) (fun _ ↦ ?_) host h
    refine tame_bind (tame_modify fun before hbefore ↦ ?_) fun _ ↦ ?_
    · exact hbefore.of_eq rfl rfl rfl rfl rfl rfl rfl hbefore.sound.log
    refine tame_bind (tame_onSpool (fun spool _ ↦ Spool.keeps_applyProbeConfig spool next nowMs)
      (fun spool ↦ harmless_applyProbeConfig spool next nowMs)
      fun _ _ _ hmem ↦ absurd hmem List.not_mem_nil) fun _ ↦ ?_
    refine tame_bind (tame_modify fun before hbefore ↦ ?_) fun _ ↦ tame_pure _
    exact hbefore.of_eq rfl rfl (hcheckpoint.trans hbefore.config.symm) rfl rfl rfl rfl
      hbefore.sound.log

theorem tame_applyKeyRotation :
    Tame upload held reserved (applyKeyRotation acknowledgement nowMs) := by
  unfold applyKeyRotation
  cases acknowledgement.keyRotation with
  | none => exact tame_pure ()
  | some proposal =>
    intro host h
    refine ensures_bind (ensures_read (ensures_bind (ensures_ofExcept (fun updated hupdated ↦ ?_)
      fun message hmessage ↦ ⟨harmless_rotatedAgentConfig _ _ _ message hmessage, h⟩)))
    have hcheckpoint : updated.transportSequenceCheckpoint = reserved :=
      (checkpoint_rotatedAgentConfig hupdated).trans h.config
    refine tame_bind (tame_save hcheckpoint) (fun _ ↦ tame_bind tame_mayFail fun _ ↦ ?_) host h
    refine tame_modify fun before hbefore ↦ ?_
    exact hbefore.of_eq rfl rfl (hcheckpoint.trans hbefore.config.symm) rfl rfl rfl rfl
      hbefore.sound.log

theorem ensures_acknowledge {reportId : Bytes} (h : Live upload [reportId] reserved host) :
    Ensures (onSpool fun spool ↦ spool.acknowledge reportId) host
      (fun acknowledged next ↦ acknowledged = true ∧ Live upload [] reserved next)
      (fun message next ↦ message ∉ stateMismatches ∧ Live upload [reportId] reserved next)
      Sound := by
  obtain ⟨row, hrow, rfl, -⟩ := h.held _ List.mem_cons_self
  have hok := Spool.acknowledge_ok h.sound.spool.1 hrow
  have hwellformed := Spool.wellformed_acknowledged h.sound.spool.1 row.reportId
  refine ensures_operation ?_ (fun _ ↦ ⟨ioError_not_mismatch, ?_⟩) fun _ ↦ ?_
  · dsimp only
    rw [hok]
    refine ⟨rfl, ?_⟩
    refine
      { sound := h.sound.pass fun state hstate ↦ ?_
        sealed_le := h.sealed_le
        config := h.config
        file := h.file
        bounded := h.bounded
        upload := h.upload
        held := fun _ hid ↦ absurd hid List.not_mem_nil }
    rw [List.mem_singleton.mp hstate]
    exact ⟨hwellformed, h.sound.spool.2⟩
  · exact h.pass fun _ hstate ↦ absurd (List.mem_of_mem_take hstate) List.not_mem_nil
  · exact h.sound.pass fun _ hstate ↦ absurd (List.mem_of_mem_take hstate) List.not_mem_nil

theorem ensures_applyAck {reportId : Bytes} (h : Live upload [reportId] reserved host) :
    Ensures (applyAck codec reportId acknowledgement nowMs) host
      (fun _ ↦ Live upload [] reserved)
      (fun message next ↦ message ∉ stateMismatches ∧ Live upload [reportId] reserved next)
      Sound := by
  refine ensures_bind (ensures_returned (tame_applyConfig acknowledgement host h) ?_)
  intro changed first hfirst
  refine ensures_bind (ensures_returned (tame_applyKeyRotation acknowledgement first hfirst) ?_)
  intro _ second hsecond
  refine ensures_bind (ensures_returned (tame_onSpool
    (fun spool _ ↦ Spool.keeps_acceptCommands spool codec acknowledgement.commands nowMs)
    (fun spool ↦ harmless_acceptCommands spool codec acknowledgement.commands nowMs)
    (fun _ _ _ hmem ↦ absurd hmem List.not_mem_nil) second hsecond) ?_)
  intro _ third hthird
  refine ensures_bind (ensures_returned (ensures_acknowledge hthird) ?_)
  rintro acknowledged last ⟨rfl, hlast⟩
  exact ensures_pure hlast

theorem ensures_changePending {reportId : Bytes} (h : Live upload [reportId] reserved host)
    {change : DeliveryRow → DeliveryRow} (hid : ∀ row, (change row).reportId = row.reportId)
    (hminute : ∀ row, (change row).nominalMinute = row.nominalMinute) :
    Ensures (onSpool fun spool ↦ spool.changePending reportId change) host
      (fun _ ↦ Live upload [] reserved)
      (fun message next ↦ message ∉ stateMismatches ∧ Sound next) Sound := by
  have hok := Spool.changePending_ok h.sound.spool.1 (h.held reportId List.mem_cons_self) change
  have hsequence := Spool.sequence_changePending host.spool reportId change
  have hwellformed := h.sound.spool.1.of_shape
    (Spool.shape_changePending host.spool reportId change hid hminute)
  refine ensures_operation ?_ (fun _ ↦ ⟨ioError_not_mismatch, ?_⟩) fun _ ↦ ?_
  · dsimp only
    rw [hok]
    refine
      { sound := h.sound.pass fun state hstate ↦ ?_
        sealed_le := fun nonce hnonce ↦ (h.sealed_le nonce hnonce).trans hsequence.ge
        config := h.config
        file := h.file
        bounded := h.bounded
        upload := h.upload
        held := fun _ hmem ↦ absurd hmem List.not_mem_nil }
    rw [List.mem_singleton.mp hstate]
    exact ⟨hwellformed, hsequence.le.trans h.sound.spool.2⟩
  · exact h.sound.pass fun _ hstate ↦ absurd (List.mem_of_mem_take hstate) List.not_mem_nil
  · exact h.sound.pass fun _ hstate ↦ absurd (List.mem_of_mem_take hstate) List.not_mem_nil

theorem ensures_finishUpload (finished : Upload) (result : UploadResult) (recoveryJitterMs : ℕ)
    (h : Live none [finished.delivery.reportId] reserved host) :
    Ensures (finishUpload codec finished result nowMs recoveryJitterMs) host
      (fun _ ↦ Live none [] reserved)
      (fun message next ↦ message ∉ stateMismatches ∧ Sound next) Sound := by
  cases result with
  | acknowledged acknowledgement =>
    refine ensures_bind (ensures_attempt (ensures_mono (ensures_applyAck acknowledgement h)
      ?_ ?_ fun _ ↦ id))
    · intro _ next hnext
      refine ensures_mono (tame_onSpool
        (fun spool _ ↦ Spool.keeps_wakeBacklog spool (nowMs + recoveryJitterMs) backlogWakeBatch)
        (fun spool ↦ harmless_wakeBacklog spool _ _)
        (fun _ _ _ hmem ↦ absurd hmem List.not_mem_nil) next hnext) (fun _ _ ↦ id) ?_ fun _ ↦ id
      rintro message last ⟨hmessage, hlast⟩
      exact ⟨hmessage, hlast.sound⟩
    · rintro message next ⟨hmessage, hnext⟩
      refine ensures_bind (ensures_returned
        (ensures_changePending hnext (fun _ ↦ rfl) fun _ ↦ rfl) ?_)
      intro _ last hlast
      refine ensures_mono (tame_logError hmessage last hlast) (fun _ _ ↦ id) ?_ fun _ ↦ id
      rintro other after ⟨hother, hafter⟩
      exact ⟨hother, hafter.sound⟩
  | permanentStatus status => exact ensures_changePending h (fun _ ↦ rfl) fun _ ↦ rfl
  | oversized => exact ensures_changePending h (fun _ ↦ rfl) fun _ ↦ rfl
  | failed message => exact ensures_changePending h (fun _ ↦ rfl) fun _ ↦ rfl

end Uploads

/-! ## The start of the process -/

theorem checkpoint_le_of_validate {config : AgentConfig} (h : config.validate = .ok ()) :
    config.transportSequenceCheckpoint ≤ maxSequence := by
  unfold AgentConfig.validate at h
  split_ifs at h with _ _ _ hlimit
  exact Nat.le_of_not_lt hlimit

theorem reconcileSequenceCheckpoint_eq {checkpoint : ℕ} (hlimit : checkpoint ≤ maxSequence)
    (hle : spool.transportSequence ≤ checkpoint) :
    spool.reconcileSequenceCheckpoint checkpoint =
      (.ok checkpoint, { spool with transportSequence := checkpoint }) := by
  unfold Spool.reconcileSequenceCheckpoint
  rw [if_neg (Nat.not_lt.mpr hlimit)]
  dsimp only
  rw [max_eq_right hle, if_neg (Nat.not_lt.mpr hlimit)]

theorem ensures_start {codec : Codec} (h : Sound host) :
    Ensures (start codec) host (fun _ next ↦ ∃ reserved, Live none [] reserved next)
      (fun message next ↦ message ∉ stateMismatches ∧ Sound next) Sound := by
  refine ensures_bind (ensures_read (ensures_bind (ensures_ofExcept (fun _ hvalid ↦ ?_)
    fun message hmessage ↦ ⟨harmless_validate _ message hmessage, h⟩)))
  have hlimit := checkpoint_le_of_validate hvalid
  have hopened : host.Fits (host.restored.getD host.spool) := by
    cases hrestored : host.restored with
    | none => exact h.spool
    | some spool => exact h.restored spool hrestored
  have hsound : Sound { host with spool := host.restored.getD host.spool, restored := none } :=
    { h with
      spool := hopened
      restored := fun _ hmem ↦ absurd hmem (Option.not_mem_none _) }
  refine ensures_bind (ensures_modify (ensures_bind (ensures_operation ?_
    (fun _ ↦ ⟨ioError_not_mismatch, ?_⟩) fun _ ↦ ?_)))
  · dsimp only
    rw [reconcileSequenceCheckpoint_eq hlimit hopened.2]
    have hraised : ∀ state ∈ [{ host.restored.getD host.spool with
        transportSequence := host.file.transportSequenceCheckpoint }],
        Fits { host with spool := host.restored.getD host.spool, restored := none } state := by
      intro state hstate
      rw [List.mem_singleton.mp hstate]
      exact ⟨hopened.1, le_refl _⟩
    have hpassed := hsound.pass hraised
    refine ensures_bind (ensures_operation ?_ (fun _ ↦ ⟨ioError_not_mismatch, hpassed⟩)
      fun _ ↦ hpassed)
    refine ensures_bind (ensures_ofExcept (fun _ _ ↦ ?_)
      fun message hmessage ↦ ⟨harmless_validateConfig _ _ message hmessage, hpassed⟩)
    refine ensures_bind (ensures_operation ?_ (fun _ ↦ ⟨ioError_not_mismatch, hpassed⟩)
      fun _ ↦ hpassed)
    refine ensures_modify ⟨host.file.transportSequenceCheckpoint, ?_⟩
    exact
      { sound := { hpassed with }
        sealed_le := h.sealed_le
        config := rfl
        file := rfl
        bounded := hlimit
        upload := rfl
        held := fun _ hid ↦ absurd hid List.not_mem_nil }
  · exact hsound.pass fun _ hstate ↦ absurd (List.mem_of_mem_take hstate) List.not_mem_nil
  · exact hsound.pass fun _ hstate ↦ absurd (List.mem_of_mem_take hstate) List.not_mem_nil

/-! ## Runs -/

theorem invariant_enrolled (config : AgentConfig) (initialClientSequence : ℕ) :
    Invariant (enrolled config initialClientSequence) := by
  have hfits : (enrolled config initialClientSequence).Fits
      { Spool.empty with transportSequence := initialClientSequence - 1 } :=
    ⟨Spool.wellformed_empty.of_shape rfl, le_refl _⟩
  refine ⟨⟨hfits, ?_, ?_, ?_, List.nodup_nil, ?_⟩, fun hrunning ↦ by cases hrunning⟩
  · intro spool hspool
    rw [List.mem_singleton.mp hspool]
    exact hfits
  · exact fun _ hmem ↦ absurd hmem (Option.not_mem_none _)
  · exact fun _ hmem ↦ absurd hmem List.not_mem_nil
  · exact fun _ hmem ↦ absurd hmem List.not_mem_nil

theorem Sound.invariant_stopped {host next : Host} (h : Sound host) (hfile : next.file = host.file)
    (hspool : next.spool = host.spool) (hstopped : next.running = false)
    (hrestored : next.restored = host.restored) (hsnapshots : next.snapshots = host.snapshots)
    (hsealed : next.sealed = host.sealed)
    (hlog : ∀ message ∈ next.log, message ∉ stateMismatches) : Invariant next := by
  have hfits : ∀ spool, next.Fits spool ↔ host.Fits spool := fun _ ↦ by simp only [Fits, hfile]
  refine ⟨⟨?_, ?_, ?_, ?_, ?_, hlog⟩, fun hrunning ↦ ?_⟩
  · rw [hspool, hfits]
    exact h.spool
  · simpa only [hsnapshots, hfits] using h.snapshots
  · simpa only [hrestored, hfits] using h.restored
  · simpa only [hsealed, hfile] using h.sealed_le
  · simpa only [hsealed] using h.sealed_nodup
  · exact absurd (hstopped.symm.trans hrunning) Bool.false_ne_true

theorem ensures_of_tame {program : Program Host Unit} (h : Invariant host)
    (hrunning : host.running = true)
    (htame : Tame host.upload (inFlight host.upload) host.file.transportSequenceCheckpoint program)
    : Ensures program host (fun _ ↦ Invariant)
      (fun message next ↦ message ∉ stateMismatches ∧ Sound next) Sound :=
  ensures_mono (htame host (h.2 hrunning)) (fun _ _ hnext ↦ hnext.invariant)
    (fun _ _ hnext ↦ ⟨hnext.1, hnext.2.sound⟩) fun _ ↦ id

theorem ensures_branch (codec : Codec) (h : Invariant host) (event : Event) :
    Ensures (branch codec host event) host (fun _ ↦ Invariant)
      (fun message next ↦ message ∉ stateMismatches ∧ Sound next) Sound := by
  cases event with
  | start =>
    refine ensures_ite (fun _ ↦ ensures_pure h) fun _ ↦ ?_
    refine ensures_returned (ensures_start h.1) ?_
    rintro _ next ⟨reserved, hnext⟩
    exact hnext.invariant
  | stop => exact ensures_modify (h.1.invariant_stopped rfl rfl rfl rfl rfl rfl h.1.log)
  | restore index =>
    refine ensures_modify ?_
    have hrestored : ∀ spool ∈ host.snapshots[index]?.orElse fun _ ↦ host.restored,
        host.Fits spool := by
      cases hsnapshot : host.snapshots[index]? with
      | none => exact h.1.restored
      | some spool =>
        rintro _ ⟨⟩
        exact h.1.snapshots spool (List.mem_of_getElem? hsnapshot)
    refine ⟨{ h.1 with restored := hrestored }, fun hrunning ↦ ?_⟩
    have hlive := h.2 hrunning
    exact { hlive with sound := { h.1 with restored := hrestored } }
  | sampleTick sample nowMs readings =>
    exact ensures_ite (fun hrunning ↦ ensures_of_tame h hrunning (tame_sampleTick sample readings))
      fun _ ↦ ensures_pure h
  | reportTick inventory nowMs reportIds =>
    exact ensures_ite
      (fun hrunning ↦ ensures_of_tame h hrunning (tame_reportTick inventory reportIds))
      fun _ ↦ ensures_pure h
  | uploadTick nowMs retryDelayMs =>
    refine ensures_ite (fun hrunning ↦ ?_) fun _ ↦ ensures_pure h
    refine ensures_returned (ensures_startDueUpload retryDelayMs (h.2 hrunning)) ?_
    rintro _ next ⟨upload, checkpoint, hnext⟩
    exact hnext.invariant
  | uploadDone result nowMs recoveryJitterMs =>
    refine ensures_ite (fun hrunning ↦ ?_) fun _ ↦ ensures_pure h
    have hlive := h.2 hrunning
    cases hupload : host.upload with
    | none => exact ensures_pure h
    | some upload =>
      rw [hupload] at hlive
      have htaken : Live none [upload.delivery.reportId] host.file.transportSequenceCheckpoint
          { host with upload := none } :=
        { hlive with sound := { h.1 with }, upload := rfl }
      refine ensures_bind (ensures_modify ?_)
      refine ensures_returned (ensures_finishUpload upload result recoveryJitterMs htaken) ?_
      intro _ next hnext
      have hidle : Live none (inFlight none) host.file.transportSequenceCheckpoint next := hnext
      exact hidle.invariant
  | commandTick nowMs refreshed retryDelayMs =>
    exact ensures_ite
      (fun hrunning ↦ ensures_of_tame h hrunning (tame_commandTick refreshed retryDelayMs))
      fun _ ↦ ensures_pure h
  | commandDone execution nowMs =>
    exact ensures_ite (fun hrunning ↦ ensures_of_tame h hrunning (tame_commandDone execution))
      fun _ ↦ ensures_pure h
  | probeResult result nowMs =>
    exact ensures_ite (fun hrunning ↦ ensures_of_tame h hrunning (tame_probeResult result))
      fun _ ↦ ensures_pure h

theorem invariant_step (codec : Codec) (host : Host) (action : Event × List Fate)
    (h : Invariant host) : Invariant (step codec host action) := by
  have hends := ensures_branch codec h action.1 action.2
  unfold step
  generalize branch codec host action.1 host action.2 = outcome at hends ⊢
  obtain ⟨ending, next, left⟩ := outcome
  cases ending with
  | returned value => exact hends
  | raised message =>
    obtain ⟨hmessage, hsound⟩ := hends
    refine hsound.invariant_stopped rfl rfl rfl rfl rfl rfl fun other hother ↦ ?_
    rcases List.mem_append.mp hother with hold | hnew
    · exact hsound.log other hold
    · rwa [List.mem_singleton.mp hnew]
  | interrupted =>
    have hsound : Sound next := hends
    exact hsound.invariant_stopped rfl rfl rfl rfl rfl rfl hsound.log

theorem visits_invariant (codec : Codec) (config : AgentConfig) (initialClientSequence : ℕ)
    (actions : List (Event × List Fate)) :
    Visits (step codec) Invariant (enrolled config initialClientSequence) actions :=
  Library.Runs.visits_invariant (invariant_step codec)
    (invariant_enrolled config initialClientSequence) actions

/-- The structural invariant in the terms of the tables. -/
structure Consistent (spool : Spool) : Prop where
  delivery_has_sample : ∀ row ∈ spool.deliveries, ∃ link ∈ spool.deliverySamples,
    link.reportId = row.reportId ∧ ∃ sample ∈ spool.samples, sample.id = link.sampleId
  sample_once : UniqueKey DeliverySampleRow.sampleId spool.deliverySamples
  command_once : UniqueKey DeliveryCommandRow.commandId spool.deliveryCommandResults
  minute_once : UniqueKey DeliveryRow.nominalMinute spool.deliveries

/-- No call of an upload meets a state that it does not expect. -/
structure UploadSafe (host : Host) : Prop where
  consistent : ∀ spool ∈ host.spool :: host.snapshots, Consistent spool
  in_flight : host.running = true → ∀ upload ∈ host.upload,
    host.spool.Pending upload.delivery.reportId
  begin_matches : ∀ nowMs delivery nextAttemptAt, host.spool.dueDelivery nowMs = some delivery →
    Harmless (host.spool.beginDeliveryAttempt delivery.reportId nextAttemptAt).1
  reschedule_matches : host.running = true → ∀ upload ∈ host.upload, ∀ nextAttemptAt errorCode,
    (host.spool.rescheduleDelivery upload.delivery.reportId nextAttemptAt errorCode).1 = .ok ()
  quarantine_matches : host.running = true → ∀ upload ∈ host.upload, ∀ errorCode nowMs,
    (host.spool.quarantineDelivery upload.delivery.reportId errorCode nowMs).1 = .ok ()
  acknowledge_matches : host.running = true → ∀ upload ∈ host.upload,
    (host.spool.acknowledge upload.delivery.reportId).1 = .ok true
  log_matches : ∀ message ∈ host.log, message ∉ stateMismatches

theorem consistent_of_wellformed (h : spool.Wellformed) : Consistent spool where
  delivery_has_sample _ := h.exists_sample
  sample_once := h.sampleLinks.child_unique
  command_once := h.commandLinks.child_unique
  minute_once := h.minute_unique

theorem Invariant.in_flight (h : Invariant host) (hrunning : host.running = true) {upload : Upload}
    (hupload : upload ∈ host.upload) :
    host.spool.Pending upload.delivery.reportId := by
  refine (h.2 hrunning).held _ (List.mem_map_of_mem ?_)
  exact Option.mem_toList.mpr hupload

theorem Invariant.uploadSafe (h : Invariant host) : UploadSafe host := by
  have hwellformed := h.1.spool.1
  refine ⟨?_, fun hrunning _ ↦ h.in_flight hrunning, ?_, ?_, ?_, ?_, h.1.log⟩
  · intro spool hspool
    rcases List.mem_cons.mp hspool with rfl | hsnapshot
    · exact consistent_of_wellformed hwellformed
    · exact consistent_of_wellformed (h.1.snapshots spool hsnapshot).1
  · intro nowMs delivery nextAttemptAt hdue
    rcases Spool.beginDeliveryAttempt_cases hwellformed (Spool.pending_of_dueDelivery hdue)
      nextAttemptAt with hlimit | ⟨hok, -⟩
    · rw [hlimit]
      exact harmless_error (by simp [stateMismatches])
    · rw [hok]
      exact harmless_ok _
  · exact fun hrunning _ hupload _ _ ↦
      Spool.changePending_ok hwellformed (h.in_flight hrunning hupload) _
  · exact fun hrunning _ hupload _ _ ↦
      Spool.changePending_ok hwellformed (h.in_flight hrunning hupload) _
  · intro hrunning upload hupload
    obtain ⟨row, hrow, hid, -⟩ := h.in_flight hrunning hupload
    rw [← hid, Spool.acknowledge_ok hwellformed hrow]

/-- In every state of every run the spool is consistent and the upload in flight is safe. -/
theorem visits_uploadSafe (codec : Codec) (config : AgentConfig) (initialClientSequence : ℕ)
    (actions : List (Event × List Fate)) :
    Visits (step codec) UploadSafe (enrolled config initialClientSequence) actions :=
  visits_mono (fun _ h ↦ h.uploadSafe)
    (visits_invariant codec config initialClientSequence actions)

/-- No nonce seals two uploads. -/
structure SequenceFresh (host : Host) : Prop where
  sealed_nodup : host.sealed.Nodup
  sealed_le_file : ∀ nonce ∈ host.sealed, nonce.2 ≤ host.file.transportSequenceCheckpoint
  sealed_le_spool : host.running = true → ∀ nonce ∈ host.sealed,
    nonce.2 ≤ host.spool.transportSequence

/-- In every state of every run, with any crashes and restorations, the nonces are fresh. -/
theorem visits_sequenceFresh (codec : Codec) (config : AgentConfig) (initialClientSequence : ℕ)
    (actions : List (Event × List Fate)) :
    Visits (step codec) SequenceFresh (enrolled config initialClientSequence) actions := by
  refine visits_mono (fun host h ↦ ?_)
    (visits_invariant codec config initialClientSequence actions)
  exact
    { sealed_nodup := h.1.sealed_nodup.of_map
      sealed_le_file := h.1.sealed_le
      sealed_le_spool := fun hrunning ↦ (h.2 hrunning).sealed_le }

end AlphaPing.Agent.Host
