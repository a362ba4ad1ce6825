import AlphaPing.Notifications.Discovery
import Mathlib.Data.List.Dedup

/-!
# The cursor passes an event with its deliveries

A run carries its page from the read of the events to the move of the cursor. What the statements
of other runs do in between only adds rows, so that the invariant of a run, which speaks of it by
its stage, is kept along a relation that every step satisfies.

A rule has one channel and a workspace at most `MAX_CHANNELS`, so that the rules that match a page
never exceed what `loadRules` admits, and no statement of it leaves rules out.
-/

namespace AlphaPing.Notifications.Discovery

open Library.Tables Library.Runs

/-! ## Rules -/

/-- The rule is enabled, and so is its channel, which is of the same workspace. -/
def Subscriptions.effective (subscriptions : Subscriptions) (rule : Rule) : Bool :=
  rule.enabled && subscriptions.channels.any fun channel ↦ channel.id == rule.channelId &&
    channel.workspaceId == rule.key.workspaceId && channel.enabled

variable (subscriptions : Subscriptions) {keys : List RuleKey} {channelId : String}
  {rules : List Rule}

theorem Subscriptions.countP_key_le (key : RuleKey) :
    subscriptions.rules.countP (fun rule ↦ subscriptions.effective rule && decide (rule.key = key)) ≤
      maxChannels := by
  rw [List.countP_eq_length_filter]
  set rules := subscriptions.rules.filter fun rule ↦
    subscriptions.effective rule && decide (rule.key = key) with hrules
  have hkey : ∀ rule ∈ rules, rule ∈ subscriptions.rules ∧
      subscriptions.effective rule = true ∧ rule.key = key := by
    intro rule hrule
    obtain ⟨hmem, hcondition⟩ := List.mem_filter.mp hrule
    rw [Bool.and_eq_true, decide_eq_true_eq] at hcondition
    exact ⟨hmem, hcondition⟩
  have hnodup : (rules.map Rule.channelId).Nodup := by
    have htargets : UniqueKey Rule.target rules := subscriptions.unique_rule.filter _
    refine List.Nodup.map_on ?_ htargets.of_map
    intro first hfirst second hsecond hsame
    refine htargets.eq_of_mem hfirst hsecond ?_
    rw [Rule.target, Rule.target, hsame, (hkey first hfirst).2.2, (hkey second hsecond).2.2]
  have hsub : rules.map Rule.channelId ⊆ (subscriptions.channels.filter fun channel ↦
      channel.workspaceId == key.workspaceId).map Channel.id := by
    intro channelId hmem
    obtain ⟨rule, hrule, rfl⟩ := List.mem_map.mp hmem
    obtain ⟨-, heffective, hrulekey⟩ := hkey rule hrule
    simp only [Subscriptions.effective, Bool.and_eq_true, List.any_eq_true, beq_iff_eq] at heffective
    obtain ⟨-, channel, hchannel, ⟨hid, hworkspace⟩, -⟩ := heffective
    exact List.mem_map.mpr ⟨channel, List.mem_filter.mpr
      ⟨hchannel, by rw [hworkspace, hrulekey, beq_self_eq_true]⟩, hid⟩
  calc
    rules.length = (rules.map Rule.channelId).length := (List.length_map _).symm
    _ ≤ _ := (List.subperm_of_subset hnodup hsub).length_le
    _ ≤ maxChannels := by
      rw [List.length_map]
      exact subscriptions.channels_le key.workspaceId

theorem Subscriptions.length_requested_le (keys : List RuleKey) :
    (subscriptions.rules.filter fun rule ↦ rule.enabled && keys.contains rule.key &&
      subscriptions.channels.any fun channel ↦ channel.id == rule.channelId &&
        channel.workspaceId == rule.key.workspaceId && channel.enabled).length ≤
      maxChannels * keys.length := by
  have hle := countP_requested_le subscriptions.countP_key_le keys
  rw [List.countP_eq_length_filter] at hle
  refine le_of_eq_of_le (congrArg List.length (List.filter_congr fun rule _ ↦ ?_)) hle
  unfold Subscriptions.effective
  cases rule.enabled <;> cases keys.contains rule.key <;> simp

theorem Subscriptions.length_requestedRules_le (keys : List RuleKey) (limit : ℕ) :
    (subscriptions.requestedRules keys limit).length ≤ maxChannels * keys.length :=
  subperm_selectOrdered.length_le.trans (subscriptions.length_requested_le keys)

theorem Subscriptions.exists_requestedRule {limit : ℕ} (hlimit : maxChannels * keys.length ≤ limit)
    {key : RuleKey} (hkey : key ∈ keys) (h : channelId ∈ subscriptions.matching key) :
    ∃ rule ∈ subscriptions.requestedRules keys limit,
      rule.key = key ∧ rule.channelId = channelId := by
  obtain ⟨channel, hchannel, rfl⟩ := List.mem_map.mp h
  obtain ⟨hmem, hcondition⟩ := List.mem_filter.mp hchannel
  simp only [Bool.and_eq_true, List.any_eq_true, beq_iff_eq] at hcondition
  obtain ⟨henabled, rule, hrule, ⟨⟨hon, hid⟩, hrulekey⟩, hworkspace⟩ := hcondition
  refine ⟨rule, mem_selectOrdered_of_length_le
    ((subscriptions.length_requested_le keys).trans hlimit) (List.mem_filter.mpr ⟨hrule, ?_⟩),
    hrulekey, hid⟩
  have hcontains : keys.contains rule.key = true := by simpa [hrulekey] using hkey
  simp only [hon, hcontains, Bool.true_and, List.any_eq_true, Bool.and_eq_true, beq_iff_eq]
  exact ⟨channel, hmem, ⟨hid.symm, hworkspace.symm⟩, henabled⟩

theorem Subscriptions.matching_drawn {key : RuleKey} (h : channelId ∈ subscriptions.matching key) :
    channelId ∈ subscriptions.drawn := by
  obtain ⟨channel, hchannel, rfl⟩ := List.mem_map.mp h
  exact subscriptions.channels_drawn channel (List.mem_of_mem_filter hchannel)

/-! ## Requests and deliveries -/

variable {events : List Queued} {resources : Resources} {queued : Queued}
  {batch rows : List Delivery} {lastSequence : ℕ} {queue : List Queued} {reads : List RulesRead}
  {before after : Feed} {feed : Feed}

theorem mem_requestedKeys {key : RuleKey} :
    key ∈ requestedKeys resources events ↔
      ∃ queued ∈ events, resources.ruleKey queued.event = some key := by
  simp [requestedKeys]

theorem length_requestedKeys_le (resources : Resources) (events : List Queued) :
    (requestedKeys resources events).length ≤ events.length := by
  rw [requestedKeys, List.length_reverse]
  exact (List.dedup_sublist _).length_le.trans
    (List.length_reverse.le.trans (List.length_filterMap_le _ _))

theorem mem_prepareDeliveries {now : ℤ} (hqueued : queued ∈ events) {rule : Rule}
    (hrule : rule ∈ rules) (hkey : resources.ruleKey queued.event = some rule.key) :
    ∃ delivery ∈ prepareDeliveries resources rules events now,
      delivery.identity = (rule.channelId, queued.event.key) := by
  obtain ⟨resource, hresource, -⟩ := Option.map_eq_some_iff.mp hkey
  refine ⟨newDelivery resource queued.event rule.channelId now,
    List.mem_flatMap.mpr ⟨queued, hqueued, ?_⟩, rfl⟩
  rw [hresource]
  exact List.mem_map_of_mem (List.mem_filter.mpr ⟨hrule, by simp [hkey]⟩)

theorem mem_insertDelivery {rows : List Delivery} {row delivery : Delivery} (h : row ∈ rows) :
    row ∈ insertDelivery rows delivery := by
  unfold insertDelivery
  split
  · exact h
  · exact List.mem_append_left _ h

theorem exists_insertDelivery (rows : List Delivery) (delivery : Delivery) :
    ∃ row ∈ insertDelivery rows delivery, row.identity = delivery.identity := by
  unfold insertDelivery
  split
  · next hany =>
    obtain ⟨row, hrow, hidentity⟩ := List.any_eq_true.mp hany
    exact ⟨row, hrow, beq_iff_eq.mp hidentity⟩
  · exact ⟨delivery, List.mem_append_right _ (List.mem_singleton_self _), rfl⟩

theorem uniqueKey_insertDelivery {rows : List Delivery} (h : UniqueKey Delivery.identity rows)
    (delivery : Delivery) : UniqueKey Delivery.identity (insertDelivery rows delivery) := by
  unfold insertDelivery
  split
  · exact h
  · next hany =>
    refine uniqueKey_append_singleton h fun row hrow hidentity ↦ hany ?_
    exact List.any_eq_true.mpr ⟨row, hrow, by simp [hidentity]⟩

theorem mem_foldl_insertDelivery {row : Delivery} (h : row ∈ rows) :
    row ∈ batch.foldl insertDelivery rows := by
  induction batch generalizing rows with
  | nil => exact h
  | cons delivery rest ih => exact ih (mem_insertDelivery h)

theorem exists_foldl_insertDelivery {batch : List Delivery} (rows : List Delivery)
    {delivery : Delivery} (h : delivery ∈ batch) :
    ∃ row ∈ batch.foldl insertDelivery rows, row.identity = delivery.identity := by
  induction batch generalizing rows with
  | nil => exact absurd h List.not_mem_nil
  | cons head rest ih =>
    rcases List.mem_cons.mp h with rfl | hrest
    · obtain ⟨row, hrow, hidentity⟩ := exists_insertDelivery rows delivery
      rw [List.foldl_cons]
      exact ⟨row, mem_foldl_insertDelivery hrow, hidentity⟩
    · exact ih _ hrest

theorem uniqueKey_foldl_insertDelivery (h : UniqueKey Delivery.identity rows) :
    UniqueKey Delivery.identity (batch.foldl insertDelivery rows) := by
  induction batch generalizing rows with
  | nil => exact h
  | cons delivery rest ih => exact ih (uniqueKey_insertDelivery h delivery)

theorem insertDeliveries_some {channels : List Channel} {rows batch inserted : List Delivery}
    (h : insertDeliveries channels rows batch = some inserted) :
    inserted = batch.foldl insertDelivery rows := by
  unfold insertDeliveries at h
  split at h
  · exact (Option.some.inj h).symm
  · cases h

/-! ## Pages -/

theorem mem_loadEvents (h : queued ∈ loadEvents queue lastSequence) :
    queued ∈ queue ∧ lastSequence < queued.sequence := by
  obtain ⟨hmem, hlt⟩ := List.mem_filter.mp (mem_of_mem_selectOrdered h)
  exact ⟨hmem, of_decide_eq_true hlt⟩

theorem endOfPage_eq (h : events ≠ []) (lastSequence : ℕ) :
    endOfPage events lastSequence = (events.getLast h).sequence := by
  simp [endOfPage, List.getLast?_eq_some_getLast h]

theorem mem_loadEvents_of_le (hunique : UniqueKey Queued.sequence queue)
    (hpage : loadEvents queue lastSequence ≠ []) (h : queued ∈ queue)
    (hlt : lastSequence < queued.sequence)
    (hle : queued.sequence ≤ endOfPage (loadEvents queue lastSequence) lastSequence) :
    queued ∈ loadEvents queue lastSequence := by
  rw [endOfPage_eq hpage] at hle
  have hlast := List.getLast_mem hpage
  have hmem : queued ∈ queue.filter fun row ↦ decide (lastSequence < row.sequence) :=
    List.mem_filter.mpr ⟨h, decide_eq_true hlt⟩
  rcases hle.lt_or_eq with hbefore | hsame
  · exact mem_selectOrdered_of_lt hmem hlast hbefore
  · rw [hunique.eq_of_mem h (mem_loadEvents hlast).1 hsame]
    exact hlast

/-! ## The invariant -/

/-- The row of a delivery is stored, or its channel was deleted. -/
def Stored (feed : Feed) (channelId : String) (event : EventKey) : Prop :=
  channelId ∈ feed.subscriptions.drawn ∧
    ((∀ channel ∈ feed.subscriptions.channels, channel.id ≠ channelId) ∨
      ∃ row ∈ feed.deliveries, row.identity = (channelId, event))

/-- Some statement has requested the key of an event, and the deliveries of the channels that
matched it then satisfy a condition. -/
def RulesCovered (resources : Resources) (reads : List RulesRead) (queued : Queued)
    (done : String → Prop) : Prop :=
  ∀ key, resources.ruleKey queued.event = some key →
    ∃ read ∈ reads, key ∈ read.keys ∧ ∀ channelId ∈ read.subscriptions.matching key, done channelId

/-- What a later state keeps of an earlier one. -/
structure Later (before after : Feed) : Prop where
  queue : ∀ queued ∈ after.queue, queued ∈ before.queue ∨ before.newest < queued.sequence
  newest : before.newest ≤ after.newest
  initialized : before.boundary.isSome → after.boundary.isSome
  cursor : before.boundary.isSome → before.cursor.lastSequence ≤ after.cursor.lastSequence
  drawn : before.subscriptions.drawn ⊆ after.subscriptions.drawn
  stored : ∀ channelId event, Stored before channelId event → Stored after channelId event

/-- The page of a run: nothing that is queued is left out up to its end. -/
structure PageSound (feed : Feed) (lastSequence : ℕ) (events : List Queued) : Prop where
  initialized : feed.boundary.isSome
  read_le : lastSequence ≤ feed.cursor.lastSequence
  nonempty : events ≠ []
  after : ∀ queued ∈ events, lastSequence < queued.sequence
  covers : ∀ queued ∈ feed.queue, lastSequence < queued.sequence →
    queued.sequence ≤ endOfPage events lastSequence → queued ∈ events
  end_le : endOfPage events lastSequence ≤ feed.newest
  length_le : events.length ≤ eventLimit

/-- The rules that a run has found, and the keys that it has still to request. -/
structure RulesSound (feed : Feed) (events : List Queued) (resources : Resources)
    (keys : List RuleKey) (rules : List Rule) (reads : List RulesRead) : Prop where
  bound : rules.length + maxChannels * keys.length ≤ maxMatchedRules
  requested : ∀ queued ∈ events, ∀ key, resources.ruleKey queued.event = some key →
    key ∈ keys ∨ ∃ read ∈ reads, key ∈ read.keys
  found : ∀ read ∈ reads, ∀ key ∈ read.keys, ∀ channelId ∈ read.subscriptions.matching key,
    channelId ∈ feed.subscriptions.drawn ∧ ∃ rule ∈ rules, rule.key = key ∧ rule.channelId = channelId

/-- A delivery is still to be inserted, or it is stored. -/
def Pending (feed : Feed) (deliveries : List Delivery) (event : EventKey) (channelId : String) :
    Prop :=
  channelId ∈ feed.subscriptions.drawn ∧
    ((∃ delivery ∈ deliveries, delivery.identity = (channelId, event)) ∨
      Stored feed channelId event)

/-- What a run is sure of in a stage. -/
def StageSound (feed : Feed) (reads : List RulesRead) : Stage → Prop
  | .loadingCursor | .newestSequence => reads = []
  | .initializing sequence => reads = [] ∧ sequence ≤ feed.newest
  | .reloadingCursor => reads = [] ∧ feed.boundary.isSome
  | .loadingEvents lastSequence =>
    reads = [] ∧ feed.boundary.isSome ∧ lastSequence ≤ feed.cursor.lastSequence
  | .loadingMachines lastSequence events | .loadingServices lastSequence events _ =>
    reads = [] ∧ PageSound feed lastSequence events
  | .loadingRules lastSequence events resources keys rules =>
    PageSound feed lastSequence events ∧ RulesSound feed events resources keys rules reads
  | .persisting lastSequence events resources deliveries =>
    PageSound feed lastSequence events ∧ ∀ queued ∈ events,
      RulesCovered resources reads queued (Pending feed deliveries queued.event.key)
  | .cleaning sequence => feed.boundary.isSome ∧ sequence ≤ feed.cursor.lastSequence
  | .ended | .failed => True

/-- The cursor has passed an event only with its page. -/
def Passed (feed : Feed) : Prop :=
  ∀ boundary ∈ feed.boundary, ∀ queued ∈ feed.queue, boundary < queued.sequence →
    queued.sequence ≤ feed.cursor.lastSequence →
      ∃ page ∈ feed.pages, queued ∈ page.events ∧
        RulesCovered page.resources page.reads queued fun channelId ↦
          Stored feed channelId queued.event.key

structure FeedSound (feed : Feed) : Prop where
  initialized : feed.boundary.isSome = feed.cursor.updatedAt.isSome
  cursor_le : feed.cursor.lastSequence ≤ feed.newest
  sequence_le : ∀ queued ∈ feed.queue, queued.sequence ≤ feed.newest
  unique_sequence : UniqueKey Queued.sequence feed.queue
  unique_delivery : UniqueKey Delivery.identity feed.deliveries
  passed : Passed feed
  runs : ∀ run ∈ feed.runs, StageSound feed run.reads run.stage

theorem RulesCovered.mono {done also : String → Prop} (h : RulesCovered resources reads queued done)
    (halso : ∀ channelId, done channelId → also channelId) :
    RulesCovered resources reads queued also := by
  intro key hkey
  obtain ⟨read, hread, hmem, hdone⟩ := h key hkey
  exact ⟨read, hread, hmem, fun channelId hchannel ↦ halso channelId (hdone channelId hchannel)⟩

theorem PageSound.mono (h : PageSound before lastSequence events) (hlater : Later before after) :
    PageSound after lastSequence events where
  initialized := hlater.initialized h.initialized
  read_le := h.read_le.trans (hlater.cursor h.initialized)
  nonempty := h.nonempty
  after := h.after
  covers queued hqueued hlt hle := by
    rcases hlater.queue queued hqueued with hold | hnew
    · exact h.covers queued hold hlt hle
    · have hend := h.end_le
      omega
  end_le := h.end_le.trans hlater.newest
  length_le := h.length_le

theorem StageSound.mono {stage : Stage} (h : StageSound before reads stage)
    (hlater : Later before after) :
    StageSound after reads stage := by
  cases stage with
  | loadingCursor | newestSequence | ended | failed => exact h
  | initializing sequence => exact ⟨h.1, h.2.trans hlater.newest⟩
  | reloadingCursor => exact ⟨h.1, hlater.initialized h.2⟩
  | loadingEvents lastSequence =>
    exact ⟨h.1, hlater.initialized h.2.1, h.2.2.trans (hlater.cursor h.2.1)⟩
  | loadingMachines lastSequence events => exact ⟨h.1, h.2.mono hlater⟩
  | loadingServices lastSequence events machines => exact ⟨h.1, h.2.mono hlater⟩
  | loadingRules lastSequence events resources keys rules =>
    refine ⟨h.1.mono hlater, h.2.bound, h.2.requested, fun read hread key hkey channelId hmem ↦ ?_⟩
    obtain ⟨hdrawn, hrule⟩ := h.2.found read hread key hkey channelId hmem
    exact ⟨hlater.drawn hdrawn, hrule⟩
  | persisting lastSequence events resources deliveries =>
    refine ⟨h.1.mono hlater, fun queued hqueued ↦ (h.2 queued hqueued).mono ?_⟩
    exact fun channelId hpending ↦ ⟨hlater.drawn hpending.1, hpending.2.imp id (hlater.stored _ _)⟩
  | cleaning sequence => exact ⟨hlater.initialized h.1, h.2.trans (hlater.cursor h.1)⟩

/-- The invariant of the runs and the passed events when another statement comes in between. -/
theorem FeedSound.later (h : FeedSound before) (hlater : Later before after)
    (hboundary : after.boundary = before.boundary) (hcursor : after.cursor = before.cursor)
    (hpages : after.pages = before.pages)
    (hsequence : ∀ queued ∈ after.queue, queued.sequence ≤ after.newest)
    (hunique : UniqueKey Queued.sequence after.queue)
    (hdeliveries : UniqueKey Delivery.identity after.deliveries)
    (hruns : ∀ run ∈ after.runs, StageSound before run.reads run.stage) : FeedSound after where
  initialized := by rw [hboundary, hcursor]; exact h.initialized
  cursor_le := by
    rw [hcursor]
    exact h.cursor_le.trans hlater.newest
  sequence_le := hsequence
  unique_sequence := hunique
  unique_delivery := hdeliveries
  passed boundary hmem queued hqueued hlt hle := by
    rw [hcursor] at hle
    rcases hlater.queue queued hqueued with hold | hnew
    · obtain ⟨page, hpage, hevent, hcovered⟩ :=
        h.passed boundary (hboundary ▸ hmem) queued hold hlt hle
      exact ⟨page, hpages ▸ hpage, hevent, hcovered.mono fun channelId ↦ hlater.stored _ _⟩
    · have hcursor_le := h.cursor_le
      omega
  runs run hrun := (hruns run hrun).mono hlater

/-! ## Statements of a run -/

theorem later_of_eq (hqueue : after.queue = before.queue) (hnewest : after.newest = before.newest)
    (hboundary : after.boundary = before.boundary) (hcursor : after.cursor = before.cursor)
    (hdrawn : before.subscriptions.drawn ⊆ after.subscriptions.drawn)
    (hstored : ∀ channelId event, Stored before channelId event → Stored after channelId event) :
    Later before after where
  queue _ hmem := .inl (hqueue ▸ hmem)
  newest := hnewest.ge
  initialized h := hboundary ▸ h
  cursor _ := hcursor ▸ le_rfl
  drawn := hdrawn
  stored := hstored

theorem FeedSound.of_frame (h : FeedSound before)
    (hsubscriptions : after.subscriptions = before.subscriptions)
    (hdeliveries : after.deliveries = before.deliveries) (hqueue : after.queue = before.queue)
    (hnewest : after.newest = before.newest) (hboundary : after.boundary = before.boundary)
    (hcursor : after.cursor = before.cursor) (hpages : after.pages = before.pages)
    (hruns : ∀ run ∈ after.runs, StageSound before run.reads run.stage) : FeedSound after := by
  refine h.later (later_of_eq hqueue hnewest hboundary hcursor (hsubscriptions ▸ fun _ ↦ id) ?_)
    hboundary hcursor hpages ?_ (hqueue ▸ h.unique_sequence) (hdeliveries ▸ h.unique_delivery) hruns
  · intro channelId event hstored
    rw [Stored] at hstored ⊢
    rwa [hsubscriptions, hdeliveries]
  · intro queued hqueued
    exact hnewest ▸ h.sequence_le queued (hqueue ▸ hqueued)

theorem FeedSound.setRun (h : FeedSound feed) (index : ℕ) {run : Run}
    (hrun : StageSound feed run.reads run.stage) : FeedSound (feed.setRun index run) := by
  refine h.of_frame rfl rfl rfl rfl rfl rfl rfl fun other hother ↦ ?_
  rcases List.mem_or_eq_of_mem_set hother with hold | rfl
  · exact h.runs other hold
  · exact hrun

theorem newestSequence_le {newest : ℕ} (h : ∀ queued ∈ queue, queued.sequence ≤ newest) :
    newestSequence queue ≤ newest := by
  have hfold : ∀ start ≤ newest, (queue.map Queued.sequence).foldl max start ≤ newest := by
    induction queue with
    | nil => exact fun start hstart ↦ hstart
    | cons head tail ih =>
      intro start hstart
      exact ih (fun queued hqueued ↦ h queued (List.mem_cons_of_mem _ hqueued)) _
        (max_le hstart (h head List.mem_cons_self))
  exact hfold 0 (Nat.zero_le _)

theorem FeedSound.pageSound (h : FeedSound feed) (hinitialized : feed.boundary.isSome)
    (hle : lastSequence ≤ feed.cursor.lastSequence)
    (hpage : loadEvents feed.queue lastSequence ≠ []) :
    PageSound feed lastSequence (loadEvents feed.queue lastSequence) where
  initialized := hinitialized
  read_le := hle
  nonempty := hpage
  after queued hqueued := (mem_loadEvents hqueued).2
  covers queued hqueued := mem_loadEvents_of_le h.unique_sequence hpage hqueued
  end_le := by
    rw [endOfPage_eq hpage]
    exact h.sequence_le _ (mem_loadEvents (List.getLast_mem hpage)).1
  length_le := length_selectOrdered_le

theorem stageSound_readRules (hpage : PageSound feed lastSequence events)
    (hrules : RulesSound feed events resources keys rules reads) (now : ℤ) :
    StageSound feed reads (readRules lastSequence events resources keys rules now) := by
  cases keys with
  | cons key rest => exact ⟨hpage, hrules⟩
  | nil =>
    refine ⟨hpage, fun queued hqueued key hkey ↦ ?_⟩
    obtain ⟨read, hread, hmem⟩ :=
      (hrules.requested queued hqueued key hkey).resolve_left List.not_mem_nil
    refine ⟨read, hread, hmem, fun channelId hchannel ↦ ?_⟩
    obtain ⟨hdrawn, rule, hrule, rfl, rfl⟩ := hrules.found read hread key hmem channelId hchannel
    exact ⟨hdrawn, .inl (mem_prepareDeliveries hqueued hrule hkey)⟩

theorem RulesSound.read (h : RulesSound feed events resources keys rules reads) :
    RulesSound feed events resources (keys.drop keyBatch)
      (rules ++ feed.subscriptions.requestedRules (keys.take keyBatch)
        (maxMatchedRules - rules.length + 1))
      (reads ++ [⟨keys.take keyBatch, feed.subscriptions⟩]) where
  bound := by
    have hle := feed.subscriptions.length_requestedRules_le (keys.take keyBatch)
      (maxMatchedRules - rules.length + 1)
    have hsplit : (keys.take keyBatch).length + (keys.drop keyBatch).length = keys.length := by
      rw [← List.length_append, List.take_append_drop]
    have hmul := congrArg (maxChannels * ·) hsplit
    simp only [Nat.mul_add] at hmul
    have hbound := h.bound
    rw [List.length_append]
    omega
  requested queued hqueued key hkey := by
    rcases h.requested queued hqueued key hkey with hleft | ⟨read, hread, hmem⟩
    · rw [← List.take_append_drop keyBatch keys] at hleft
      rcases List.mem_append.mp hleft with htaken | hdropped
      · exact .inr ⟨_, List.mem_append_right _ (List.mem_singleton_self _), htaken⟩
      · exact .inl hdropped
    · exact .inr ⟨read, List.mem_append_left _ hread, hmem⟩
  found read hread key hkey channelId hchannel := by
    rcases List.mem_append.mp hread with hold | hnew
    · obtain ⟨hdrawn, rule, hrule, hsame⟩ := h.found read hold key hkey channelId hchannel
      exact ⟨hdrawn, rule, List.mem_append_left _ hrule, hsame⟩
    · rw [List.mem_singleton.mp hnew] at hkey hchannel
      have hlimit : maxChannels * (keys.take keyBatch).length ≤ maxMatchedRules - rules.length + 1 := by
        have hle := Nat.mul_le_mul_left maxChannels (List.length_take_le keyBatch keys)
        have hmin := Nat.mul_le_mul_left maxChannels (List.length_take_le' keyBatch keys)
        have hbound := h.bound
        omega
      obtain ⟨rule, hrule, hsame⟩ :=
        feed.subscriptions.exists_requestedRule hlimit hkey hchannel
      exact ⟨feed.subscriptions.matching_drawn hchannel, rule, List.mem_append_right _ hrule, hsame⟩

theorem PageSound.rulesSound (h : PageSound feed lastSequence events) (resources : Resources) :
    RulesSound feed events resources (requestedKeys resources events) [] [] where
  bound := by
    have hle : maxChannels * (requestedKeys resources events).length ≤ maxChannels * eventLimit :=
      Nat.mul_le_mul_left maxChannels
        ((length_requestedKeys_le resources events).trans h.length_le)
    have hlimits : maxChannels * eventLimit = maxMatchedRules := rfl
    simpa [← hlimits] using hle
  requested queued hqueued key hkey := .inl (mem_requestedKeys.mpr ⟨queued, hqueued, hkey⟩)
  found _ hread := absurd hread List.not_mem_nil

theorem updateCursor_le (cursor : Cursor) (sequence : ℕ) (now : ℤ) :
    cursor.lastSequence ≤ (updateCursor cursor sequence now).lastSequence ∧
      sequence ≤ (updateCursor cursor sequence now).lastSequence ∧
      ((updateCursor cursor sequence now).lastSequence = cursor.lastSequence ∨
        (updateCursor cursor sequence now).lastSequence = sequence) := by
  unfold updateCursor
  split
  · next hle => exact ⟨hle, le_rfl, .inr rfl⟩
  · next hle => exact ⟨le_rfl, (not_le.mp hle).le, .inl rfl⟩

theorem FeedSound.moveCursor (h : FeedSound feed) (now : ℤ)
    (hpage : PageSound feed lastSequence events) (hcovered : ∀ queued ∈ events,
      RulesCovered resources reads queued fun channelId ↦ Stored feed channelId queued.event.key) :
    FeedSound { feed with
      cursor := updateCursor feed.cursor (endOfPage events lastSequence) now
      pages := feed.pages ++ [⟨events, resources, reads⟩] } := by
  obtain ⟨hmono, -, hcases⟩ := updateCursor_le feed.cursor (endOfPage events lastSequence) now
  have hlater : Later feed { feed with
      cursor := updateCursor feed.cursor (endOfPage events lastSequence) now
      pages := feed.pages ++ [⟨events, resources, reads⟩] } :=
    ⟨fun _ hmem ↦ .inl hmem, le_rfl, id, fun _ ↦ hmono, fun _ ↦ id, fun _ _ ↦ id⟩
  refine ⟨?_, ?_, h.sequence_le, h.unique_sequence, h.unique_delivery, ?_,
    fun run hrun ↦ (h.runs run hrun).mono hlater⟩
  · have hupdated : feed.cursor.updatedAt.isSome = true := h.initialized ▸ hpage.initialized
    have hboundary : feed.boundary.isSome = true := hpage.initialized
    simp only [updateCursor]
    split
    · simp [hboundary]
    · simp [hupdated, hboundary]
  · rcases hcases with heq | heq
    · exact heq.trans_le h.cursor_le
    · exact heq.trans_le hpage.end_le
  · intro boundary hboundary queued hqueued hlt hle
    by_cases hold : queued.sequence ≤ feed.cursor.lastSequence
    · obtain ⟨page, hmem, hevent, hpassed⟩ := h.passed boundary hboundary queued hqueued hlt hold
      exact ⟨page, List.mem_append_left _ hmem, hevent, hpassed⟩
    · have hend : queued.sequence ≤ endOfPage events lastSequence := by
        rcases hcases with heq | heq
        · exact absurd (hle.trans_eq heq) hold
        · exact hle.trans_eq heq
      have hevent := hpage.covers queued hqueued
        (hpage.read_le.trans_lt (not_le.mp hold)) hend
      exact ⟨_, List.mem_append_right _ (List.mem_singleton_self _), hevent, hcovered queued hevent⟩

theorem FeedSound.insertBatch (h : FeedSound feed)
    (hinsert : insertDeliveries feed.subscriptions.channels feed.deliveries batch = some rows) :
    FeedSound { feed with deliveries := rows } ∧ Later feed { feed with deliveries := rows } := by
  obtain rfl := insertDeliveries_some hinsert
  have hlater : Later feed
      { feed with deliveries := batch.foldl insertDelivery feed.deliveries } := by
    refine later_of_eq rfl rfl rfl rfl (fun _ ↦ id) fun channelId event hstored ↦
      ⟨hstored.1, hstored.2.imp id ?_⟩
    rintro ⟨row, hrow, hidentity⟩
    exact ⟨row, mem_foldl_insertDelivery hrow, hidentity⟩
  exact ⟨h.later hlater rfl rfl rfl h.sequence_le h.unique_sequence
    (uniqueKey_foldl_insertDelivery h.unique_delivery) h.runs, hlater⟩

theorem mem_cleanConsumedEvents {sequence : ℕ} (h : queued ∈ cleanConsumedEvents queue sequence) :
    queued ∈ queue :=
  List.mem_of_mem_filter h

theorem mem_cleanConsumedEvents_of_lt {sequence : ℕ} (h : queued ∈ queue)
    (hlt : sequence < queued.sequence) :
    queued ∈ cleanConsumedEvents queue sequence := by
  refine List.mem_filter.mpr ⟨h, ?_⟩
  simp only [Bool.not_eq_true', List.contains_eq_mem, decide_eq_false_iff_not]
  intro hconsumed
  have hle := of_decide_eq_true (List.mem_filter.mp (mem_of_mem_selectOrdered hconsumed)).2
  omega

theorem FeedSound.clean (h : FeedSound feed) (sequence : ℕ) :
    FeedSound { feed with queue := cleanConsumedEvents feed.queue sequence } := by
  refine h.later ⟨fun _ hmem ↦ .inl (mem_cleanConsumedEvents hmem), le_rfl, id, fun _ ↦ le_rfl,
    fun _ ↦ id, fun _ _ ↦ id⟩ rfl rfl rfl ?_ ?_ h.unique_delivery h.runs
  · exact fun queued hmem ↦ h.sequence_le queued (mem_cleanConsumedEvents hmem)
  · exact UniqueKey.filter h.unique_sequence _

theorem FeedSound.initializeCursor (h : FeedSound feed) {sequence : ℕ}
    (hle : sequence ≤ feed.newest) (hnone : feed.cursor.updatedAt = none) (now : ℤ) :
    FeedSound { feed with cursor := ⟨sequence, some now⟩, boundary := some sequence } := by
  have hboundary : feed.boundary.isSome = false := by rw [h.initialized, hnone]; rfl
  have hlater : Later feed
      { feed with cursor := ⟨sequence, some now⟩, boundary := some sequence } :=
    ⟨fun _ hmem ↦ .inl hmem, le_rfl, fun _ ↦ rfl, fun hsome ↦ by simp [hboundary] at hsome,
      fun _ ↦ id, fun _ _ ↦ id⟩
  refine ⟨rfl, hle, h.sequence_le, h.unique_sequence, h.unique_delivery, ?_,
    fun run hrun ↦ (h.runs run hrun).mono hlater⟩
  intro boundary hmem queued hqueued hlt hpassed
  obtain rfl : sequence = boundary := Option.some.inj hmem
  exact absurd hpassed (not_le.mpr hlt)

theorem feedSound_advance (h : FeedSound feed) {index : ℕ} {run : Run}
    (hrun : feed.runs[index]? = some run) : FeedSound (advance feed index run) := by
  have hstage := h.runs run (List.mem_of_getElem? hrun)
  obtain ⟨now, stage, reads⟩ := run
  cases stage with
  | loadingCursor =>
    simp only [advance]
    split
    · exact h.setRun index hstage
    · next hsome =>
      have hinitialized : feed.boundary.isSome := by rw [h.initialized, hsome]; rfl
      exact h.setRun index ⟨hstage, hinitialized, le_rfl⟩
  | newestSequence => exact h.setRun index ⟨hstage, newestSequence_le h.sequence_le⟩
  | initializing sequence =>
    simp only [advance]
    split
    · next hnone => exact (h.initializeCursor hstage.2 hnone now).setRun index ⟨rfl, le_rfl⟩
    · next hsome => exact h.setRun index ⟨hstage.1, by rw [h.initialized, hsome]; rfl⟩
  | reloadingCursor => exact h.setRun index ⟨hstage.1, hstage.2, le_rfl⟩
  | loadingEvents lastSequence =>
    obtain ⟨hreads, hinitialized, hle⟩ := hstage
    simp only [advance]
    split
    · exact h.setRun index ⟨hinitialized, hle⟩
    · next head tail hpage =>
      have hsound := h.pageSound hinitialized hle (by rw [hpage]; exact List.cons_ne_nil _ _)
      exact h.setRun index ⟨hreads, hpage ▸ hsound⟩
  | loadingMachines lastSequence events => exact h.setRun index hstage
  | loadingServices lastSequence events machines =>
    obtain ⟨rfl, hpage⟩ := hstage
    exact h.setRun index (stageSound_readRules hpage (hpage.rulesSound _) now)
  | loadingRules lastSequence events resources keys rules =>
    simp only [advance]
    split
    · exact h.setRun index trivial
    · exact h.setRun index (stageSound_readRules hstage.1 hstage.2.read now)
  | persisting lastSequence events resources deliveries =>
    obtain ⟨hpage, hpending⟩ := hstage
    cases deliveries with
    | nil =>
      have hcovered : ∀ queued ∈ events, RulesCovered resources reads queued fun channelId ↦
          Stored feed channelId queued.event.key := fun queued hqueued ↦
        (hpending queued hqueued).mono fun channelId hdone ↦
          hdone.2.resolve_left fun ⟨_, hmem, _⟩ ↦ absurd hmem List.not_mem_nil
      obtain ⟨-, hend, -⟩ := updateCursor_le feed.cursor (endOfPage events lastSequence) now
      exact (h.moveCursor now hpage hcovered).setRun index ⟨hpage.initialized, hend⟩
    | cons head tail =>
      simp only [advance]
      split
      · exact h.setRun index trivial
      · next rows hinsert =>
        obtain ⟨hinserted, hlater⟩ := h.insertBatch hinsert
        refine hinserted.setRun index ⟨hpage.mono hlater, fun queued hqueued ↦
          (hpending queued hqueued).mono fun channelId hdone ↦ ⟨hdone.1, ?_⟩⟩
        rcases hdone.2 with ⟨delivery, hdelivery, hidentity⟩ | hstored
        · rw [← List.take_append_drop Discovery.insertBatch (head :: tail)] at hdelivery
          rcases List.mem_append.mp hdelivery with htaken | hleft
          · obtain ⟨row, hrow, hsame⟩ := exists_foldl_insertDelivery feed.deliveries htaken
            rw [← insertDeliveries_some hinsert] at hrow
            exact .inr ⟨hdone.1, .inr ⟨row, hrow, hsame.trans hidentity⟩⟩
          · exact .inl ⟨delivery, hleft, hidentity⟩
        · exact .inr (hlater.stored _ _ hstored)
  | cleaning sequence => exact (h.clean sequence).setRun index trivial
  | ended | failed => exact h

/-! ## Other statements -/

theorem FeedSound.changeSubscriptions (h : FeedSound feed) {subscriptions : Subscriptions}
    (hdrawn : feed.subscriptions.drawn ⊆ subscriptions.drawn)
    (hchannels : ∀ channel ∈ subscriptions.channels, channel.id ∈ feed.subscriptions.drawn →
      ∃ old ∈ feed.subscriptions.channels, old.id = channel.id) :
    FeedSound { feed with subscriptions } := by
  refine h.later (later_of_eq rfl rfl rfl rfl hdrawn fun channelId event hstored ↦ ?_) rfl rfl rfl
    h.sequence_le h.unique_sequence h.unique_delivery h.runs
  refine ⟨hdrawn hstored.1, hstored.2.imp (fun hgone channel hchannel hid ↦ ?_) id⟩
  obtain ⟨old, hold, hsame⟩ := hchannels channel hchannel (hid ▸ hstored.1)
  exact hgone old hold (hsame.trans hid)

theorem FeedSound.deleteChannel (h : FeedSound feed) (id : String) :
    FeedSound { feed with
      subscriptions := feed.subscriptions.deleteChannel id
      deliveries := feed.deliveries.filter fun row ↦ row.channelId != id } := by
  refine h.later (later_of_eq rfl rfl rfl rfl (List.Subset.refl _) fun channelId event hstored ↦
    ⟨hstored.1, ?_⟩) rfl rfl rfl h.sequence_le h.unique_sequence
    (UniqueKey.filter h.unique_delivery _) h.runs
  by_cases hsame : channelId = id
  · refine .inl fun channel hchannel ↦ ?_
    have hne := (List.mem_filter.mp hchannel).2
    rw [hsame]
    simpa using hne
  · rcases hstored.2 with hgone | ⟨row, hrow, hidentity⟩
    · exact .inl fun channel hchannel ↦ hgone channel (List.mem_of_mem_filter hchannel)
    · refine .inr ⟨row, List.mem_filter.mpr ⟨hrow, ?_⟩, hidentity⟩
      have hchannel : row.channelId = channelId := congrArg Prod.fst hidentity
      simpa [hchannel] using hsame

theorem FeedSound.insertEvent (h : FeedSound feed) (event : StateEvent) :
    FeedSound (feed.insertEvent event) := by
  unfold Feed.insertEvent
  split
  · exact h
  · refine h.later ⟨fun queued hqueued ↦ ?_, Nat.le_succ _, id, fun _ ↦ le_rfl, fun _ ↦ id,
      fun _ _ ↦ id⟩ rfl rfl rfl ?_ ?_ h.unique_delivery h.runs
    · rcases List.mem_append.mp hqueued with hold | hnew
      · exact .inl hold
      · rw [List.mem_singleton.mp hnew]
        exact .inr (Nat.lt_succ_self _)
    · refine List.forall_mem_append.mpr ⟨fun queued hold ↦ ?_, by simp⟩
      exact (h.sequence_le queued hold).trans (Nat.le_succ _)
    · refine uniqueKey_append_singleton h.unique_sequence fun queued hold hsame ↦ ?_
      have hle := h.sequence_le queued hold
      have hsame : queued.sequence = feed.newest + 1 := hsame
      omega

theorem feedSound_step (feed : Feed) (action : Action) (h : FeedSound feed) :
    FeedSound (step feed action) := by
  cases action with
  | tick milliseconds => exact h.of_frame rfl rfl rfl rfl rfl rfl rfl h.runs
  | event event => exact h.insertEvent event
  | expire expired =>
    exact h.later ⟨fun _ hmem ↦ .inl (List.mem_of_mem_filter hmem), le_rfl, id, fun _ ↦ le_rfl,
      fun _ ↦ id, fun _ _ ↦ id⟩ rfl rfl rfl
      (fun queued hmem ↦ h.sequence_le queued (List.mem_of_mem_filter hmem))
      (UniqueKey.filter h.unique_sequence _) h.unique_delivery h.runs
  | changeResources resources => exact h.of_frame rfl rfl rfl rfl rfl rfl rfl h.runs
  | createChannel id workspaceId =>
    simp only [step]
    split
    · next hnew =>
      refine h.changeSubscriptions (List.subset_cons_self _ _) fun channel hchannel hdrawn ↦ ?_
      rcases List.mem_append.mp hchannel with hold | hadded
      · exact ⟨channel, hold, rfl⟩
      · rw [List.mem_singleton.mp hadded] at hdrawn
        exact absurd hdrawn hnew.1
    · exact h
  | updateChannel id enabled =>
    refine h.changeSubscriptions (List.Subset.refl _) fun channel hchannel _ ↦ ?_
    obtain ⟨old, hold, ⟨-, rfl⟩ | ⟨-, rfl⟩⟩ := mem_updateWhere.mp hchannel
    · exact ⟨old, hold, rfl⟩
    · exact ⟨channel, hold, rfl⟩
  | deleteChannel id => exact h.deleteChannel id
  | createRule id key channelId =>
    simp only [step]
    split
    · exact h.changeSubscriptions (List.Subset.refl _) fun channel hchannel _ ↦ ⟨channel, hchannel, rfl⟩
    · exact h
  | deleteRule id =>
    exact h.changeSubscriptions (List.Subset.refl _) fun channel hchannel _ ↦ ⟨channel, hchannel, rfl⟩
  | begin =>
    refine h.of_frame rfl rfl rfl rfl rfl rfl rfl fun run hrun ↦ ?_
    rcases List.mem_append.mp hrun with hold | hnew
    · exact h.runs run hold
    · rw [List.mem_singleton.mp hnew]
      rfl
  | advance index =>
    simp only [step]
    split
    · exact h
    · next run hrun => exact feedSound_advance h hrun
  | crash index =>
    simp only [step]
    split
    · exact h
    · exact h.setRun index trivial

theorem feedSound_empty (clock : ℤ) (resources : Resources) : FeedSound (empty clock resources) where
  initialized := rfl
  cursor_le := le_rfl
  sequence_le _ h := absurd h List.not_mem_nil
  unique_sequence := uniqueKey_nil
  unique_delivery := uniqueKey_nil
  passed _ h := by cases h
  runs _ h := absurd h List.not_mem_nil

/-! ## What is observed -/

def deliveryCount (feed : Feed) (channelId : String) (event : EventKey) : ℕ :=
  feed.deliveries.countP fun row ↦ decide (row.identity = (channelId, event))

/-- Every stored event that was queued after the boundary and that the cursor has passed was on
the page of a run. Each key of the page was requested by a statement of that run, and every
channel that matched it then has exactly one delivery of the event, unless it was deleted. -/
def Discovered (feed : Feed) : Prop :=
  ∀ boundary ∈ feed.boundary, ∀ queued ∈ feed.queue, boundary < queued.sequence →
    queued.sequence ≤ feed.cursor.lastSequence →
      ∃ page ∈ feed.pages, queued ∈ page.events ∧
        ∀ key, page.resources.ruleKey queued.event = some key →
          ∃ read ∈ page.reads, key ∈ read.keys ∧
            ∀ channelId ∈ read.subscriptions.matching key,
              (∃ channel ∈ feed.subscriptions.channels, channel.id = channelId) →
                deliveryCount feed channelId queued.event.key = 1

/-- No event is delivered twice to a channel. -/
def NeverTwice (feed : Feed) : Prop :=
  ∀ channelId event, deliveryCount feed channelId event ≤ 1

/-- A step takes only events from the queue that the cursor has passed, or that are deleted. -/
def CleansPassed (feed : Feed) (action : Action) : Prop :=
  ∀ queued ∈ feed.queue, queued ∈ (step feed action).queue ∨
    queued.sequence ≤ feed.cursor.lastSequence ∨
      ∃ expired, action = .expire expired ∧ queued.event ∈ expired

theorem FeedSound.deliveryCount_eq_one (h : FeedSound feed) {event : EventKey}
    (hrow : ∃ row ∈ feed.deliveries, row.identity = (channelId, event)) :
    deliveryCount feed channelId event = 1 := by
  obtain ⟨row, hmem, hidentity⟩ := hrow
  exact h.unique_delivery.countP_eq_one hmem (by simp [hidentity]) fun other hother ↦
    (of_decide_eq_true hother).trans hidentity.symm

theorem FeedSound.neverTwice (h : FeedSound feed) : NeverTwice feed := by
  intro channelId event
  by_cases hrow : ∃ row ∈ feed.deliveries, row.identity = (channelId, event)
  · exact (h.deliveryCount_eq_one hrow).le
  · refine (List.countP_eq_zero.mpr fun row hmem hidentity ↦ hrow ?_).trans_le (Nat.zero_le _)
    exact ⟨row, hmem, of_decide_eq_true hidentity⟩

theorem FeedSound.discovered (h : FeedSound feed) : Discovered feed := by
  intro boundary hboundary queued hqueued hlt hle
  obtain ⟨page, hpage, hevent, hcovered⟩ := h.passed boundary hboundary queued hqueued hlt hle
  refine ⟨page, hpage, hevent, fun key hkey ↦ ?_⟩
  obtain ⟨read, hread, hmem, hdone⟩ := hcovered key hkey
  refine ⟨read, hread, hmem, fun channelId hchannel hexists ↦ ?_⟩
  obtain ⟨channel, hlive, rfl⟩ := hexists
  exact h.deliveryCount_eq_one ((hdone _ hchannel).2.resolve_left fun hgone ↦ hgone channel hlive rfl)

theorem FeedSound.cleansPassed (feed : Feed) (action : Action) (h : FeedSound feed) :
    CleansPassed feed action := by
  intro queued hqueued
  cases action with
  | expire expired =>
    by_cases hexpired : queued.event ∈ expired
    · exact .inr (.inr ⟨expired, rfl, hexpired⟩)
    · exact .inl (List.mem_filter.mpr ⟨hqueued, by simpa using hexpired⟩)
  | event event =>
    refine .inl ?_
    simp only [step, Feed.insertEvent]
    split
    · exact hqueued
    · exact List.mem_append_left _ hqueued
  | tick | changeResources | updateChannel | deleteChannel | deleteRule | begin =>
    exact .inl hqueued
  | createChannel id workspaceId | createRule id key channelId =>
    refine .inl ?_
    simp only [step]
    split <;> exact hqueued
  | crash index =>
    refine .inl ?_
    simp only [step]
    split <;> exact hqueued
  | advance index =>
    cases hrun : feed.runs[index]? with
    | none => exact .inl (by simpa [step, hrun] using hqueued)
    | some run =>
      have hstage := h.runs run (List.mem_of_getElem? hrun)
      simp only [step, hrun]
      obtain ⟨now, stage, reads⟩ := run
      cases stage with
      | cleaning sequence =>
        by_cases hconsumed : queued.sequence ≤ sequence
        · exact .inr (.inl (hconsumed.trans hstage.2))
        · exact .inl (mem_cleanConsumedEvents_of_lt hqueued (not_le.mp hconsumed))
      | newestSequence | reloadingCursor | loadingMachines | loadingServices | ended | failed =>
        exact .inl hqueued
      | loadingCursor | initializing | loadingEvents | loadingRules =>
        refine .inl ?_
        simp only [advance]
        split <;> exact hqueued
      | persisting lastSequence events resources deliveries =>
        refine .inl ?_
        cases deliveries with
        | nil => exact hqueued
        | cons head tail =>
          simp only [advance]
          split <;> exact hqueued

end AlphaPing.Notifications.Discovery
