import AlphaPing.Library.Tables
import AlphaPing.Library.Runs
import Mathlib.Data.Prod.Lex
import Mathlib.Data.String.Basic

/-!
# Discovery of notification events

The insertion of a state event queues it under the next number of the sequence. A discovery run
reads the cursor, a page of queued events, the resources of the events and, in portions, the rules
that match them; it inserts the deliveries in batches, moves the cursor to the end of the page and
deletes what the cursor has passed. The first run of all sets the cursor to the end of the queue.

A run is split at every statement; the two reads of resources that are started together are
executed in the order in which they are started. Any other run, a change of the channels, rules or
resources and an arriving event may come in between, and a run may be lost at any time.

The text that is hashed stands for the identifier of a delivery. A row of the queue holds the
event that it refers to: the trigger inserts it with the event, the foreign key deletes it with
the event. Channel identifiers are UUIDs: one that was drawn is not drawn again.
-/

namespace AlphaPing.Notifications.Discovery

open Library.Tables Library.Runs

def eventLimit : ℕ := 100

def insertBatch : ℕ := 50

def maxMatchedRules : ℕ := 2000

/-- The keys that one statement of `loadRules` reads. -/
def keyBatch : ℕ := 24

def maxChannels : ℕ := 20

def maxRules : ℕ := 1000

inductive ResourceType where
  | machine
  | service
  deriving DecidableEq

def ResourceType.code : ResourceType → String
  | machine => "machine"
  | service => "service"

inductive Dimension where
  | availability
  | resource
  | recovery
  deriving DecidableEq

def Dimension.code : Dimension → String
  | availability => "availability"
  | resource => "resource"
  | recovery => "recovery"

/-! ## Telemetry tables -/

/-- The columns that identify an event as the source of a delivery. -/
structure EventKey where
  workspacePk : ℕ
  resourceType : ResourceType
  resourcePk : ℕ
  occurredAt : ℤ
  eventId : String
  deriving DecidableEq

/-- A row of `state_events`. -/
structure StateEvent where
  key : EventKey
  previousState : String
  currentState : String
  reasonCode : String
  deriving DecidableEq

/-- The primary key of `state_events`. -/
def StateEvent.primaryKey (event : StateEvent) : ResourceType × ℕ × ℤ × String :=
  (event.key.resourceType, event.key.resourcePk, event.key.occurredAt, event.key.eventId)

/-- A row of `notification_event_queue` with its event. -/
structure Queued where
  sequence : ℕ
  event : StateEvent
  deriving DecidableEq

def dimensionForEvent (event : StateEvent) : Dimension :=
  if event.currentState = "healthy" then .recovery
  else if event.reasonCode = "resource_threshold" then .resource
  else .availability

/-! ## Channels and rules -/

structure Channel where
  id : String
  workspaceId : String
  enabled : Bool

structure RuleKey where
  workspaceId : String
  resourceType : ResourceType
  resourceId : String
  dimension : Dimension
  deriving DecidableEq

structure Rule where
  id : String
  key : RuleKey
  channelId : String
  enabled : Bool

/-- The unique columns of `notification_rules`. -/
def Rule.target (rule : Rule) : String × ResourceType × String × Dimension :=
  (rule.channelId, rule.key.resourceType, rule.key.resourceId, rule.key.dimension)

/-- The channels and the rules, with what their constraints and the insertions guarantee. -/
structure Subscriptions where
  channels : List Channel
  rules : List Rule
  drawn : List String
  unique_channel : UniqueKey Channel.id channels
  unique_rule : UniqueKey Rule.target rules
  channels_le : ∀ workspaceId,
    (channels.filter fun channel ↦ channel.workspaceId == workspaceId).length ≤ maxChannels
  channels_drawn : ∀ channel ∈ channels, channel.id ∈ drawn

def Subscriptions.empty : Subscriptions where
  channels := []
  rules := []
  drawn := []
  unique_channel := uniqueKey_nil
  unique_rule := uniqueKey_nil
  channels_le _ := Nat.zero_le _
  channels_drawn _ h := absurd h List.not_mem_nil

def channelPlace (channels : List Channel) (workspaceId : String) : Bool :=
  ((channels.filter fun channel ↦ channel.workspaceId == workspaceId).drop
    (maxChannels - 1)).isEmpty

/-- `createNotificationChannel`. -/
def Subscriptions.createChannel (subscriptions : Subscriptions) (id workspaceId : String)
    (hid : id ∉ subscriptions.drawn)
    (hplace : channelPlace subscriptions.channels workspaceId = true) : Subscriptions where
  channels := subscriptions.channels ++ [⟨id, workspaceId, true⟩]
  rules := subscriptions.rules
  drawn := id :: subscriptions.drawn
  unique_channel := uniqueKey_append_singleton subscriptions.unique_channel fun channel hmem heq ↦
    hid ((show channel.id = id from heq) ▸ subscriptions.channels_drawn channel hmem)
  unique_rule := subscriptions.unique_rule
  channels_le other := by
    rw [List.filter_append, List.length_append]
    have hle := subscriptions.channels_le other
    by_cases hsame : workspaceId = other
    · have hdrop := List.drop_eq_nil_iff.mp (List.isEmpty_iff.mp hplace)
      rw [hsame] at hdrop
      simp only [hsame, beq_self_eq_true, List.filter_cons_of_pos, List.filter_nil,
        List.length_singleton]
      unfold maxChannels at hdrop ⊢
      omega
    · simpa [hsame] using hle
  channels_drawn channel hmem := by
    rcases List.mem_append.mp hmem with hold | hnew
    · exact List.mem_cons_of_mem _ (subscriptions.channels_drawn channel hold)
    · rw [List.mem_singleton.mp hnew]
      exact List.mem_cons_self

/-- The switch of `updateNotificationChannel`. -/
def Subscriptions.updateChannel (subscriptions : Subscriptions) (id : String) (enabled : Bool) :
    Subscriptions where
  channels := updateWhere (fun channel ↦ channel.id == id) (fun channel ↦ { channel with enabled })
    subscriptions.channels
  rules := subscriptions.rules
  drawn := subscriptions.drawn
  unique_channel := subscriptions.unique_channel.updateWhere fun _ ↦ rfl
  unique_rule := subscriptions.unique_rule
  channels_le workspaceId := by
    have hmap : (updateWhere (fun channel ↦ channel.id == id)
        (fun channel ↦ { channel with enabled }) subscriptions.channels).map Channel.workspaceId =
          subscriptions.channels.map Channel.workspaceId :=
      map_updateWhere fun _ ↦ rfl
    have hlength : ∀ channels : List Channel,
        (channels.filter fun channel ↦ channel.workspaceId == workspaceId).length =
          (channels.map Channel.workspaceId).count workspaceId := by
      intro channels
      rw [List.count, List.countP_map, ← List.countP_eq_length_filter]
      rfl
    rw [hlength, hmap, ← hlength]
    exact subscriptions.channels_le workspaceId
  channels_drawn channel hmem := by
    obtain ⟨old, hold, ⟨-, rfl⟩ | ⟨-, rfl⟩⟩ := mem_updateWhere.mp hmem
    · exact subscriptions.channels_drawn old hold
    · exact subscriptions.channels_drawn channel hold

/-- `deleteNotificationChannel`; the rules of the channel go with it. -/
def Subscriptions.deleteChannel (subscriptions : Subscriptions) (id : String) : Subscriptions where
  channels := subscriptions.channels.filter fun channel ↦ channel.id != id
  rules := subscriptions.rules.filter fun rule ↦ rule.channelId != id
  drawn := subscriptions.drawn
  unique_channel := subscriptions.unique_channel.filter _
  unique_rule := subscriptions.unique_rule.filter _
  channels_le workspaceId :=
    (List.filter_sublist.filter _).length_le.trans (subscriptions.channels_le workspaceId)
  channels_drawn channel hmem := subscriptions.channels_drawn channel (List.mem_of_mem_filter hmem)

/-- The statement of `createNotificationRule`. -/
def Subscriptions.createRule (subscriptions : Subscriptions) (id : String) (key : RuleKey)
    (channelId : String) : Subscriptions where
  channels := subscriptions.channels
  rules := upsert Rule.target (fun old ↦ old.key.workspaceId == key.workspaceId)
    (fun old ↦ { old with enabled := true }) ⟨id, key, channelId, true⟩ subscriptions.rules
  drawn := subscriptions.drawn
  unique_channel := subscriptions.unique_channel
  unique_rule := subscriptions.unique_rule.upsert fun _ _ ↦ rfl
  channels_le := subscriptions.channels_le
  channels_drawn := subscriptions.channels_drawn

/-- `deleteNotificationRule`. -/
def Subscriptions.deleteRule (subscriptions : Subscriptions) (id : String) : Subscriptions where
  channels := subscriptions.channels
  rules := subscriptions.rules.filter fun rule ↦ rule.id != id
  drawn := subscriptions.drawn
  unique_channel := subscriptions.unique_channel
  unique_rule := subscriptions.unique_rule.filter _
  channels_le := subscriptions.channels_le
  channels_drawn := subscriptions.channels_drawn

/-- The channels of the rules that match a key: rule and channel are enabled and of one
workspace. -/
def Subscriptions.matching (subscriptions : Subscriptions) (key : RuleKey) : List String :=
  (subscriptions.channels.filter fun channel ↦ channel.enabled && subscriptions.rules.any fun rule ↦
    rule.enabled && rule.channelId == channel.id && rule.key == key &&
      rule.key.workspaceId == channel.workspaceId).map Channel.id

/-- One statement of `loadRules`. -/
def Subscriptions.requestedRules (subscriptions : Subscriptions) (keys : List RuleKey)
    (limit : ℕ) : List Rule :=
  selectOrdered (fun rule : Rule ↦ toLex (rule.key.resourceType.code,
      toLex (rule.key.resourceId, toLex (rule.key.dimension.code, rule.channelId)))) limit
    (subscriptions.rules.filter fun rule ↦ rule.enabled && keys.contains rule.key &&
      subscriptions.channels.any fun channel ↦ channel.id == rule.channelId &&
        channel.workspaceId == rule.key.workspaceId && channel.enabled)

/-! ## Resources and deliveries -/

/-- A machine or a service that is not deleted, with its workspace. -/
structure Resource where
  telemetryPk : ℕ
  id : String
  name : String
  workspaceId : String
  workspacePk : ℕ
  workspaceName : String

/-- The maps of `resolveResources`. -/
structure Resources where
  machines : List Resource
  services : List Resource

def Resources.resolve (resources : Resources) (event : StateEvent) : Option Resource :=
  (match event.key.resourceType with
    | .machine => resources.machines
    | .service => resources.services).findRev? fun row ↦
      row.workspacePk == event.key.workspacePk && row.telemetryPk == event.key.resourcePk

/-- The rows of `loadResourceRows`. -/
def loadResourceRows (rows : List Resource) (resourceType : ResourceType) (events : List Queued) :
    List Resource :=
  rows.filter fun row ↦ events.any fun queued ↦
    queued.event.key.resourceType == resourceType && queued.event.key.resourcePk == row.telemetryPk

/-- The key under which the rules of an event are looked up. -/
def Resources.ruleKey (resources : Resources) (event : StateEvent) : Option RuleKey :=
  (resources.resolve event).map fun resource ↦
    ⟨resource.workspaceId, event.key.resourceType, resource.id, dimensionForEvent event⟩

/-- The keys that `loadRules` requests, each at its first event. -/
def requestedKeys (resources : Resources) (events : List Queued) : List RuleKey :=
  (events.filterMap fun queued ↦ resources.ruleKey queued.event).reverse.dedup.reverse

/-- `NotificationPayload`. -/
structure Payload where
  workspace : String
  resourceType : ResourceType
  resourceName : String
  dimension : Dimension
  previousState : String
  currentState : String
  reasonCode : String
  occurredAt : ℤ

/-- A row of `notification_deliveries` as it is inserted. -/
structure Delivery where
  workspaceId : String
  channelId : String
  event : EventKey
  dimension : Dimension
  payload : Payload
  createdAt : ℤ

/-- The unique columns of `notification_deliveries`, and what is hashed to the identifier. -/
def Delivery.identity (delivery : Delivery) : String × EventKey :=
  (delivery.channelId, delivery.event)

def newDelivery (resource : Resource) (event : StateEvent) (channelId : String) (now : ℤ) :
    Delivery where
  workspaceId := resource.workspaceId
  channelId := channelId
  event := event.key
  dimension := dimensionForEvent event
  payload :=
    { workspace := resource.workspaceName
      resourceType := event.key.resourceType
      resourceName := resource.name
      dimension := dimensionForEvent event
      previousState := event.previousState
      currentState := event.currentState
      reasonCode := event.reasonCode
      occurredAt := event.key.occurredAt }
  createdAt := now

def prepareDeliveries (resources : Resources) (rules : List Rule) (events : List Queued) (now : ℤ) :
    List Delivery :=
  events.flatMap fun queued ↦
    match resources.resolve queued.event with
    | none => []
    | some resource =>
      (rules.filter fun rule ↦ some rule.key == resources.ruleKey queued.event).map fun rule ↦
        newDelivery resource queued.event rule.channelId now

/-- `INSERT OR IGNORE INTO notification_deliveries`. -/
def insertDelivery (rows : List Delivery) (delivery : Delivery) : List Delivery :=
  if rows.any fun row ↦ row.identity == delivery.identity then rows else rows ++ [delivery]

/-- A batch of `persistDeliveries`; it fails when a channel is gone. -/
def insertDeliveries (channels : List Channel) (rows batch : List Delivery) :
    Option (List Delivery) :=
  if batch.all fun delivery ↦ channels.any fun channel ↦ channel.id == delivery.channelId then
    some (batch.foldl insertDelivery rows)
  else none

/-! ## Runs -/

/-- The row of `notification_event_cursors`. -/
structure Cursor where
  lastSequence : ℕ
  /-- The time `0` of a cursor that is not initialized is `none`. -/
  updatedAt : Option ℤ

/-- What is left to do in a run. -/
inductive Stage where
  | loadingCursor
  | newestSequence
  | initializing (sequence : ℕ)
  | reloadingCursor
  | loadingEvents (lastSequence : ℕ)
  | loadingMachines (lastSequence : ℕ) (events : List Queued)
  | loadingServices (lastSequence : ℕ) (events : List Queued) (machines : List Resource)
  | loadingRules (lastSequence : ℕ) (events : List Queued) (resources : Resources)
      (keys : List RuleKey) (rules : List Rule)
  | persisting (lastSequence : ℕ) (events : List Queued) (resources : Resources)
      (deliveries : List Delivery)
  | cleaning (sequence : ℕ)
  | ended
  | failed

/-- The keys that a statement requested and the rules that it found. -/
structure RulesRead where
  keys : List RuleKey
  subscriptions : Subscriptions

/-- A run; its reads of the rules are remembered. -/
structure Run where
  now : ℤ
  stage : Stage
  reads : List RulesRead

/-- A page of events that the cursor has passed, as its run has read it. -/
structure Page where
  events : List Queued
  resources : Resources
  reads : List RulesRead

/-- The stores with the runs, and what is remembered of the pages that were passed. -/
structure Feed where
  clock : ℤ
  resources : Resources
  subscriptions : Subscriptions
  cursor : Cursor
  deliveries : List Delivery
  stateEvents : List StateEvent
  queue : List Queued
  /-- The row of the queue in `sqlite_sequence`. -/
  newest : ℕ
  runs : List Run
  /-- Where the first run has set the cursor. -/
  boundary : Option ℕ
  pages : List Page

inductive Action where
  | tick (milliseconds : ℕ)
  /-- A state event is inserted. -/
  | event (event : StateEvent)
  /-- State events are deleted by the retention. -/
  | expire (expired : List StateEvent)
  /-- The machines, services and workspaces change. -/
  | changeResources (resources : Resources)
  | createChannel (id workspaceId : String)
  | updateChannel (id : String) (enabled : Bool)
  | deleteChannel (id : String)
  | createRule (id : String) (key : RuleKey) (channelId : String)
  | deleteRule (id : String)
  | begin
  | advance (run : ℕ)
  /-- A run is lost, or its statement fails. -/
  | crash (run : ℕ)

def Feed.setRun (feed : Feed) (index : ℕ) (run : Run) : Feed :=
  { feed with runs := feed.runs.set index run }

def newestSequence (queue : List Queued) : ℕ :=
  (queue.map Queued.sequence).foldl max 0

def loadEvents (queue : List Queued) (lastSequence : ℕ) : List Queued :=
  selectOrdered Queued.sequence eventLimit
    (queue.filter fun queued ↦ decide (lastSequence < queued.sequence))

def cleanConsumedEvents (queue : List Queued) (sequence : ℕ) : List Queued :=
  let consumed := selectOrdered Queued.sequence eventLimit
    (queue.filter fun queued ↦ decide (queued.sequence ≤ sequence))
  queue.filter fun queued ↦ !consumed.contains queued

def updateCursor (cursor : Cursor) (sequence : ℕ) (now : ℤ) : Cursor :=
  if cursor.lastSequence ≤ sequence then ⟨sequence, some now⟩ else cursor

def endOfPage (events : List Queued) (lastSequence : ℕ) : ℕ :=
  (events.getLast?.map Queued.sequence).getD lastSequence

/-- The next portion of rules, or the deliveries when all rules are read. -/
def readRules (lastSequence : ℕ) (events : List Queued) (resources : Resources)
    (keys : List RuleKey) (rules : List Rule) (now : ℤ) : Stage :=
  match keys with
  | [] => .persisting lastSequence events resources (prepareDeliveries resources rules events now)
  | _ :: _ => .loadingRules lastSequence events resources keys rules

/-- One statement of a run. -/
def advance (feed : Feed) (index : ℕ) (run : Run) : Feed :=
  let goTo := fun stage ↦ feed.setRun index { run with stage }
  match run.stage with
  | .loadingCursor =>
    match feed.cursor.updatedAt with
    | none => goTo .newestSequence
    | some _ => goTo (.loadingEvents feed.cursor.lastSequence)
  | .newestSequence => goTo (.initializing (newestSequence feed.queue))
  | .initializing sequence =>
    match feed.cursor.updatedAt with
    | none =>
      { feed with
        cursor := ⟨sequence, some run.now⟩
        boundary := some sequence }.setRun index { run with stage := .cleaning sequence }
    | some _ => goTo .reloadingCursor
  | .reloadingCursor => goTo (.loadingEvents feed.cursor.lastSequence)
  | .loadingEvents lastSequence =>
    match loadEvents feed.queue lastSequence with
    | [] => goTo (.cleaning lastSequence)
    | events@(_ :: _) => goTo (.loadingMachines lastSequence events)
  | .loadingMachines lastSequence events =>
    goTo (.loadingServices lastSequence events
      (loadResourceRows feed.resources.machines .machine events))
  | .loadingServices lastSequence events machines =>
    let resources : Resources :=
      ⟨machines, loadResourceRows feed.resources.services .service events⟩
    goTo (readRules lastSequence events resources (requestedKeys resources events) [] run.now)
  | .loadingRules lastSequence events resources keys rules =>
    let found := rules ++ feed.subscriptions.requestedRules (keys.take keyBatch)
      (maxMatchedRules - rules.length + 1)
    if maxMatchedRules < found.length then goTo .failed
    else
      feed.setRun index { run with
        stage := readRules lastSequence events resources (keys.drop keyBatch) found run.now
        reads := run.reads ++ [(⟨keys.take keyBatch, feed.subscriptions⟩ : RulesRead)] }
  | .persisting lastSequence events resources deliveries =>
    match deliveries with
    | [] =>
      let sequence := endOfPage events lastSequence
      { feed with
        cursor := updateCursor feed.cursor sequence run.now
        pages := feed.pages ++ [(⟨events, resources, run.reads⟩ : Page)] }.setRun index
          { run with stage := .cleaning sequence }
    | _ :: _ =>
      match insertDeliveries feed.subscriptions.channels feed.deliveries
          (deliveries.take insertBatch) with
      | none => goTo .failed
      | some rows =>
        { feed with deliveries := rows }.setRun index { run with
          stage := .persisting lastSequence events resources (deliveries.drop insertBatch) }
  | .cleaning sequence =>
    { feed with queue := cleanConsumedEvents feed.queue sequence }.setRun index
      { run with stage := .ended }
  | .ended | .failed => feed

/-- `INSERT OR IGNORE INTO state_events` with the trigger that queues the event. -/
def Feed.insertEvent (feed : Feed) (event : StateEvent) : Feed :=
  if feed.stateEvents.any fun old ↦ old.primaryKey == event.primaryKey then feed
  else
    { feed with
      stateEvents := feed.stateEvents ++ [event]
      queue := feed.queue ++ [⟨feed.newest + 1, event⟩]
      newest := feed.newest + 1 }

/-- The conditions of `createNotificationRule` on the tables. -/
def Feed.acceptsRule (feed : Feed) (key : RuleKey) (channelId : String) : Bool :=
  ((match key.resourceType with
    | .machine => feed.resources.machines
    | .service => feed.resources.services).any fun row ↦
      row.id == key.resourceId && row.workspaceId == key.workspaceId) &&
  (feed.subscriptions.channels.any fun channel ↦
    channel.id == channelId && channel.workspaceId == key.workspaceId) &&
  ((feed.subscriptions.rules.filter fun rule ↦
    rule.key.workspaceId == key.workspaceId).drop (maxRules - 1)).isEmpty

def step (feed : Feed) : Action → Feed
  | .tick milliseconds => { feed with clock := feed.clock + milliseconds }
  | .event event => feed.insertEvent event
  | .expire expired =>
    { feed with
      stateEvents := feed.stateEvents.filter fun event ↦ !expired.contains event
      queue := feed.queue.filter fun queued ↦ !expired.contains queued.event }
  | .changeResources resources => { feed with resources }
  | .createChannel id workspaceId =>
    if h : id ∉ feed.subscriptions.drawn ∧
        channelPlace feed.subscriptions.channels workspaceId = true then
      { feed with
        subscriptions := feed.subscriptions.createChannel id workspaceId h.1 h.2 }
    else feed
  | .updateChannel id enabled =>
    { feed with subscriptions := feed.subscriptions.updateChannel id enabled }
  | .deleteChannel id =>
    { feed with
      subscriptions := feed.subscriptions.deleteChannel id
      deliveries := feed.deliveries.filter fun row ↦ row.channelId != id }
  | .createRule id key channelId =>
    if feed.acceptsRule key channelId then
      { feed with subscriptions := feed.subscriptions.createRule id key channelId }
    else feed
  | .deleteRule id =>
    { feed with subscriptions := feed.subscriptions.deleteRule id }
  | .begin =>
    { feed with runs := feed.runs ++ [⟨feed.clock, .loadingCursor, []⟩] }
  | .advance index =>
    match feed.runs[index]? with
    | none => feed
    | some run => advance feed index run
  | .crash index =>
    match feed.runs[index]? with
    | none => feed
    | some run => feed.setRun index { run with stage := .failed }

/-- A store without events, channels and deliveries. -/
def empty (clock : ℤ) (resources : Resources) : Feed where
  clock := clock
  resources := resources
  subscriptions := .empty
  cursor := ⟨0, none⟩
  deliveries := []
  stateEvents := []
  queue := []
  newest := 0
  runs := []
  boundary := none
  pages := []

end AlphaPing.Notifications.Discovery
