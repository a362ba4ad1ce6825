import AlphaPing.Notifications.Coverage

/-!
# A run that is not interrupted moves the cursor

The statements of a run are followed one after the other. The rules and the deliveries are read
and inserted in portions; each portion makes what is left shorter. No statement fails: the rules
of a page are never too many, and the channels of the rules exist.
-/

namespace AlphaPing.Notifications.Discovery

open Library.Tables Library.Runs

/-- The run has ended, and the cursor is past a number of the sequence. -/
def Finished (index sequence : ℕ) (feed : Feed) : Prop :=
  (∃ run, feed.runs[index]? = some run ∧ run.stage = .ended) ∧
    sequence ≤ feed.cursor.lastSequence

variable {feed : Feed} {reads : List RulesRead}

theorem step_advance {index : ℕ} {run : Run} (hrun : feed.runs[index]? = some run) :
    step feed (.advance index) = advance feed index run := by
  simp only [step, hrun]

theorem getElem?_setRun {runs : List Run} {index : ℕ} {run : Run} (hrun : runs[index]? = some run)
    (next : Run) : (runs.set index next)[index]? = some next :=
  List.getElem?_set_self (List.getElem?_eq_some_iff.mp hrun).1

/-- The channels of deliveries or rules exist. -/
def ChannelsExist (feed : Feed) (channelIds : List String) : Prop :=
  ∀ channelId ∈ channelIds, ∃ channel ∈ feed.subscriptions.channels, channel.id = channelId

theorem insertDeliveries_of_channelsExist {batch : List Delivery}
    (h : ChannelsExist feed (batch.map Delivery.channelId)) :
    insertDeliveries feed.subscriptions.channels feed.deliveries batch =
      some (batch.foldl insertDelivery feed.deliveries) := by
  refine if_pos (List.all_eq_true.mpr fun delivery hdelivery ↦ List.any_eq_true.mpr ?_)
  obtain ⟨channel, hchannel, hid⟩ := h _ (List.mem_map_of_mem hdelivery)
  exact ⟨channel, hchannel, by simp [hid]⟩

theorem eventually_cleaned {index sequence : ℕ} {now : ℤ}
    (hrun : feed.runs[index]? = some ⟨now, .cleaning sequence, reads⟩)
    (hle : sequence ≤ feed.cursor.lastSequence) :
    Eventually step (.advance index) (Finished index sequence) feed := by
  refine eventually_of_step (eventually_of_holds ?_)
  rw [step_advance hrun]
  exact ⟨⟨_, getElem?_setRun hrun _, rfl⟩, hle⟩

variable {resources : Resources} {events : List Queued}

theorem eventually_persisted {index lastSequence : ℕ} {now : ℤ} {deliveries : List Delivery}
    (hrun : feed.runs[index]? =
      some ⟨now, .persisting lastSequence events resources deliveries, reads⟩)
    (hchannels : ChannelsExist feed (deliveries.map Delivery.channelId)) :
    Eventually step (.advance index) (Finished index (endOfPage events lastSequence)) feed := by
  -- the length of what is left bounds the number of batches
  induction hlength : deliveries.length using Nat.strong_induction_on generalizing feed deliveries
    with
  | _ length ih =>
    refine eventually_of_step ?_
    rw [step_advance hrun]
    cases deliveries with
    | nil =>
      refine eventually_cleaned (getElem?_setRun hrun _) ?_
      exact (updateCursor_le feed.cursor (endOfPage events lastSequence) now).2.1
    | cons head tail =>
      have hbatch : ChannelsExist feed (((head :: tail).take insertBatch).map Delivery.channelId) :=
        fun channelId hmem ↦ hchannels channelId
          ((List.take_sublist _ _).map Delivery.channelId |>.subset hmem)
      simp only [advance, insertDeliveries_of_channelsExist hbatch]
      refine ih _ ?_ (getElem?_setRun hrun _) ?_ rfl
      · rw [← hlength, List.length_drop, insertBatch, List.length_cons]
        omega
      · exact fun channelId hmem ↦ hchannels channelId
          ((List.drop_sublist _ _).map Delivery.channelId |>.subset hmem)

theorem channelsExist_requestedRules (feed : Feed) (keys : List RuleKey) (limit : ℕ) :
    ChannelsExist feed ((feed.subscriptions.requestedRules keys limit).map Rule.channelId) := by
  intro channelId hmem
  obtain ⟨rule, hrule, rfl⟩ := List.mem_map.mp hmem
  have hcondition := (List.mem_filter.mp (mem_of_mem_selectOrdered hrule)).2
  simp only [Bool.and_eq_true, List.any_eq_true, beq_iff_eq] at hcondition
  obtain ⟨-, channel, hchannel, ⟨hid, -⟩, -⟩ := hcondition
  exact ⟨channel, hchannel, hid⟩

theorem channelId_of_mem_prepareDeliveries {rules : List Rule} {now : ℤ} {delivery : Delivery}
    (h : delivery ∈ prepareDeliveries resources rules events now) :
    delivery.channelId ∈ rules.map Rule.channelId := by
  obtain ⟨queued, -, hmem⟩ := List.mem_flatMap.mp h
  split at hmem
  · exact absurd hmem List.not_mem_nil
  · obtain ⟨rule, hrule, rfl⟩ := List.mem_map.mp hmem
    exact List.mem_map_of_mem (List.mem_of_mem_filter hrule)

theorem eventually_rulesRead {index lastSequence : ℕ} {now : ℤ} {keys : List RuleKey}
    {rules : List Rule} (hsound : FeedSound feed) (hrun : feed.runs[index]? =
      some ⟨now, readRules lastSequence events resources keys rules now, reads⟩)
    (hchannels : ChannelsExist feed (rules.map Rule.channelId)) :
    Eventually step (.advance index) (Finished index (endOfPage events lastSequence)) feed := by
  -- the length of what is left bounds the number of requests
  induction hlength : keys.length using Nat.strong_induction_on generalizing feed keys rules reads
    with
  | _ length ih =>
    cases keys with
    | nil =>
      refine eventually_persisted hrun fun channelId hmem ↦ ?_
      obtain ⟨delivery, hdelivery, rfl⟩ := List.mem_map.mp hmem
      exact hchannels _ (channelId_of_mem_prepareDeliveries hdelivery)
    | cons key rest =>
      have hstage := hsound.runs _ (List.mem_of_getElem? hrun)
      have hfew : ¬ maxMatchedRules < (rules ++ feed.subscriptions.requestedRules
          ((key :: rest).take keyBatch) (maxMatchedRules - rules.length + 1)).length :=
        not_lt.mpr ((Nat.le_add_right _ _).trans hstage.2.read.bound)
      have hnext := feedSound_step feed (.advance index) hsound
      refine eventually_of_step ?_
      rw [step_advance hrun] at hnext ⊢
      simp only [readRules, advance, if_neg hfew] at hnext ⊢
      refine ih _ ?_ hnext (getElem?_setRun hrun _) ?_ rfl
      · rw [← hlength, List.length_drop, keyBatch, List.length_cons]
        omega
      · rw [List.map_append]
        exact List.forall_mem_append.mpr ⟨hchannels, channelsExist_requestedRules feed _ _⟩

theorem eventually_of_setRun {P : Feed → Prop} {index : ℕ} {run : Run} (next : Run)
    (hsound : FeedSound feed) (hrun : feed.runs[index]? = some run)
    (hadvance : advance feed index run = feed.setRun index next)
    (h : FeedSound (feed.setRun index next) → (feed.setRun index next).runs[index]? = some next →
      Eventually step (.advance index) P (feed.setRun index next)) :
    Eventually step (.advance index) P feed := by
  refine eventually_of_step ?_
  have hnext := feedSound_step feed (.advance index) hsound
  rw [step_advance hrun, hadvance] at hnext ⊢
  exact h hnext (getElem?_setRun hrun next)

/-- When an event is behind the cursor, a run that is not interrupted ends past its page. -/
theorem eventually_finished (hsound : FeedSound feed) (hinitialized : feed.boundary.isSome)
    (hpage : loadEvents feed.queue feed.cursor.lastSequence ≠ []) :
    Eventually step (.advance feed.runs.length) (Finished feed.runs.length
      (endOfPage (loadEvents feed.queue feed.cursor.lastSequence) feed.cursor.lastSequence))
      (step feed .begin) := by
  have hupdated : feed.cursor.updatedAt.isSome := hsound.initialized ▸ hinitialized
  obtain ⟨updatedAt, hupdatedAt⟩ := Option.isSome_iff_exists.mp hupdated
  obtain ⟨head, tail, hpage⟩ := List.exists_cons_of_ne_nil hpage
  have hrun : (step feed .begin).runs[feed.runs.length]? =
      some ⟨feed.clock, .loadingCursor, []⟩ := by
    simp [step]
  have hcursor : (step feed .begin).cursor.updatedAt = some updatedAt := hupdatedAt
  -- the cursor, the events, the machines and the services are read
  refine eventually_of_setRun ⟨feed.clock, .loadingEvents feed.cursor.lastSequence, []⟩
    (feedSound_step feed .begin hsound) hrun ?_ fun hsound hrun ↦ ?_
  · simp only [advance, hcursor]
    rfl
  refine eventually_of_setRun
    ⟨feed.clock, .loadingMachines feed.cursor.lastSequence (head :: tail), []⟩
    hsound hrun ?_ fun hsound hrun ↦ ?_
  · have hevents : loadEvents ((step feed .begin).setRun feed.runs.length
        ⟨feed.clock, .loadingEvents feed.cursor.lastSequence, []⟩).queue
          feed.cursor.lastSequence = head :: tail := hpage
    simp only [advance, hevents]
  refine eventually_of_setRun _ hsound hrun rfl fun hsound hrun ↦ ?_
  refine eventually_of_setRun _ hsound hrun rfl fun hsound hrun ↦ ?_
  rw [hpage]
  exact eventually_rulesRead hsound hrun fun _ hmem ↦ absurd hmem List.not_mem_nil

/-- When an event is behind an initialized cursor, a run that is not interrupted ends with the
cursor past an event. -/
def Progresses (feed : Feed) : Prop :=
  feed.boundary.isSome →
    (∃ queued ∈ feed.queue, feed.cursor.lastSequence < queued.sequence) →
      ∃ passed ∈ feed.queue, feed.cursor.lastSequence < passed.sequence ∧
        Eventually step (.advance feed.runs.length) (Finished feed.runs.length passed.sequence)
          (step feed .begin)

theorem FeedSound.progresses (h : FeedSound feed) : Progresses feed := by
  rintro hinitialized ⟨queued, hqueued, hlt⟩
  have hpage : loadEvents feed.queue feed.cursor.lastSequence ≠ [] := by
    intro hnil
    rw [loadEvents, selectOrdered_eq_nil_iff (by decide)] at hnil
    exact List.filter_eq_nil_iff.mp hnil queued hqueued (by simpa using hlt)
  obtain ⟨hmem, hafter⟩ := mem_loadEvents (List.getLast_mem hpage)
  refine ⟨_, hmem, hafter, ?_⟩
  rw [← endOfPage_eq hpage feed.cursor.lastSequence]
  exact eventually_finished h hinitialized hpage

end AlphaPing.Notifications.Discovery
