import NetBridge.Base.SlidingWindow
import NetBridge.Topic.Metrics

/-!
# The metrics window

The deques of recent messages that `recordSend`, `recordReceive` and `GetMetricsSnapshot` prune,
`src/swarm_ros_bridge/src/topic_factory.cpp:517–522,529–540,559–590`. The rates and the JPEG
adaptation read them as the messages of the last `rate_window_sec`.
-/

namespace NetBridge.Topic

open NetBridge.Base NetBridge.Diagnostics

/-- A call that prunes the window. -/
inductive MetricsEvent where
  | recordSend (bytes : UInt64)
  | recordReceive (bytes : UInt64) (latencyMs : Float)
  | getMetricsSnapshot

namespace MetricsEvent

/-- A call at a reading of the clock. Of `GetMetricsSnapshot` it is what it changes. -/
def step (topicCfg : TopicCfg) (state : TopicRuntimeState) :
    RosTime × MetricsEvent → TopicRuntimeState
  | (now, recordSend bytes) => Topic.recordSend topicCfg bytes now state
  | (now, recordReceive bytes latencyMs) => Topic.recordReceive bytes latencyMs now state
  | (now, getMetricsSnapshot) => pruneMetricsWindowLocked now state

/-- The metrics of a new factory after a list of calls. -/
def run (topicCfg : TopicCfg) (events : List (RosTime × MetricsEvent)) : TopicRuntimeState :=
  events.foldl (step topicCfg) (initialMetrics topicCfg)

/-- One more event is handled last. -/
theorem run_concat (topicCfg : TopicCfg) (events : List (RosTime × MetricsEvent))
    (event : RosTime × MetricsEvent) :
    run topicCfg (events ++ [event]) = step topicCfg (run topicCfg events) event :=
  List.foldl_append

/-- The entry that a call adds to the send window. -/
def sent : RosTime × MetricsEvent → RosTime × Option (RosTime × UInt64)
  | (now, recordSend bytes) => (now, some (now, bytes))
  | (now, recordReceive _ _) | (now, getMetricsSnapshot) => (now, none)

/-- The entry that a call adds to the receive window. -/
def received : RosTime × MetricsEvent → RosTime × Option (RosTime × UInt64)
  | (now, recordReceive bytes _) => (now, some (now, bytes))
  | (now, recordSend _) | (now, getMetricsSnapshot) => (now, none)

/-- A send is counted at its time. -/
@[simp] theorem sent_time (event : RosTime × MetricsEvent) : (sent event).1 = event.1 := by
  rcases event with ⟨now, _ | _ | _⟩ <;> rfl

/-- A receipt is counted at its time. -/
@[simp] theorem received_time (event : RosTime × MetricsEvent) :
    (received event).1 = event.1 := by
  rcases event with ⟨now, _ | _ | _⟩ <;> rfl

end MetricsEvent

/-- Whether an entry is older than the window. -/
def expired (now : RosTime) (entry : RosTime × UInt64) : Bool := now.since entry.1 > rateWindow

/-- Entries that are older than the window stand in front of the others. -/
def ExpiresInOrder (now : RosTime) (recent : List (RosTime × UInt64)) : Prop :=
  recent.Pairwise fun entry next ↦ expired now next = true → expired now entry = true

/-- Each direction has the entries that were within the window at every call since, in both of its
deques. -/
structure WindowExact (topicCfg : TopicCfg) (events : List (RosTime × MetricsEvent)) : Prop where
  sendBytes : (MetricsEvent.run topicCfg events).recentSendBytes =
    retained expired (events.map MetricsEvent.sent)
  sendTimes : (MetricsEvent.run topicCfg events).recentSendTimes =
    (retained expired (events.map MetricsEvent.sent)).map Prod.fst
  recvBytes : (MetricsEvent.run topicCfg events).recentRecvBytes =
    retained expired (events.map MetricsEvent.received)
  recvTimes : (MetricsEvent.run topicCfg events).recentRecvTimes =
    (retained expired (events.map MetricsEvent.received)).map Prod.fst

/-! ## Each deque slides -/

/-- The deques of the two directions. -/
structure Windows where
  sendTimes : List RosTime
  sendBytes : List (RosTime × UInt64)
  recvTimes : List RosTime
  recvBytes : List (RosTime × UInt64)

/-- The deques of a state. -/
def windows (state : TopicRuntimeState) : Windows :=
  ⟨state.recentSendTimes, state.recentSendBytes, state.recentRecvTimes, state.recentRecvBytes⟩

/-- What a call does to the deques. -/
def Windows.slide (w : Windows) (event : RosTime × MetricsEvent) : Windows :=
  let sent := (MetricsEvent.sent event).2.toList
  let received := (MetricsEvent.received event).2.toList
  ⟨pruneWindow id event.1 w.sendTimes ++ sent.map Prod.fst,
    w.sendBytes.dropWhile (expired event.1) ++ sent,
    pruneWindow id event.1 w.recvTimes ++ received.map Prod.fst,
    w.recvBytes.dropWhile (expired event.1) ++ received⟩

section

variable (topicCfg : TopicCfg) (now : RosTime) (state : TopicRuntimeState)

/-- Adapting the quality leaves the deques. -/
@[simp] theorem windows_maybeAdaptImageQualityLocked :
    windows (maybeAdaptImageQualityLocked topicCfg now state) = windows state := by
  rcases maybeAdaptImageQualityLocked_cases topicCfg now state with h | ⟨_, _, h⟩
  · rw [h]
  · rw [h]
    rfl

/-- Latencies leave the deques. -/
@[simp] theorem windows_computeLatencyStats (latencyMs : Float) :
    windows (computeLatencyStats latencyMs state) = windows state := by
  rcases computeLatencyStats_eq state latencyMs with ⟨_, _, _, h⟩
  rw [h]
  rfl

/-- A call prunes every deque and adds its own entry. -/
theorem windows_step (event : RosTime × MetricsEvent) :
    windows (MetricsEvent.step topicCfg state event) = (windows state).slide event := by
  rcases event with ⟨now, event⟩
  cases event with
  | recordSend bytes =>
    show windows (recordSend topicCfg bytes now state) = _
    rw [recordSend, windows_maybeAdaptImageQualityLocked]
    simp only [Windows.slide, MetricsEvent.sent, MetricsEvent.received, Option.toList_none,
      List.map_nil, List.append_nil]
    rfl
  | recordReceive bytes latencyMs =>
    show windows (recordReceive bytes latencyMs now state) = _
    rw [recordReceive, windows_computeLatencyStats]
    simp only [Windows.slide, MetricsEvent.sent, MetricsEvent.received, Option.toList_none,
      List.map_nil, List.append_nil]
    rfl
  | getMetricsSnapshot =>
    show windows (pruneMetricsWindowLocked now state) = _
    simp only [Windows.slide, MetricsEvent.sent, MetricsEvent.received, Option.toList_none,
      List.map_nil, List.append_nil]
    rfl

end

/-- The deques after a list of calls. -/
theorem windows_run (topicCfg : TopicCfg) (events : List (RosTime × MetricsEvent)) :
    windows (MetricsEvent.run topicCfg events) =
      ⟨(slide expired (events.map MetricsEvent.sent)).map Prod.fst,
        slide expired (events.map MetricsEvent.sent),
        (slide expired (events.map MetricsEvent.received)).map Prod.fst,
        slide expired (events.map MetricsEvent.received)⟩ := by
  induction events using List.reverseRecOn with
  | nil => rfl
  | append_singleton events event ih =>
    have hprune : ∀ recent : List (RosTime × UInt64),
        pruneWindow id event.1 (recent.map Prod.fst) =
          (recent.dropWhile (expired event.1)).map Prod.fst := fun recent ↦ List.dropWhile_map
    rw [MetricsEvent.run_concat, windows_step, ih]
    simp only [Windows.slide, hprune, List.map_append, List.map_cons, List.map_nil, slide_concat,
      MetricsEvent.sent_time, MetricsEvent.received_time]

/-- The deques of a direction always list the same messages, so its window is exact as soon as its
bytes are. -/
theorem windowExact_iff (topicCfg : TopicCfg) (events : List (RosTime × MetricsEvent)) :
    WindowExact topicCfg events ↔
      slide expired (events.map MetricsEvent.sent) =
        retained expired (events.map MetricsEvent.sent) ∧
      slide expired (events.map MetricsEvent.received) =
        retained expired (events.map MetricsEvent.received) := by
  have hrun := windows_run topicCfg events
  simp only [windows, Windows.mk.injEq] at hrun
  rcases hrun with ⟨hsendTimes, hsendBytes, hrecvTimes, hrecvBytes⟩
  constructor
  · intro h
    exact ⟨hsendBytes.symm.trans h.sendBytes, hrecvBytes.symm.trans h.recvBytes⟩
  · rintro ⟨hsent, hreceived⟩
    rw [hsent] at hsendTimes hsendBytes
    rw [hreceived] at hrecvTimes hrecvBytes
    exact ⟨hsendBytes, hsendTimes, hrecvBytes, hrecvTimes⟩

private theorem expiresInOrder_slide {event : RosTime × MetricsEvent →
      RosTime × Option (RosTime × UInt64)}
    (htime : ∀ call entry, (event call).2 = some entry → entry.1 = call.1)
    {events : List (RosTime × MetricsEvent)}
    (hclock : events.Pairwise fun before call ↦ before.1.toNSec ≤ call.1.toNSec) (now : RosTime) :
    ExpiresInOrder now (slide expired (events.map event)) := by
  have hentries : ((events.map event).filterMap Prod.snd).Pairwise fun entry next ↦
      entry.1.toNSec ≤ next.1.toNSec := by
    rw [List.filterMap_map, List.pairwise_filterMap]
    apply hclock.imp
    intro before call hle entry hentry next hnext
    rw [htime before entry hentry, htime call next hnext]
    exact hle
  refine (hentries.sublist (slide_sublist _)).imp ?_
  intro entry next hle hexpired
  have hnat := UInt64.le_iff_toNat_le.mp hle
  have hage : now.since next.1 > rateWindow := of_decide_eq_true hexpired
  apply decide_eq_true
  unfold RosTime.since at hage ⊢
  omega

/-- While the clock does not step back, the entries older than the window stand in front. -/
theorem expiresInOrder_of_clock (topicCfg : TopicCfg) {events : List (RosTime × MetricsEvent)}
    (hclock : events.Pairwise fun before call ↦ before.1.toNSec ≤ call.1.toNSec) (now : RosTime) :
    ExpiresInOrder now (MetricsEvent.run topicCfg events).recentSendBytes ∧
      ExpiresInOrder now (MetricsEvent.run topicCfg events).recentRecvBytes := by
  have hrun := windows_run topicCfg events
  simp only [windows, Windows.mk.injEq] at hrun
  rw [hrun.2.1, hrun.2.2.2]
  constructor
  · apply expiresInOrder_slide _ hclock now
    rintro ⟨time, _ | _ | _⟩ entry hentry <;> cases hentry
    rfl
  · apply expiresInOrder_slide _ hclock now
    rintro ⟨time, _ | _ | _⟩ entry hentry <;> cases hentry
    rfl

/-- The window of each direction is exact after every call, exactly if at each call the entries
older than the window stand in front of the others. -/
theorem windows_exact_iff (topicCfg : TopicCfg) (events : List (RosTime × MetricsEvent)) :
    (∀ front, front <+: events → WindowExact topicCfg front) ↔
      ∀ front event rest, events = front ++ event :: rest →
        ExpiresInOrder event.1 (MetricsEvent.run topicCfg front).recentSendBytes ∧
        ExpiresInOrder event.1 (MetricsEvent.run topicCfg front).recentRecvBytes := by
  have hsent := slide_eq_retained_iff expired MetricsEvent.sent events
  have hreceived := slide_eq_retained_iff expired MetricsEvent.received events
  have hsendBytes : ∀ front, (MetricsEvent.run topicCfg front).recentSendBytes =
      slide expired (front.map MetricsEvent.sent) := fun front ↦
    congrArg Windows.sendBytes (windows_run topicCfg front)
  have hrecvBytes : ∀ front, (MetricsEvent.run topicCfg front).recentRecvBytes =
      slide expired (front.map MetricsEvent.received) := fun front ↦
    congrArg Windows.recvBytes (windows_run topicCfg front)
  simp only [MetricsEvent.sent_time] at hsent
  simp only [MetricsEvent.received_time] at hreceived
  simp only [ExpiresInOrder, hsendBytes, hrecvBytes, windowExact_iff]
  constructor
  · intro hexact front event rest hsplit
    exact ⟨hsent.mp (fun front hf ↦ (hexact front hf).1) front event rest hsplit,
      hreceived.mp (fun front hf ↦ (hexact front hf).2) front event rest hsplit⟩
  · intro hordered front hf
    exact ⟨hsent.mpr (fun front event rest hsplit ↦ (hordered front event rest hsplit).1) front hf,
      hreceived.mpr (fun front event rest hsplit ↦ (hordered front event rest hsplit).2) front hf⟩

/-- Two messages that a clock stepping back by 50 s puts in the window, and a snapshot 10 s
later. -/
theorem windows_not_exact_of_step :
    ¬∀ front, front <+: [(⟨100, 0⟩, .recordSend 1000), (⟨50, 0⟩, .recordSend 1000),
      (⟨60, 0⟩, .getMetricsSnapshot)] → WindowExact {} front := by
  intro hexact
  have hslide := ((windowExact_iff {} _).mp (hexact _ (List.prefix_refl _))).1
  revert hslide
  decide

end NetBridge.Topic
