import NetBridge.Base.Series
import NetBridge.Diagnostics.TopicMetrics
import NetBridge.Tui.App

/-!
# The log

The records of `/rosout`, from the callback
(`src/swarm_ros_bridge/src/nodes/bridge_tui_main.cpp:20–80`) through `LogStore`
(`src/tui/log_store.cpp`) to `RenderLogsScreen` (`src/tui/logs_screen.cpp`). The spinner thread may
append between the two reads of a drawing. Of the elements there are the texts and the widths.
-/

namespace NetBridge.Tui

open NetBridge.Base NetBridge.Diagnostics

/-! ## Records -/

/-- `rosgraph_msgs::Log` with the members that are read. -/
structure Log where
  stamp : RosTime := {}
  level : UInt8
  name : Bytes
  msg : Bytes

/-- `LogRecord`; `log_store.hpp:13–18`. -/
structure LogRecord where
  stamp : Bytes
  level : Bytes
  node : Bytes
  message : Bytes
deriving DecidableEq

/-- The members of `std::tm` that are read. -/
structure Tm where
  hour : Int
  min : Int
  sec : Int

/-- `std::setw(2)` with `std::setfill('0')`. -/
def twoDigits (value : Int) : Bytes :=
  List.replicate (2 - (intToString value).length) 48 ++ intToString value

/-- `LevelToString`; `bridge_tui_main.cpp:22–37`. -/
def levelToString (level : UInt8) : Bytes :=
  if level = 1 then ascii "DEBUG"
  else if level = 2 then ascii "INFO"
  else if level = 4 then ascii "WARN"
  else if level = 8 then ascii "ERROR"
  else if level = 16 then ascii "FATAL"
  else ascii "DEBUG"

section

variable (localtime : UInt32 → Tm)

/-- `StampToString` with the clock at `now`; `bridge_tui_main.cpp:39–51`. -/
def stampToString (now : RosTime) (message : Log) : Bytes :=
  let stamp := if message.stamp.isZero then now else message.stamp
  let local_ := localtime stamp.sec
  twoDigits local_.hour ++ ascii ":" ++ twoDigits local_.min ++ ascii ":" ++ twoDigits local_.sec

/-- The record of a message; `bridge_tui_main.cpp:74–78`. -/
def logRecord (message : RosTime × Log) : LogRecord where
  stamp := stampToString localtime message.1 message.2
  level := levelToString message.2.level
  node := message.2.name
  message := message.2.msg

end

/-! ## The store -/

/-- `pop_front` while there are more than fit; `log_store.cpp:29–31`. -/
def popFrontToFit {α : Type} (capacity : Nat) : List α → List α
  | [] => []
  | oldest :: rest =>
    if rest.length + 1 > capacity then popFrontToFit capacity rest else oldest :: rest

/-- The last ones are kept. -/
theorem popFrontToFit_eq {α : Type} (capacity : Nat) (values : List α) :
    popFrontToFit capacity values = values.rtake capacity := by
  induction values with
  | nil => rw [popFrontToFit, List.rtake_nil]
  | cons oldest rest ih =>
    rw [popFrontToFit, rtake_cons]
    by_cases hroom : rest.length < capacity
    · rw [if_neg (by omega), if_pos hroom]
    · rw [if_pos (by omega), if_neg hroom, ih]

/-- `kCapacity`; `log_store.hpp:33`. -/
def logCapacity : Nat := 500

/-- `LogStore`; `log_store.hpp:22–34`. It never holds more records than fit. -/
structure LogStore where
  records : List LogRecord := []
  bounded : records.length ≤ logCapacity := by decide

namespace LogStore

/-- `LevelRank`; `log_store.cpp:13–24`. -/
def levelRank (level : Bytes) : Int :=
  if level = ascii "INFO" ∨ level = ascii "Info" then 10
  else if level = ascii "WARN" ∨ level = ascii "Warn" then 20
  else if level = ascii "ERROR" ∨ level = ascii "Error" ∨ level = ascii "FATAL" then 30
  else 0

/-- `Append`; `log_store.cpp:26–32`. -/
def append (s : LogStore) (record : LogRecord) : LogStore where
  records := popFrontToFit logCapacity (s.records ++ [record])
  bounded := by
    rw [popFrontToFit_eq, length_rtake]
    exact Nat.min_le_left _ _

/-- `Records`; `log_store.cpp:34–45`. -/
def recordsFrom (s : LogStore) (minLevel : Bytes) : List LogRecord :=
  s.records.filter fun record ↦ levelRank record.level ≥ levelRank minLevel

/-- `TotalCount`; `log_store.cpp:47–50`. -/
def totalCount (s : LogStore) : Nat := s.records.length

/-- The store after some calls of the callback; `bridge_tui_main.cpp:73–80`. -/
def receive (localtime : UInt32 → Tm) (s : LogStore) (messages : List (RosTime × Log)) :
    LogStore :=
  messages.foldl (fun s message ↦ s.append (logRecord localtime message)) s

/-- A store has the last records of all. -/
theorem records_receive (localtime : UInt32 → Tm) (messages : List (RosTime × Log)) :
    (receive localtime {} messages).records =
      (messages.map (logRecord localtime)).rtake logCapacity := by
  induction messages using List.reverseRecOn with
  | nil => rw [List.map_nil, List.rtake_nil]; rfl
  | append_singleton messages message ih =>
    unfold receive at ih ⊢
    rw [List.foldl_append, List.foldl_cons, List.foldl_nil, append]
    dsimp only
    rw [popFrontToFit_eq, ih, rtake_concat_rtake, List.map_append]
    rfl

end LogStore

/-! ## The screen -/

/-- `LayoutMode`; `screen_common.hpp:12`. -/
inductive LayoutMode where
  | compact
  | medium
  | wide
deriving DecidableEq

/-- `LayoutContext`; `screen_common.hpp:14–25`. -/
structure LayoutContext where
  terminalWidth : Int := 80
  terminalHeight : Int := 24
  contentWidth : Int := 80
  contentHeight : Int := 19
  shortHeight : Bool := false
  mode : LayoutMode := .medium

/-- `MakeLayoutContext`; `screen_common.hpp:27–45`. -/
def makeLayoutContext (width height : Int) : LayoutContext :=
  let terminalWidth := if width > 0 then width else 80
  let terminalHeight := if height > 0 then height else 24
  let contentHeight := max 1 (terminalHeight - 5)
  { terminalWidth, terminalHeight
    contentWidth := terminalWidth
    contentHeight
    shortHeight := contentHeight < 18
    mode :=
      if terminalWidth < 72 ∨ contentHeight < 14 then .compact
      else if terminalWidth ≥ 104 ∧ contentHeight ≥ 22 then .wide
      else .medium }

namespace LayoutContext

/-- `compact`. -/
def compact (layout : LayoutContext) : Bool := layout.mode = .compact

/-- `bare_layout`; `logs_screen.cpp:55`. -/
def bare (layout : LayoutContext) : Bool := layout.compact && layout.shortHeight

/-- `body_width`; `logs_screen.cpp:56–57`. -/
def bodyWidth (layout : LayoutContext) : Int :=
  max 1 (layout.contentWidth - if layout.bare then 0 else 2)

/-- `visible_capacity`; `logs_screen.cpp:58–59`. -/
def visibleCapacity (layout : LayoutContext) : Int :=
  max 1 (layout.contentHeight - if layout.bare then 1 else 9)

/-- On any terminal the rows fit the content, next to the nine lines of borders and filters where
these are drawn. -/
theorem visibleCapacity_make (width height : Int) :
    (makeLayoutContext width height).visibleCapacity +
        (if (makeLayoutContext width height).bare then 0 else 9) ≤
      (makeLayoutContext width height).contentHeight := by
  have hcontent : 1 ≤ (makeLayoutContext width height).contentHeight := Int.le_max_left ..
  have htall : (makeLayoutContext width height).bare = false →
      14 ≤ (makeLayoutContext width height).contentHeight := by
    intro hbare
    by_contra hlow
    have hshort : (makeLayoutContext width height).shortHeight = true := by
      show decide ((makeLayoutContext width height).contentHeight < 18) = true
      rw [decide_eq_true_iff]
      omega
    have hmode : (makeLayoutContext width height).mode = .compact :=
      if_pos (Or.inr (by omega : (makeLayoutContext width height).contentHeight < 14))
    rw [bare, compact, hmode, hshort] at hbare
    cases hbare
  unfold visibleCapacity
  cases hbare : (makeLayoutContext width height).bare with
  | true =>
    rw [if_pos rfl, if_pos rfl]
    omega
  | false =>
    have hheight := htall hbare
    rw [if_neg Bool.false_ne_true, if_neg Bool.false_ne_true]
    omega

end LayoutContext

/-- `log_levels`; `view_state.hpp:20–21`. -/
def logLevelNames : List Bytes := [ascii "All", ascii "Info", ascii "Warn", ascii "Error"]

/-- The index of `min_level`; `logs_screen.cpp:49–52`. -/
def minLevelIndex (selected : Int) : Nat := (max 0 (min selected (logLevelNames.length - 1))).toNat

/-- `min_level`; `logs_screen.cpp:49–52`. -/
def minLevel (selected : Int) : Bytes := logLevelNames.getD (minLevelIndex selected) []

/-- `EndEllipsis`; `format.cpp:22–27`. -/
def endEllipsis (value : Bytes) (maxWidth : Int) : Bytes :=
  if maxWidth ≤ 3 ∨ Int.bmod value.length 4294967296 ≤ maxWidth then value
  else value.take (maxWidth - 3).toNat ++ ascii "..."

/-- `LevelTag`; `logs_screen.cpp:31–39`. -/
def levelTag (level : Bytes) : Bytes :=
  if level = ascii "FATAL" then ascii "FATAL"
  else if level.length > 5 then level.take 5
  else level

/-- A text and the width of its column. -/
structure Column where
  text : Bytes
  width : Int

/-- A row of the log; the node is left out where it has no room. -/
structure LogLine where
  stamp : Column
  level : Column
  node : Option Column
  message : Column

/-- `node_width`; `logs_screen.cpp:68–71`. -/
def nodeWidth (bodyWidth : Int) : Int :=
  if bodyWidth ≥ 100 then 20 else if bodyWidth ≥ 72 then 16 else if bodyWidth ≥ 56 then 12 else 0

/-- A round of the loop over the records; `logs_screen.cpp:66–94`. -/
def logLine (bodyWidth : Int) (record : LogRecord) : LogLine :=
  let stampWidth := if bodyWidth < 56 then 9 else 11
  let levelWidth := 7
  let nodeWidth := nodeWidth bodyWidth
  let messageWidth := max 4 (bodyWidth - stampWidth - levelWidth - nodeWidth)
  { stamp := ⟨ascii " " ++ record.stamp ++ ascii " ", stampWidth⟩
    level := ⟨ascii " " ++ levelTag record.level ++ ascii " ", levelWidth⟩
    node :=
      if nodeWidth > 0 then
        some ⟨endEllipsis record.node (nodeWidth - 1) ++ ascii " ", nodeWidth⟩
      else none
    message := ⟨endEllipsis record.message messageWidth, messageWidth⟩ }

/-- `count_label`; `logs_screen.cpp:97–103`. -/
def countLabel (compact : Bool) (visible filtered total : Nat) : Bytes :=
  if compact then decimal visible ++ ascii "/" ++ decimal filtered
  else ascii "showing " ++ decimal visible ++ ascii " / " ++ decimal filtered ++
    ascii " filtered / " ++ decimal total ++ ascii " total"

/-- What is drawn: the rows, or what is waited for, and the count. -/
structure LogsScreen where
  lines : List LogLine
  waiting : Option Bytes
  countLabel : Bytes

/-- `RenderLogsScreen` over the store as the call of `Records` finds it and as that of `TotalCount`
does; `logs_screen.cpp:43–135`. -/
def renderLogsScreen (state : ViewState) (store counted : LogStore) (layout : LayoutContext) :
    LogsScreen :=
  let minLevel := minLevel state.selectedLogLevel
  let records := store.recordsFrom minLevel
  let capacity := layout.visibleCapacity.toNat
  let firstVisible := if records.length > capacity then records.length - capacity else 0
  let lines := (records.drop firstVisible).map (logLine layout.bodyWidth)
  { lines
    waiting :=
      if lines.isEmpty then
        some (ascii "Waiting for /rosout messages" ++
          if minLevel = ascii "All" then ascii "..." else ascii " at " ++ minLevel ++ ascii "+...")
      else none
    countLabel :=
      countLabel layout.compact (records.length - firstVisible) records.length counted.totalCount }

/-! ## What the screen shows -/

/-- How severe a message is, from 0 for debug messages and unknown levels to 3 for errors. -/
def severity (level : UInt8) : Nat :=
  if level = 2 then 1 else if level = 4 then 2 else if level = 8 ∨ level = 16 then 3 else 0

/-- Whether a message passes a filter. -/
def passesFilter (selected : Int) (message : RosTime × Log) : Bool :=
  minLevelIndex selected ≤ severity message.2.level

/-- The index of the filter is that of one of four levels. -/
theorem minLevelIndex_lt (selected : Int) : minLevelIndex selected < 4 := by
  have hlength : (logLevelNames.length : Int) = 4 := rfl
  unfold minLevelIndex
  rw [hlength]
  omega

/-- The rank of a level is its severity. -/
theorem levelRank_levelToString (level : UInt8) :
    LogStore.levelRank (levelToString level) = 10 * severity level := by
  unfold levelToString severity
  by_cases hdebug : level = 1
  · rw [hdebug]
    decide
  · by_cases hinfo : level = 2
    · rw [hinfo]
      decide
    · by_cases hwarn : level = 4
      · rw [hwarn]
        decide
      · by_cases herror : level = 8
        · rw [herror]
          decide
        · by_cases hfatal : level = 16
          · rw [hfatal]
            decide
          · simp only [hdebug, hinfo, hwarn, herror, hfatal, if_false, or_self]
            decide

/-- The rank of a filter is its index. -/
theorem levelRank_minLevel (selected : Int) :
    LogStore.levelRank (minLevel selected) = 10 * minLevelIndex selected := by
  have hall : ∀ index < 4, LogStore.levelRank (logLevelNames.getD index []) = 10 * index := by
    decide
  exact hall _ (minLevelIndex_lt selected)

private theorem rtake_map {α γ : Type} (f : α → γ) (n : Nat) (values : List α) :
    (values.map f).rtake n = (values.rtake n).map f := by
  rw [List.rtake, List.rtake, List.length_map, List.map_drop]

/-- The records that are read are those of the messages that pass, among the last ones. -/
theorem recordsFrom_receive (localtime : UInt32 → Tm) (selected : Int)
    (messages : List (RosTime × Log)) :
    (LogStore.receive localtime {} messages).recordsFrom (minLevel selected) =
      ((messages.rtake logCapacity).filter (passesFilter selected)).map (logRecord localtime) := by
  have hpasses : ((fun record ↦ decide (LogStore.levelRank record.level ≥
      LogStore.levelRank (minLevel selected))) ∘ logRecord localtime) = passesFilter selected := by
    funext message
    simp only [Function.comp_apply, logRecord, levelRank_levelToString, levelRank_minLevel,
      passesFilter, decide_eq_decide]
    omega
  rw [LogStore.recordsFrom, LogStore.records_receive, rtake_map, List.filter_map, hpasses]

/-- A store that has received more has at least as many records. -/
theorem totalCount_receive (localtime : UInt32 → Tm) (received between : List (RosTime × Log)) :
    ((LogStore.receive localtime {} received).receive localtime between).totalCount =
      min logCapacity (received.length + between.length) := by
  have hall : (LogStore.receive localtime {} received).receive localtime between =
      LogStore.receive localtime {} (received ++ between) := List.foldl_append.symm
  rw [hall, LogStore.totalCount, LogStore.records_receive, length_rtake, List.length_map,
    List.length_append]

/-- The texts of a column are no wider than it. -/
def Column.Fits (column : Column) : Prop := column.text.length ≤ column.width

namespace LogLine

/-- The width of a row. -/
def width (line : LogLine) : Int :=
  line.stamp.width + line.level.width + (line.node.map Column.width).getD 0 + line.message.width

/-- The texts but the stamp are no wider than their columns. -/
structure Fits (line : LogLine) : Prop where
  level : line.level.Fits
  node : ∀ node ∈ line.node, node.Fits
  message : line.message.Fits

end LogLine

/-- The columns fill the body, if it has 20 places. -/
theorem width_logLine (bodyWidth : Int) (record : LogRecord) :
    (logLine bodyWidth record).width = max 20 bodyWidth := by
  unfold LogLine.width logLine nodeWidth
  dsimp only
  by_cases hwide : bodyWidth ≥ 100
  · simp only [hwide, if_true, Option.map_some, Option.getD_some, show (20 : Int) > 0 by decide]
    omega
  · by_cases hmedium : bodyWidth ≥ 72
    · simp only [hwide, hmedium, if_true, if_false, Option.map_some, Option.getD_some,
        show (16 : Int) > 0 by decide]
      omega
    · by_cases hnarrow : bodyWidth ≥ 56
      · simp only [hwide, hmedium, hnarrow, if_true, if_false, Option.map_some, Option.getD_some,
          show (12 : Int) > 0 by decide]
        omega
      · simp only [hwide, hmedium, hnarrow, if_false, gt_iff_lt, Int.lt_irrefl, Option.map_none,
          Option.getD_none]
        omega

/-- A shortened text is no longer than its width. -/
theorem length_endEllipsis_le {value : Bytes} {maxWidth : Int} (hwidth : 3 < maxWidth)
    (hlt : value.length < 2147483648) : ((endEllipsis value maxWidth).length : Int) ≤ maxWidth := by
  have hcast : Int.bmod value.length 4294967296 = value.length := by
    rw [Int.bmod_eq_of_le] <;> omega
  unfold endEllipsis
  rw [hcast]
  split
  · omega
  · rw [List.length_append, List.length_take]
    have hdots : (ascii "...").length = 3 := by decide
    omega

/-- The tag of a level fits its column. -/
theorem length_levelTag_le (level : Bytes) : (levelTag level).length ≤ 5 := by
  unfold levelTag
  split
  · decide
  · split
    · rw [List.length_take]
      omega
    · omega

/-- Rows of messages below 2 GiB fit. -/
theorem fits_logLine (bodyWidth : Int) {record : LogRecord}
    (hmessage : record.message.length < 2147483648) (hnode : record.node.length < 2147483648) :
    (logLine bodyWidth record).Fits := by
  have hblank : (ascii " ").length = 1 := by decide
  constructor
  · have htag := length_levelTag_le record.level
    simp only [logLine, Column.Fits, List.length_append, hblank]
    omega
  · intro node hm
    simp only [logLine] at hm
    split at hm
    · next hpos =>
      cases hm
      have hwidth : 3 < nodeWidth bodyWidth - 1 := by
        unfold nodeWidth at hpos ⊢
        split
        · decide
        · split
          · decide
          · split
            · decide
            · next hwide hmedium hnarrow =>
              simp [hwide, hmedium, hnarrow] at hpos
      have hle := length_endEllipsis_le hwidth hnode
      simp only [Column.Fits, List.length_append, hblank]
      omega
    · cases hm
  · exact length_endEllipsis_le (by omega) hmessage

/-- What is drawn of the messages that were received before the records are read, with some more
received before they are counted. -/
structure LogsShown (localtime : UInt32 → Tm) (selected : Int) (layout : LayoutContext)
    (received between : List (RosTime × Log)) (screen : LogsScreen) : Prop where
  /-- A message has a row if it passes, fewer than 500 came after it, and fewer of these pass than
  there is room for; the rows are in the order of the messages. -/
  lines : screen.lines = (selectBehind (fun message behind ↦
    decide (behind.length < logCapacity) && passesFilter selected message &&
      decide (behind.countP (passesFilter selected) < layout.visibleCapacity.toNat)) received).map
        fun message ↦ logLine layout.bodyWidth (logRecord localtime message)
  waiting : screen.waiting = none ↔
    ∃ message ∈ received.rtake logCapacity, passesFilter selected message = true
  /-- The counts are those of the rows, of the messages that pass and of all, each at most the
  next. -/
  counts : ∃ filtered total, screen.countLabel =
      countLabel layout.compact screen.lines.length filtered total ∧
    filtered = (received.rtake logCapacity).countP (passesFilter selected) ∧
    total = min logCapacity (received.length + between.length) ∧
    screen.lines.length = min layout.visibleCapacity.toNat filtered ∧ filtered ≤ total
  /-- On a terminal of any size the rows fit the content, next to the nine lines of borders and
  filters where these are drawn. -/
  height : ∀ width height, layout = makeLayoutContext width height →
    screen.lines.length + (if layout.bare then 0 else 9) ≤ layout.contentHeight
  widths : ∀ line ∈ screen.lines, line.width = max 20 layout.bodyWidth
  fits : (∀ message ∈ received, message.2.msg.length < 2147483648 ∧
    message.2.name.length < 2147483648) → ∀ line ∈ screen.lines, line.Fits

private theorem renderLogsScreen_receive (localtime : UInt32 → Tm) (state : ViewState)
    (layout : LayoutContext) (received : List (RosTime × Log)) (counted : LogStore) :
    ∃ shown : List (RosTime × Log),
      shown = ((received.rtake logCapacity).filter (passesFilter state.selectedLogLevel)).rtake
        layout.visibleCapacity.toNat ∧
      ∃ text, renderLogsScreen state (.receive localtime {} received) counted layout = {
        lines := shown.map fun message ↦
          logLine layout.bodyWidth (logRecord localtime message)
        waiting := if shown.isEmpty then some text else none
        countLabel := countLabel layout.compact shown.length
          ((received.rtake logCapacity).countP (passesFilter state.selectedLogLevel))
          counted.totalCount } := by
  refine ⟨_, rfl, ?_⟩
  unfold renderLogsScreen
  dsimp only
  rw [recordsFrom_receive, List.length_map, List.countP_eq_length_filter]
  generalize (received.rtake logCapacity).filter (passesFilter state.selectedLogLevel) = messages
  have hskip : (if messages.length > layout.visibleCapacity.toNat then
      messages.length - layout.visibleCapacity.toNat else 0) =
        messages.length - layout.visibleCapacity.toNat := by
    split <;> omega
  rw [hskip, ← List.map_drop, List.map_map, List.isEmpty_map, List.rtake, List.length_drop]
  exact ⟨_, rfl⟩

/-- Whatever is received, and whenever the screen is drawn, it shows the last messages of the
selected level that fit, of the last 500, in rows that fill the body and fit the content. -/
theorem logs_shown (localtime : UInt32 → Tm) (state : ViewState) (layout : LayoutContext)
    (received between : List (RosTime × Log)) :
    LogsShown localtime state.selectedLogLevel layout received between
      (renderLogsScreen state (.receive localtime {} received)
        ((LogStore.receive localtime {} received).receive localtime between) layout) := by
  rcases renderLogsScreen_receive localtime state layout received
    ((LogStore.receive localtime {} received).receive localtime between) with
    ⟨shown, hshown, text, hscreen⟩
  have hlength : shown.length = min layout.visibleCapacity.toNat
      ((received.rtake logCapacity).countP (passesFilter state.selectedLogLevel)) := by
    rw [hshown, length_rtake, List.countP_eq_length_filter]
  have hroom : 0 < layout.visibleCapacity.toNat := by
    have hone : 1 ≤ layout.visibleCapacity := le_max_left _ _
    omega
  rw [hscreen]
  constructor
  · rw [hshown, rtake_filter_rtake]
  · have hempty : (if shown.isEmpty then some text else none) = none ↔ 0 < shown.length := by
      cases shown with
      | nil => simp
      | cons message shown => simp
    rw [hempty, hlength, Nat.lt_min, List.countP_pos_iff]
    exact and_iff_right hroom
  · refine ⟨_, _, ?_, rfl, rfl, ?_, ?_⟩
    · rw [totalCount_receive, List.length_map]
    · rw [List.length_map, hlength]
    · have hle := List.countP_le_length (p := passesFilter state.selectedLogLevel)
        (l := received.rtake logCapacity)
      rw [length_rtake] at hle
      omega
  · rintro width height rfl
    have hfits := LayoutContext.visibleCapacity_make width height
    rw [List.length_map]
    omega
  · intro line hm
    rcases List.mem_map.mp hm with ⟨message, _, rfl⟩
    exact width_logLine _ _
  · intro hshort line hm
    rcases List.mem_map.mp hm with ⟨message, hkept, rfl⟩
    rw [hshown] at hkept
    have hmem := (List.mem_filter.mp (List.mem_of_mem_drop hkept)).1
    rcases hshort message (List.mem_of_mem_drop hmem) with ⟨hmessage, hname⟩
    exact fits_logLine _ hmessage hname

end NetBridge.Tui
