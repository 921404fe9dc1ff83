import Mathlib.Data.Rat.Cast.OfScientific
import Mathlib.Algebra.Order.Group.Abs
import Mathlib.Data.Rat.Floor
import Mathlib.Tactic.NormNum
import Mathlib.Tactic.Ring
import NetBridge.Base.Spacing
import NetBridge.Topic.Sender

/-!
# The rate limiter

`sendFreqControl`, `src/swarm_ros_bridge/src/topic_factory.cpp:308–322`, over any numbers that have
its arithmetic: the doubles of the code, and the exact numbers of an ordered field. Over exact
numbers the admitted messages are the greedy choice of messages spaced by the minimum interval.
-/

namespace NetBridge.Topic

open NetBridge.Base NetBridge.Diagnostics

/-- The numbers that `sendFreqControl` computes with. -/
class LimiterNumber (K : Type*) extends Add K, Sub K, Neg K, Mul K, Div K, Max K, LT K,
    OfScientific K where
  decLt : DecidableLT K
  ofInt : Int → K
  abs : K → K
  epsilon : K

namespace LimiterNumber

instance {K : Type*} [LimiterNumber K] : DecidableLT K := decLt

/-- The doubles of the code. -/
instance : LimiterNumber Float where
  decLt := inferInstance
  ofInt := Float.ofInt
  abs := Float.abs
  epsilon := 2.220446049250313e-16

/-- The exact numbers of an ordered field. -/
instance {K : Type*} [Field K] [LinearOrder K] : LimiterNumber K where
  decLt := inferInstance
  ofInt := Int.cast
  abs := fun x ↦ |x|
  epsilon := 1 / 2 ^ 52

/-- `toSec` of a duration in nanoseconds. -/
def toSec {K : Type*} [LimiterNumber K] (duration : Int) : K :=
  ofInt (duration / 1000000000) + 1e-9 * ofInt (duration % 1000000000)

/-- The limiter over doubles computes as the code does. -/
theorem toSec_float (duration : Int) : (toSec duration : Float) = durationToSec duration := rfl

end LimiterNumber

open LimiterNumber

/-- What `sendFreqControl` reads and writes. -/
structure Limiter (K : Type*) where
  maxFreq : K
  subLastTime : RosTime := {}
  metrics : TopicRuntimeState

namespace Limiter

variable {K : Type*}

section LimiterNumber

variable [LimiterNumber K]

/-- `sendFreqControl`; `topic_factory.cpp:308–322`. The flag says that the message is dropped. -/
def sendFreqControl (l : Limiter K) (now : RosTime) : Bool × Limiter K :=
  if abs (l.maxFreq - -1.0) < epsilon then (false, l)
  else
    let minimumInterval := 1.0 / max 0.001 l.maxFreq
    if !l.subLastTime.isZero ∧ toSec (now.since l.subLastTime) < minimumInterval then
      (true, { l with metrics := recordDrop l.metrics })
    else (false, { l with subLastTime := now })

/-- The limiter after messages at these readings of the clock. -/
def after (l : Limiter K) (readings : List RosTime) : Limiter K :=
  readings.foldl (fun l now ↦ (l.sendFreqControl now).2) l

/-- The readings at which a message is admitted. -/
def admitted (l : Limiter K) : List RosTime → List RosTime
  | [] => []
  | now :: readings =>
    match l.sendFreqControl now with
    | (true, l) => admitted l readings
    | (false, l) => now :: admitted l readings

end LimiterNumber

end Limiter

/-- The limiter of a sender. -/
def Sender.limiter (s : Sender) : Limiter Float :=
  ⟨s.factory.topicCfg.maxFreq, s.subLastTime, s.metrics⟩

/-- Over doubles the limiter is the code's. -/
theorem Sender.limiter_sendFreqControl (s : Sender) (now : RosTime) :
    s.limiter.sendFreqControl now =
      ((s.sendFreqControl now).1, (s.sendFreqControl now).2.limiter) := by
  unfold Limiter.sendFreqControl Sender.sendFreqControl
  dsimp only
  simp only [Bool.and_eq_true, decide_eq_true_eq]
  by_cases hunlimited : (s.factory.topicCfg.maxFreq - -1.0).abs < 2.220446049250313e-16
  · rw [if_pos hunlimited]
    exact if_pos hunlimited
  · rw [if_neg hunlimited]
    refine (if_neg hunlimited).trans ?_
    by_cases hlimited : !s.subLastTime.isZero ∧
        durationToSec (now.since s.subLastTime) < 1.0 / max 0.001 s.factory.topicCfg.maxFreq
    · rw [if_pos hlimited]
      exact if_pos hlimited
    · rw [if_neg hlimited]
      exact if_neg hlimited

/-- A time in seconds. -/
def seconds {K : Type*} [Field K] (time : RosTime) : K := time.toNSec.toNat / 1000000000

namespace Limiter

section LimiterNumber

variable {K : Type*} [LimiterNumber K] (l : Limiter K)

/-- A reading is handled before those behind it. -/
theorem after_cons (now : RosTime) (readings : List RosTime) :
    l.after (now :: readings) = (l.sendFreqControl now).2.after readings := rfl

variable {l} in
/-- A dropped message is not admitted. -/
theorem admitted_of_dropped {l' : Limiter K} {now : RosTime}
    (h : l.sendFreqControl now = (true, l')) (readings : List RosTime) :
    l.admitted (now :: readings) = l'.admitted readings := by
  rw [admitted, h]

variable {l} in
/-- A message that passes is admitted. -/
theorem admitted_of_passed {l' : Limiter K} {now : RosTime}
    (h : l.sendFreqControl now = (false, l')) (readings : List RosTime) :
    l.admitted (now :: readings) = now :: l'.admitted readings := by
  rw [admitted, h]

/-- Admitted messages are messages, in their order. -/
theorem admitted_sublist (readings : List RosTime) :
    (l.admitted readings).Sublist readings := by
  induction readings generalizing l with
  | nil => exact List.Sublist.slnil
  | cons now readings ih =>
    rcases hcontrol : l.sendFreqControl now with ⟨dropped, l'⟩
    cases dropped with
    | true =>
      rw [admitted_of_dropped hcontrol]
      exact (ih l').cons now
    | false =>
      rw [admitted_of_passed hcontrol]
      exact (ih l').cons_cons now

/-- What the limiter does: it drops the message and counts it, or it keeps everything but its own
time. -/
theorem sendFreqControl_cases (now : RosTime) :
    l.sendFreqControl now = (true, { l with metrics := recordDrop l.metrics }) ∨
      ∃ subLastTime, l.sendFreqControl now = (false, { l with subLastTime }) := by
  unfold sendFreqControl
  dsimp only
  split
  · exact Or.inr ⟨l.subLastTime, rfl⟩
  · split
    · exact Or.inl rfl
    · exact Or.inr ⟨now, rfl⟩

/-- The limit stays. -/
theorem maxFreq_sendFreqControl (now : RosTime) :
    (l.sendFreqControl now).2.maxFreq = l.maxFreq := by
  rcases l.sendFreqControl_cases now with hcontrol | ⟨subLastTime, hcontrol⟩ <;> rw [hcontrol]

/-- The rate is fixed. -/
theorem maxFreq_after (readings : List RosTime) : (l.after readings).maxFreq = l.maxFreq := by
  induction readings generalizing l with
  | nil => rfl
  | cons now readings ih => exact (ih _).trans (l.maxFreq_sendFreqControl now)

/-- The messages that are not admitted are counted as drops. -/
theorem droppedMessages_after (readings : List RosTime) :
    (l.after readings).metrics.droppedMessages =
      l.metrics.droppedMessages +
        UInt64.ofNat (readings.length - (l.admitted readings).length) := by
  induction readings generalizing l with
  | nil => exact (UInt64.add_zero _).symm
  | cons now readings ih =>
    rw [after_cons, ih]
    rcases l.sendFreqControl_cases now with hcontrol | ⟨subLastTime, hcontrol⟩
    · have hle := (admitted_sublist { l with metrics := recordDrop l.metrics } readings).length_le
      rw [admitted_of_dropped hcontrol, hcontrol, List.length_cons, Nat.succ_sub hle]
      simp only [recordDrop, Nat.succ_eq_add_one, UInt64.ofNat_add, UInt64.add_assoc]
      rw [UInt64.add_comm 1]
      rfl
    · rw [admitted_of_passed hcontrol, hcontrol, List.length_cons, List.length_cons,
        Nat.add_sub_add_right]

end LimiterNumber

/-! ## Exact arithmetic -/

section Exact

variable {K : Type*} [Field K] [LinearOrder K] [IsStrictOrderedRing K] {l : Limiter K}

/-- The seconds between two readings. -/
theorem toSec_since (now before : RosTime) :
    (toSec (now.since before) : K) = seconds now - seconds before := by
  have hsplit := Int.mul_ediv_add_emod (now.since before) 1000000000
  have hcast : (now.since before : K) = now.toNSec.toNat - before.toNSec.toNat := by
    simp [RosTime.since]
  have hsum : (1000000000 : K) * (now.since before / 1000000000 : Int) +
      (now.since before % 1000000000 : Int) = now.since before := by
    exact_mod_cast congrArg (Int.cast (R := K)) hsplit
  show ((now.since before / 1000000000 : Int) : K) +
    1e-9 * ((now.since before % 1000000000 : Int) : K) = _
  unfold seconds
  rw [← sub_div, ← hcast, ← hsum]
  norm_num
  ring

/-- The least distance of two admitted messages, in seconds. -/
def minimumInterval (l : Limiter K) : K := 1 / max 0.001 l.maxFreq

/-- Without a limit every message is admitted, and nothing changes. -/
theorem sendFreqControl_unlimited (h : l.maxFreq = -1) (now : RosTime) :
    l.sendFreqControl now = (false, l) := by
  apply if_pos
  show |l.maxFreq - -1.0| < 1 / 2 ^ 52
  rw [h]
  norm_num

/-- Without a limit all messages are admitted. -/
theorem admitted_unlimited (h : l.maxFreq = -1) (readings : List RosTime) :
    l.admitted readings = readings := by
  induction readings with
  | nil => rfl
  | cons now readings ih => rw [admitted_of_passed (sendFreqControl_unlimited h now), ih]

/-- With a limit, a message is dropped that comes too early behind the last admitted one. -/
theorem sendFreqControl_limited (h : 0 < l.maxFreq) (now : RosTime) :
    l.sendFreqControl now =
      if l.subLastTime.isZero = false ∧
          seconds now - seconds l.subLastTime < l.minimumInterval then
        (true, { l with metrics := recordDrop l.metrics })
      else (false, { l with subLastTime := now }) := by
  have hunlimited : ¬|l.maxFreq - -1.0| < 1 / 2 ^ 52 := by
    have hone : (1.0 : K) = 1 := by norm_num
    rw [hone, sub_neg_eq_add, abs_of_pos (by linarith), not_lt]
    exact le_trans (by norm_num) (le_add_of_nonneg_left h.le)
  refine (if_neg hunlimited).trans ?_
  have hcondition : (!l.subLastTime.isZero) = true ∧
        toSec (now.since l.subLastTime) < (1.0 : K) / max 0.001 l.maxFreq ↔
      l.subLastTime.isZero = false ∧
        seconds now - seconds l.subLastTime < l.minimumInterval := by
    rw [toSec_since, Bool.not_eq_true']
    have hone : (1.0 : K) = 1 := by norm_num
    unfold minimumInterval
    rw [hone]
  exact if_congr hcondition rfl rfl

/-- The time of the limiter is that of the last admitted message. -/
theorem subLastTime_after (h : 0 < l.maxFreq) (readings : List RosTime) :
    (l.after readings).subLastTime = (l.admitted readings).getLastD l.subLastTime := by
  induction readings generalizing l with
  | nil => rfl
  | cons now readings ih =>
    rw [after_cons]
    have hcontrol := sendFreqControl_limited h now
    split at hcontrol
    · rw [admitted_of_dropped hcontrol, hcontrol]
      exact ih h
    · rw [admitted_of_passed hcontrol, hcontrol, List.getLastD_cons]
      exact ih h

/-- The time of the last admitted message, if there is one. -/
def lastAdmitted? (l : Limiter K) : Option K :=
  if l.subLastTime.isZero then none else some (seconds l.subLastTime)

/-- A positive time is not zero. -/
theorem isZero_of_pos {now : RosTime} (hpos : 0 < now.toNSec) : now.isZero = false := by
  cases hzero : now.isZero with
  | false => rfl
  | true =>
    simp only [RosTime.isZero, Bool.and_eq_true, decide_eq_true_eq] at hzero
    rw [RosTime.toNSec, hzero.1, hzero.2] at hpos
    exact absurd hpos (by decide)

/-- Between readings that are not zero, the admitted messages are the greedy choice. -/
theorem admitted_eq_takeSpaced (h : 0 < l.maxFreq) {readings : List RosTime}
    (hpos : ∀ now ∈ readings, 0 < now.toNSec) :
    l.admitted readings =
      takeSpaced l.minimumInterval seconds l.lastAdmitted? readings := by
  induction readings generalizing l with
  | nil =>
    unfold lastAdmitted?
    split <;> rfl
  | cons now readings ih =>
    have hnow := isZero_of_pos (hpos now List.mem_cons_self)
    have hrest : ∀ now ∈ readings, 0 < now.toNSec := fun time hm ↦
      hpos time (List.mem_cons_of_mem now hm)
    -- What follows an admitted message.
    have hpassed : admitted { l with subLastTime := now } readings =
        takeSpaced l.minimumInterval seconds (some (seconds now)) readings := by
      have hlast : lastAdmitted? { l with subLastTime := now } = some (seconds now) := by
        simp [lastAdmitted?, hnow]
      rw [← hlast]
      exact ih h hrest
    have hcontrol := sendFreqControl_limited h now
    cases hzero : l.subLastTime.isZero with
    | true =>
      have hlast : l.lastAdmitted? = none := by simp [lastAdmitted?, hzero]
      rw [if_neg (by simp [hzero])] at hcontrol
      rw [admitted_of_passed hcontrol, hlast, takeSpaced, hpassed]
    | false =>
      have hlast : l.lastAdmitted? = some (seconds l.subLastTime) := by simp [lastAdmitted?, hzero]
      by_cases hearly : seconds now - seconds l.subLastTime < l.minimumInterval
      · rw [if_pos ⟨hzero, hearly⟩] at hcontrol
        rw [admitted_of_dropped hcontrol, hlast, takeSpaced, if_neg (not_le.mpr hearly), ← hlast]
        exact ih h hrest
      · rw [if_neg fun hc ↦ hearly hc.2] at hcontrol
        rw [admitted_of_passed hcontrol, hlast, takeSpaced, if_pos (not_lt.mp hearly), hpassed]

/-- A message is dropped by the limiter of a run if it comes too early behind the last admitted
one. -/
theorem drops_iff (h : 0 < l.maxFreq) (hstart : l.subLastTime = {}) (front : List RosTime)
    (now : RosTime) :
    ((l.after front).sendFreqControl now).1 = true ↔
      ∃ last ∈ (l.admitted front).getLast?,
        last.isZero = false ∧ seconds now - seconds last < l.minimumInterval := by
  have hlimit : 0 < (l.after front).maxFreq := by
    rw [maxFreq_after]
    exact h
  have hlast := subLastTime_after h front
  have hinterval : (l.after front).minimumInterval = l.minimumInterval := by
    unfold minimumInterval
    rw [maxFreq_after]
  rw [sendFreqControl_limited hlimit, hinterval, hlast, hstart, List.getLastD_eq_getLast?]
  cases hadmitted : (l.admitted front).getLast? with
  | none => simp [RosTime.isZero]
  | some last =>
    simp only [Option.getD_some, Option.mem_some_iff, exists_eq_left']
    split
    · next hdrop => simp [hdrop]
    · next hpassed => simp [hpassed]

/-- What an exact rate limiter does with messages at these readings of the clock. -/
structure RateLimited [FloorSemiring K] (l : Limiter K) (readings : List RosTime) : Prop where
  /-- A message is admitted that is the first one, or comes no earlier than the minimum interval
  after the last admitted one. -/
  admits : ∀ front now rest, readings = front ++ now :: rest →
    (((l.after front).sendFreqControl now).1 = false ↔
      ∀ last ∈ (l.admitted front).getLast?, 1 / l.maxFreq ≤ seconds now - seconds last)
  /-- A window of time holds no more messages than the rate allows, and one. -/
  window : ∀ start length : K,
    ((l.admitted readings).filter fun now ↦
      start ≤ seconds now ∧ seconds now ≤ start + length).length ≤ ⌊length * l.maxFreq⌋₊ + 1
  /-- The admitted messages are a longest choice of messages with that interval. -/
  sublist : (l.admitted readings).Sublist readings
  spaced : Spaced (1 / l.maxFreq) ((l.admitted readings).map seconds)
  longest : ∀ other : List RosTime, other.Sublist readings →
    Spaced (1 / l.maxFreq) (other.map seconds) → other.length ≤ (l.admitted readings).length
  /-- The others are counted as drops. -/
  dropped : (l.after readings).metrics.droppedMessages =
    l.metrics.droppedMessages + UInt64.ofNat (readings.length - (l.admitted readings).length)

omit [IsStrictOrderedRing K] in
/-- From 0.001 Hz on the interval is as the limit asks for. -/
theorem minimumInterval_of_le (h : 0.001 ≤ l.maxFreq) : l.minimumInterval = 1 / l.maxFreq := by
  rw [minimumInterval, max_eq_right h]

/-- Later readings have more seconds. -/
theorem seconds_le {before now : RosTime} (h : before.toNSec ≤ now.toNSec) :
    (seconds before : K) ≤ seconds now := by
  unfold seconds
  have hnat : before.toNSec.toNat ≤ now.toNSec.toNat := UInt64.le_iff_toNat_le.mp h
  gcongr

/-- In exact arithmetic, and between readings that are positive and do not decrease, the rate
limiter is exact; without a limit it admits every message. -/
theorem rate_limit_exact [FloorSemiring K] (l : Limiter K) (hstart : l.subLastTime = {})
    (readings : List RosTime) :
    (0.001 ≤ l.maxFreq → (∀ now ∈ readings, 0 < now.toNSec) →
      (readings.Pairwise fun before now ↦ before.toNSec ≤ now.toNSec) →
      l.RateLimited readings) ∧
    (l.maxFreq = -1 → l.admitted readings = readings) := by
  constructor
  · intro hrate hpos hclock
    have hlimit : 0 < l.maxFreq := lt_of_lt_of_le (by norm_num) hrate
    have hgap : (0 : K) < 1 / l.maxFreq := one_div_pos.mpr hlimit
    have hgreedy := admitted_eq_takeSpaced hlimit hpos
    rw [minimumInterval_of_le hrate, lastAdmitted?, hstart] at hgreedy
    have hspaced : Spaced (1 / l.maxFreq) ((l.admitted readings).map seconds) := by
      rw [hgreedy]
      exact spaced_takeSpaced readings
    constructor
    · intro front now rest hsplit
      have hfront : ∀ last ∈ (l.admitted front).getLast?, last.isZero = false := by
        intro last hlast
        have hmem := (l.admitted_sublist front).subset (List.mem_of_getLast? hlast)
        exact isZero_of_pos (hpos last (hsplit ▸ List.mem_append_left _ hmem))
      rw [← Bool.not_eq_true, drops_iff hlimit hstart, minimumInterval_of_le hrate]
      constructor
      · intro hdrop last hlast
        by_contra hearly
        exact hdrop ⟨last, hlast, hfront last hlast, not_le.mp hearly⟩
      · rintro hpassed ⟨last, hlast, -, hearly⟩
        exact not_lt.mpr (hpassed last hlast) hearly
    · intro start length
      have hwindow := hspaced.length_window_le hgap start length
      rw [List.filter_map, List.length_map, div_div_eq_mul_div, div_one] at hwindow
      exact hwindow
    · exact l.admitted_sublist readings
    · exact hspaced
    · intro other hsub hother
      rw [hgreedy]
      exact length_le_takeSpaced hsub (hclock.imp seconds_le) hother
    · exact l.droppedMessages_after readings
  · exact fun hrate ↦ admitted_unlimited hrate readings

/-- Two messages a second, and one that comes too early. -/
theorem rate_limit_exact_early :
    RateLimited (⟨2, {}, {}⟩ : Limiter ℚ) [⟨1, 0⟩, ⟨1, 250000000⟩, ⟨1, 500000000⟩] :=
  (rate_limit_exact ⟨2, {}, {}⟩ rfl _).1 (by norm_num) (by decide) (by decide)

/-! ## A clock that steps back -/

end Exact

end Limiter

end NetBridge.Topic
