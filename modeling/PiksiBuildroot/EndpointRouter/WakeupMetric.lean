import Mathlib.Data.List.Induction
import PiksiBuildroot.Libpiksi.Metrics

/-!
# The wake-up metric of the router

At each wake-up the router counts the messages that it reads in `wakeups_message_count`, and
updates `wakeups_max` with the count. Once a second the maximum is reset.

The counter is reset before the messages are read, which leaves it with an empty value, and only
the first message gives it the tag of its type. So a wake-up without messages makes the maximum
empty (`metricsRead_loopReaderCallback`, `maxOk_iff`).
-/

namespace PiksiBuildroot.EndpointRouter.WakeupMetric

open Libpiksi.Metrics List Option

/-! ### The table -/

namespace MI

def bytesDropped : Nat := 0
def count : Nat := 1
def sizeTotal : Nat := 2
def size : Nat := 3
def wakeups : Nat := 4
def wakeupsMax : Nat := 5
def wakeupsMessageCount : Nat := 6
def latencyMax : Nat := 7
def latencyDelta : Nat := 8
def latencyTotal : Nat := 9
def latency : Nat := 10
def frameCount : Nat := 11
def frameLeftovers : Nat := 12

end MI

/-- Source: `message_metrics_table`. -/
def messageMetricsTable : List TableEntry := [⟨.u32, .count, .default⟩, ⟨.u32, .count, .default⟩,
    ⟨.u32, .sum, .default⟩,
    ⟨.u32, .average MI.sizeTotal MI.count, .default⟩,
    ⟨.u32, .count, .default⟩,
    ⟨.u32, .max, .default⟩,
    ⟨.u32, .count, .default⟩,
    ⟨.time, .max, .default⟩,
    ⟨.time, .delta, .time⟩,
    ⟨.time, .sum, .default⟩,
    ⟨.time, .average MI.latencyTotal MI.count, .default⟩,
    ⟨.u32, .sum, .default⟩,
    ⟨.u32, .sum, .default⟩,
    ⟨.u32, .assign, .default⟩]

/-! ### The callbacks -/

/-- A message of a length, and how many bytes the endpoints dropped that it was sent to. -/
structure Message where
  length : Nat
  dropped : List Nat

section
variable (unset : MetricsValue)

/-- Source: `eagain_update_send_metric`. -/
def eagainUpdateSendMetric (metrics : List Descriptor) (bytesDropped : Nat) : List Descriptor :=
  (metricsUpdate unset metrics MI.bytesDropped (some (u32.value (.ofNat bytesDropped)))).2

/-- Source: `router_reader`, of which the effects on the metrics are kept. -/
def routerReader (metrics : List Descriptor) (message : Message) : List Descriptor :=
  let metrics := (metricsUpdate unset metrics MI.count none).2
  let metrics := (metricsUpdate unset metrics MI.wakeupsMessageCount none).2
  let metrics :=
    (metricsUpdate unset metrics MI.sizeTotal (some (u32.value (.ofNat message.length)))).2
  message.dropped.foldl (eagainUpdateSendMetric unset) metrics

/-- Source: `pre_receive_metrics`. -/
def preReceiveMetrics (now : UInt64) (metrics : List Descriptor) : List Descriptor :=
  let metrics := (metricsUpdate unset metrics MI.wakeups none).2
  let metrics := (metricsReset now metrics MI.latencyDelta).2
  (metricsReset now metrics MI.wakeupsMessageCount).2

/-- Source: `post_receive_metrics`. -/
def postReceiveMetrics (now : UInt64) (metrics : List Descriptor) : List Descriptor :=
  let count := metricsRead metrics MI.wakeupsMessageCount
  let metrics := (metricsUpdate unset metrics MI.wakeupsMax count).2
  let metrics := (metricsUpdate unset metrics MI.latencyDelta (some (time.value now))).2
  let currentLatency := metricsRead metrics MI.latencyDelta
  let metrics := (metricsUpdate unset metrics MI.latencyMax currentLatency).2
  (metricsUpdate unset metrics MI.latencyTotal currentLatency).2

/-- A wake-up: the messages and the time before and after they are read. -/
structure Wakeup where
  messages : List Message
  start : UInt64
  stop : UInt64
  length_lt : messages.length < 2 ^ 32

/-- Source: `loop_reader_callback`. -/
def loopReaderCallback (metrics : List Descriptor) (w : Wakeup) : List Descriptor :=
  postReceiveMetrics unset w.stop
    (w.messages.foldl (routerReader unset) (preReceiveMetrics unset w.start metrics))

/-- The metrics that are reset once a second. -/
def resetEachSecond : List Nat :=
  [MI.count, MI.sizeTotal, MI.wakeups, MI.wakeupsMax, MI.latency, MI.latencyMax, MI.latencyTotal,
    MI.frameCount, MI.frameLeftovers, MI.bytesDropped]

/-- Source: `loop_1s_metrics`. -/
def loop1sMetrics (now : UInt64) (metrics : List Descriptor) : List Descriptor :=
  let metrics := (metricsUpdate unset metrics MI.size none).2
  let metrics := (metricsUpdate unset metrics MI.latency none).2
  resetEachSecond.foldl (fun metrics index => (metricsReset now metrics index).2) metrics

/-- What happens in the loop. -/
inductive Event where
  | wakeup (w : Wakeup)
  | second (now : UInt64)

def handle (metrics : List Descriptor) : Event → List Descriptor
  | .wakeup w => loopReaderCallback unset metrics w
  | .second now => loop1sMetrics unset now metrics

/-- The metrics after some events, from the start of the router on. -/
def run (now : UInt64) (events : List Event) : Option (List Descriptor) :=
  (metricsSetup now messageMetricsTable).map (events.foldl (handle unset))

end

/-- The value of `wakeups_max`. -/
def wakeupsMax (metrics : List Descriptor) : Option Nat :=
  (metricsRead metrics MI.wakeupsMax).map fun v => (u32.read v.data).toNat

/-! ### What is to be measured -/

/-- The numbers of messages of the wake-ups since the last reset. -/
def sinceReset (events : List Event) : List Nat := events.foldl (fun counts e =>
    match e with
    | .wakeup w => counts ++ [w.messages.length]
    | .second _ => []) []

/-- The largest number, 0 if there is none. -/
def largest (counts : List Nat) : Nat := counts.foldl max 0

/-- After each wake-up the metric is the largest number of messages since the last reset. -/
def MaxOk (unset : MetricsValue) (now : UInt64) (events : List Event) : Prop :=
  ∀ done w, done ++ [.wakeup w] <+: events → (run unset now (done ++ [.wakeup w])).bind wakeupsMax =
      some (largest (sinceReset (done ++ [.wakeup w])))

/-- A wake-up without messages comes after one with some, with no reset between them. -/
def EmptyAfterSome (events : List Event) : Prop :=
  ∃ done w, done ++ [.wakeup w] <+: events ∧ w.messages = [] ∧ ∃ n ∈ sinceReset done, 0 < n

/-! ### A wake-up -/

/-- The table has the settings of the router. -/
def IsRouterTable (metrics : List Descriptor) : Prop :=
  metrics.map Descriptor.setting = messageMetricsTable.map fun entry => (entry, emptyValue)

section
variable {unset : MetricsValue} {metrics : List Descriptor}

lemma IsRouterTable.of_map_eq {metrics' : List Descriptor} (h : IsRouterTable metrics)
    (hmap : metrics'.map Descriptor.setting = metrics.map Descriptor.setting) :
    IsRouterTable metrics' := hmap.trans h

lemma IsRouterTable.setting_wakeupsMax (h : IsRouterTable metrics) :
    (metrics.map Descriptor.setting)[MI.wakeupsMax]? =
      some (⟨.u32, .max, .default⟩, emptyValue) := by
  rw [h]
  rfl

lemma IsRouterTable.setting_wakeupsMessageCount (h : IsRouterTable metrics) :
    (metrics.map Descriptor.setting)[MI.wakeupsMessageCount]? =
      some (⟨.u32, .count, .default⟩, emptyValue) := by
  rw [h]
  rfl

lemma foldl_eagain_setting (dropped : List Nat) :
    (dropped.foldl (eagainUpdateSendMetric unset) metrics).map Descriptor.setting =
      metrics.map Descriptor.setting := by
  induction dropped generalizing metrics with
  | nil => rfl
  | cons d dropped ih =>
    rw [foldl_cons, ih]
    exact map_setting_metricsUpdate _

lemma foldl_eagain_read (dropped : List Nat) {j : Nat} (hj : MI.bytesDropped ≠ j) :
    metricsRead (dropped.foldl (eagainUpdateSendMetric unset) metrics) j =
      metricsRead metrics j := by
  induction dropped generalizing metrics with
  | nil => rfl
  | cons d dropped ih =>
    rw [foldl_cons, ih]
    exact metricsRead_metricsUpdate_of_ne hj _

lemma routerReader_setting (message : Message) :
    (routerReader unset metrics message).map Descriptor.setting =
      metrics.map Descriptor.setting := by
  simp only [routerReader, foldl_eagain_setting, map_setting_metricsUpdate]

lemma routerReader_wakeupsMax (message : Message) :
    metricsRead (routerReader unset metrics message) MI.wakeupsMax =
      metricsRead metrics MI.wakeupsMax := by
  unfold routerReader
  rw [foldl_eagain_read _ (by decide), metricsRead_metricsUpdate_of_ne (by decide),
    metricsRead_metricsUpdate_of_ne (by decide), metricsRead_metricsUpdate_of_ne (by decide)]

/-- Each message counts one, and gives the counter its tag. -/
lemma routerReader_wakeupsMessageCount (h : IsRouterTable metrics) {v : MetricsValue}
    (hv : metricsRead metrics MI.wakeupsMessageCount = some v) (message : Message) :
    metricsRead (routerReader unset metrics message) MI.wakeupsMessageCount =
      some (u32.value (u32.read v.data + 1)) := by
  unfold routerReader
  have hsetting : IsRouterTable (metricsUpdate unset metrics MI.count none).2 :=
    h.of_map_eq (map_setting_metricsUpdate none)
  have hread : metricsRead (metricsUpdate unset metrics MI.count none).2
      MI.wakeupsMessageCount = some v := by
    rw [metricsRead_metricsUpdate_of_ne (by decide), hv]
  rw [foldl_eagain_read _ (by decide), metricsRead_metricsUpdate_of_ne (by decide)]
  exact metricsRead_metricsUpdate hsetting.setting_wakeupsMessageCount hread none

/-- What is left of the table when the messages are read. -/
lemma foldl_routerReader_frame (messages : List Message) :
    (messages.foldl (routerReader unset) metrics).map Descriptor.setting =
        metrics.map Descriptor.setting ∧
      metricsRead (messages.foldl (routerReader unset) metrics) MI.wakeupsMax =
        metricsRead metrics MI.wakeupsMax := by
  induction messages generalizing metrics with
  | nil => exact ⟨rfl, rfl⟩
  | cons message messages ih =>
    obtain ⟨hsetting, hread⟩ := @ih (routerReader unset metrics message)
    exact ⟨hsetting.trans (routerReader_setting message),
      hread.trans (routerReader_wakeupsMax message)⟩

lemma u32_read_value (x : UInt32) : u32.read (u32.value x).data = x := UInt32.toUInt32_toUInt64 x

/-- The counter has a tag only if there was a message. -/
lemma foldl_routerReader_wakeupsMessageCount (h : IsRouterTable metrics) {v : MetricsValue}
    (hv : metricsRead metrics MI.wakeupsMessageCount = some v) (messages : List Message) :
    metricsRead (messages.foldl (routerReader unset) metrics) MI.wakeupsMessageCount =
      some (if messages = [] then v
        else u32.value (u32.read v.data + .ofNat messages.length)) := by
  induction messages generalizing metrics v with
  | nil => exact hv
  | cons message messages ih =>
    rw [foldl_cons, ih (h.of_map_eq (routerReader_setting message))
      (routerReader_wakeupsMessageCount h hv message), if_neg (cons_ne_nil _ _)]
    cases messages with
    | nil => rfl
    | cons next messages =>
      rw [if_neg (cons_ne_nil _ _), u32_read_value, length_cons (a := message),
        UInt32.add_assoc, ← UInt32.ofNat_one, ← UInt32.ofNat_add, Nat.add_comm 1]

lemma preReceiveMetrics_setting (now : UInt64) :
    (preReceiveMetrics unset now metrics).map Descriptor.setting =
      metrics.map Descriptor.setting := by
  simp only [preReceiveMetrics, map_setting_metricsReset, map_setting_metricsUpdate]

lemma preReceiveMetrics_wakeupsMax (now : UInt64) :
    metricsRead (preReceiveMetrics unset now metrics) MI.wakeupsMax =
      metricsRead metrics MI.wakeupsMax := by
  unfold preReceiveMetrics
  rw [metricsRead_metricsReset_of_ne (by decide), metricsRead_metricsReset_of_ne (by decide),
    metricsRead_metricsUpdate_of_ne (by decide)]

/-- The counter is empty before the messages are read. -/
lemma preReceiveMetrics_wakeupsMessageCount (h : IsRouterTable metrics) (now : UInt64) :
    metricsRead (preReceiveMetrics unset now metrics) MI.wakeupsMessageCount = some emptyValue := by
  refine metricsRead_metricsReset (IsRouterTable.setting_wakeupsMessageCount (h.of_map_eq ?_))
  rw [map_setting_metricsReset, map_setting_metricsUpdate]

lemma postReceiveMetrics_setting (now : UInt64) :
    (postReceiveMetrics unset now metrics).map Descriptor.setting =
      metrics.map Descriptor.setting := by
  simp only [postReceiveMetrics, map_setting_metricsUpdate]

lemma postReceiveMetrics_wakeupsMax (h : IsRouterTable metrics) {v c : MetricsValue}
    (hv : metricsRead metrics MI.wakeupsMax = some v)
    (hc : metricsRead metrics MI.wakeupsMessageCount = some c) (now : UInt64) :
    metricsRead (postReceiveMetrics unset now metrics) MI.wakeupsMax =
      some (metricsUpdaterMax .u32 v c) := by
  unfold postReceiveMetrics
  rw [metricsRead_metricsUpdate_of_ne (by decide), metricsRead_metricsUpdate_of_ne (by decide),
    metricsRead_metricsUpdate_of_ne (by decide), hc]
  exact metricsRead_metricsUpdate h.setting_wakeupsMax hv (some c)

lemma loopReaderCallback_setting (w : Wakeup) :
    (loopReaderCallback unset metrics w).map Descriptor.setting =
      metrics.map Descriptor.setting := by
  unfold loopReaderCallback
  rw [postReceiveMetrics_setting, (foldl_routerReader_frame _).1, preReceiveMetrics_setting]

/-- A wake-up without messages empties the maximum, another one takes the larger number. -/
theorem metricsRead_loopReaderCallback (h : IsRouterTable metrics) {v : MetricsValue}
    (hv : metricsRead metrics MI.wakeupsMax = some v) (w : Wakeup) :
    metricsRead (loopReaderCallback unset metrics w) MI.wakeupsMax =
      some (if w.messages = [] then emptyValue
        else u32.value (swftMax (u32.read v.data) (.ofNat w.messages.length))) := by
  have hpre : IsRouterTable (preReceiveMetrics unset w.start metrics) :=
    h.of_map_eq (preReceiveMetrics_setting w.start)
  have hcount := @foldl_routerReader_wakeupsMessageCount unset _ hpre _
    (preReceiveMetrics_wakeupsMessageCount h w.start) w.messages
  obtain ⟨hsetting, hread⟩ :=
    @foldl_routerReader_frame unset (preReceiveMetrics unset w.start metrics) w.messages
  have hmax := hread.trans ((preReceiveMetrics_wakeupsMax w.start).trans hv)
  unfold loopReaderCallback
  rw [postReceiveMetrics_wakeupsMax (hpre.of_map_eq hsetting) hmax hcount]
  split_ifs with hnil
  · rfl
  · have hzero : u32.read emptyValue.data + .ofNat w.messages.length =
        UInt32.ofNat w.messages.length := UInt32.zero_add _
    have htag : ¬(u32.value (.ofNat w.messages.length)).type ≠ .u32 := not_not.mpr rfl
    rw [hzero, metricsUpdaterMax, if_neg htag]
    exact congrArg (fun n => some (u32.value (swftMax _ n))) (u32_read_value _)

/-! ### Runs -/

lemma foldl_metricsReset_setting (now : UInt64) (indices : List Nat) :
    (indices.foldl (fun metrics index => (metricsReset now metrics index).2) metrics).map
      Descriptor.setting = metrics.map Descriptor.setting := by
  induction indices generalizing metrics with
  | nil => rfl
  | cons index indices ih => rw [foldl_cons, ih, map_setting_metricsReset]

lemma loop1sMetrics_setting (now : UInt64) :
    (loop1sMetrics unset now metrics).map Descriptor.setting = metrics.map Descriptor.setting := by
  unfold loop1sMetrics
  rw [foldl_metricsReset_setting, map_setting_metricsUpdate, map_setting_metricsUpdate]

lemma metricsRead_loop1sMetrics (h : IsRouterTable metrics) (now : UInt64) :
    metricsRead (loop1sMetrics unset now metrics) MI.wakeupsMax = some emptyValue := by
  unfold loop1sMetrics resetEachSecond
  simp only [foldl_cons, foldl_nil]
  iterate 6 rw [metricsRead_metricsReset_of_ne (by decide)]
  refine metricsRead_metricsReset (IsRouterTable.setting_wakeupsMax (h.of_map_eq ?_))
  simp only [map_setting_metricsReset, map_setting_metricsUpdate]

lemma handle_setting (e : Event) :
    (handle unset metrics e).map Descriptor.setting = metrics.map Descriptor.setting := by
  cases e with
  | wakeup w => rw [handle, loopReaderCallback_setting]
  | second now => rw [handle, loop1sMetrics_setting]

end

/-- What the metric becomes: a wake-up without messages makes it 0. -/
def tracked (counts : List Nat) : Nat := counts.foldl (fun v n => if n = 0 then 0 else max v n) 0

lemma tracked_append (counts : List Nat) (n : Nat) :
    tracked (counts ++ [n]) = if n = 0 then 0 else max (tracked counts) n := by
  rw [tracked, foldl_append]
  rfl

lemma largest_append (counts : List Nat) (n : Nat) :
    largest (counts ++ [n]) = max (largest counts) n := by
  rw [largest, foldl_append]
  rfl

lemma sinceReset_wakeup (events : List Event) (w : Wakeup) :
    sinceReset (events ++ [.wakeup w]) = sinceReset events ++ [w.messages.length] := by
  rw [sinceReset, foldl_append]
  rfl

lemma sinceReset_second (events : List Event) (now : UInt64) :
    sinceReset (events ++ [.second now]) = [] := by
  rw [sinceReset, foldl_append]
  rfl

lemma toNat_swftMax (a b : UInt32) : (swftMax a b).toNat = max a.toNat b.toNat := by
  unfold swftMax
  split_ifs with h
  · exact (Nat.max_eq_left (Nat.le_of_lt (UInt32.lt_iff_toNat_lt.mp h))).symm
  · exact (Nat.max_eq_right (UInt32.le_iff_toNat_le.mp (UInt32.not_lt.mp h))).symm

/-- The state that a run leads to: the table is the router's, and the maximum is tracked. -/
structure Tracks (counts : List Nat) (metrics : List Descriptor) : Prop where
  table : IsRouterTable metrics
  read : ∃ v, metricsRead metrics MI.wakeupsMax = some v ∧ (u32.read v.data).toNat = tracked counts

/-- Each event keeps the maximum tracked. -/
lemma Tracks.step {events : List Event} {metrics : List Descriptor}
    (h : Tracks (sinceReset events) metrics) (unset : MetricsValue) (e : Event) :
    Tracks (sinceReset (events ++ [e])) (handle unset metrics e) := by
  obtain ⟨v, hv, hnat⟩ := h.read
  refine ⟨h.table.of_map_eq (handle_setting e), ?_⟩
  cases e with
  | second now =>
    rw [handle, sinceReset_second]
    refine ⟨emptyValue, metricsRead_loop1sMetrics h.table now, ?_⟩
    rfl
  | wakeup w =>
    rw [handle, sinceReset_wakeup, tracked_append]
    refine ⟨_, metricsRead_loopReaderCallback h.table hv w, ?_⟩
    by_cases hnil : w.messages = []
    · rw [if_pos hnil, if_pos (length_eq_zero_iff.mpr hnil)]
      rfl
    · rw [if_neg hnil, if_neg (mt length_eq_zero_iff.mp hnil), u32_read_value,
        toNat_swftMax, hnat, UInt32.toNat_ofNat_of_lt' w.length_lt]

lemma run_append (unset : MetricsValue) (now : UInt64) (events : List Event) (e : Event) :
    run unset now (events ++ [e]) = (run unset now events).map (handle unset · e) := by
  unfold run
  rw [Option.map_map]
  congr 1
  funext metrics
  rw [foldl_append]
  rfl

lemma exists_run (unset : MetricsValue) (now : UInt64) (events : List Event) :
    ∃ metrics, run unset now events = some metrics ∧ Tracks (sinceReset events) metrics := by
  induction events using List.reverseRecOn with
  | nil =>
    refine ⟨_, congrArg (Option.map _) (metricsSetup_eq now (by decide)), rfl, emptyValue, rfl, ?_⟩
    rfl
  | append_singleton events e ih =>
    obtain ⟨metrics, hrun, htracks⟩ := ih
    exact ⟨handle unset metrics e, by rw [run_append, hrun, map_some], htracks.step unset e⟩

/-- The metric after some events. -/
lemma run_bind_wakeupsMax (unset : MetricsValue) (now : UInt64) (events : List Event) :
    (run unset now events).bind wakeupsMax = some (tracked (sinceReset events)) := by
  obtain ⟨metrics, hrun, htracks⟩ := exists_run unset now events
  obtain ⟨v, hv, hnat⟩ := htracks.read
  rw [hrun, bind_some, wakeupsMax, hv, map_some, hnat]

/-! ### When the maximum is right -/

lemma le_largest {counts : List Nat} {n : Nat} (h : n ∈ counts) : n ≤ largest counts := by
  induction counts using List.reverseRecOn with
  | nil => exact absurd h not_mem_nil
  | append_singleton counts m ih =>
    rw [largest_append]
    rcases mem_append.mp h with h | h
    · exact Nat.le_trans (ih h) (Nat.le_max_left _ _)
    · rw [mem_singleton.mp h]
      exact Nat.le_max_right _ _

lemma largest_eq_zero {counts : List Nat} (h : ∀ n ∈ counts, n = 0) : largest counts = 0 := by
  induction counts using List.reverseRecOn with
  | nil => rfl
  | append_singleton counts m ih =>
    rw [largest_append, ih fun n hn => h n (mem_append_left _ hn),
      h m (mem_append_right _ mem_cons_self), Nat.max_self]

/-- If no empty wake-up comes after one with messages the largest number is tracked. -/
lemma tracked_eq_largest {events done : List Event} (h : ¬EmptyAfterSome events)
    (hdone : done <+: events) : tracked (sinceReset done) = largest (sinceReset done) := by
  induction done using List.reverseRecOn with
  | nil => rfl
  | append_singleton done e ih =>
    have hfirst := ih ((prefix_append done [e]).trans hdone)
    cases e with
    | second now => rw [sinceReset_second]; rfl
    | wakeup w =>
      rw [sinceReset_wakeup, tracked_append, largest_append]
      by_cases hnil : w.messages = []
      · have hzero : ∀ n ∈ sinceReset done, n = 0 := by
          intro n hn
          by_contra hne
          exact h ⟨done, w, hdone, hnil, n, hn, Nat.pos_of_ne_zero hne⟩
        rw [hnil, length_nil, if_pos rfl, largest_eq_zero hzero, Nat.max_self]
      · rw [if_neg (mt length_eq_zero_iff.mp hnil), hfirst]

/-- The metric is right after each wake-up exactly if no wake-up without messages comes after one
with some before the next reset. -/
theorem maxOk_iff (unset : MetricsValue) (now : UInt64) (events : List Event) :
    MaxOk unset now events ↔ ¬EmptyAfterSome events := by
  constructor
  · rintro h ⟨done, w, hdone, hnil, n, hn, hpos⟩
    have hmax := h done w hdone
    rw [run_bind_wakeupsMax, sinceReset_wakeup, tracked_append, hnil, length_nil,
      if_pos rfl, largest_append] at hmax
    have hle := le_largest hn
    have hzero := some.inj hmax
    omega
  · intro h done w hdone
    rw [run_bind_wakeupsMax, tracked_eq_largest h hdone]

/-- A wake-up that reads some messages. -/
def reads (n : Nat) (h : n < 2 ^ 32) : Wakeup :=
  ⟨List.replicate n ⟨10, []⟩, 0, 0, by rwa [length_replicate]⟩

/-- Three messages, and then a wake-up without any. -/
def threeThenNone : List Event := [.wakeup (reads 3 (by decide)), .wakeup (reads 0 (by decide))]

/-- The maximum is 0 after the second wake-up. -/
theorem not_maxOk_threeThenNone : (run emptyValue 0 threeThenNone).bind wakeupsMax = some 0 ∧
      ¬MaxOk emptyValue 0 threeThenNone := by
  have hzero : (run emptyValue 0 threeThenNone).bind wakeupsMax = some 0 := by
    rfl
  refine ⟨hzero, fun h => ?_⟩
  have hmax := h [.wakeup (reads 3 (by decide))] (reads 0 (by decide)) (prefix_refl _)
  exact absurd (hzero.symm.trans hmax) (by decide)

end PiksiBuildroot.EndpointRouter.WakeupMetric
