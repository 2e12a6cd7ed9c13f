import Mathlib.Data.List.Basic
import Mathlib.Algebra.Group.Nat.Defs

/-!
# Metrics

A program keeps its metrics in a table. Each has a type, a function that updates its value and a
function that resets it. A value whose tag is not the type of the metric resets the metric to an
empty value, with a zero and the tag `METRICS_TYPE_UNKNOWN`. An update or a reset changes the value
of one metric and nothing else. The files that the metrics are written to are left out, and so is
an empty table pointer.
-/

namespace PiksiBuildroot.Libpiksi.Metrics

open List Option

/-! ### Values -/

/-- Source: `pk_metrics_type_t`. -/
inductive MetricsType where
  | unknown
  | s32
  | s64
  | u32
  | u64
  | f64
  | time
deriving DecidableEq

/-- Source: `pk_metrics_value_t`, with the bits of the union. -/
structure MetricsValue where
  type : MetricsType
  data : UInt64
deriving DecidableEq

/-- The value `{0}`. -/
def emptyValue : MetricsValue := ⟨.unknown, 0⟩

/-- A member of the union. -/
structure Member (α : Type) where
  type : MetricsType
  read : UInt64 → α
  write : α → UInt64

def s32 : Member Int32 := ⟨.s32, fun data => data.toUInt32.toInt32, fun x => x.toUInt32.toUInt64⟩
def s64 : Member Int64 := ⟨.s64, UInt64.toInt64, Int64.toUInt64⟩
def u32 : Member UInt32 := ⟨.u32, UInt64.toUInt32, UInt32.toUInt64⟩
def u64 : Member UInt64 := ⟨.u64, id, id⟩
def f64 : Member Float := ⟨.f64, Float.ofBits, Float.toBits⟩
def time : Member UInt64 := ⟨.time, id, id⟩

namespace Member

variable {α : Type} (m : Member α)

/-- A tagged value. -/
def value (x : α) : MetricsValue := ⟨m.type, m.write x⟩

/-- A tagged value that is computed from the current value and the one of the update. -/
def combine (op : α → α → α) (current update : MetricsValue) : MetricsValue :=
  m.value (op (m.read current.data) (m.read update.data))

/-- A tagged quotient, 0 if the denominator is 0. -/
def quotient [OfNat α 0] [BEq α] [Div α] (num : MetricsValue) (dom : α) : MetricsValue :=
  m.value (if dom == 0 then 0 else m.read num.data / dom)

end Member

/-- Source: `SWFT_MAX`. -/
def swftMax {α : Type} [LT α] [DecidableLT α] (a b : α) : α := if a > b then a else b

/-! ### Updates and resets -/

/-- The update functions, `average` with the indices from its context. -/
inductive Updater where
  | sum
  | delta
  | average (indexOfNum indexOfDom : Nat)
  | max
  | count
  | assign
deriving DecidableEq

/-- The reset functions. -/
inductive Reseter where
  | default
  | time
deriving DecidableEq

/-- Source: `_pk_metrics_table_entry_t`. -/
structure TableEntry where
  type : MetricsType
  updater : Updater
  reseter : Reseter
deriving DecidableEq

/-- Source: `metrics_descriptor_t`. -/
structure Descriptor where
  entry : TableEntry
  initialValue : MetricsValue
  value : MetricsValue

/-- What a descriptor was set up with. -/
def Descriptor.setting (d : Descriptor) : TableEntry × MetricsValue := (d.entry, d.initialValue)

/-- Source: `pk_metrics_reset_default`. -/
def metricsResetDefault (initial : MetricsValue) : MetricsValue := initial

/-- Source: `pk_metrics_reset_time`, which does not tag the value. -/
def metricsResetTime (now : UInt64) : MetricsValue := ⟨.unknown, time.write now⟩

def Reseter.reset (now : UInt64) (initial : MetricsValue) : Reseter → MetricsValue
  | .default => metricsResetDefault initial
  | .time => metricsResetTime now

/-- Source: `pk_metrics_updater_sum`. -/
def metricsUpdaterSum (type : MetricsType) (current update : MetricsValue) : MetricsValue :=
  if update.type ≠ type then emptyValue
  else
    match type with
    | .u32 => u32.combine (· + ·) current update
    | .s32 => s32.combine (· + ·) current update
    | .u64 => u64.combine (· + ·) current update
    | .s64 => s64.combine (· + ·) current update
    | .f64 => f64.combine (· + ·) current update
    -- the sum of two times has no tag
    | .time => { time.combine (· + ·) current update with type := .unknown }
    | .unknown => emptyValue

/-- Source: `pk_metrics_updater_delta`. -/
def metricsUpdaterDelta (type : MetricsType) (current update : MetricsValue) : MetricsValue :=
  if update.type ≠ type then emptyValue
  else
    match type with
    | .u32 => u32.combine (fun c u => u - c) current update
    | .s32 => s32.combine (fun c u => u - c) current update
    | .u64 => u64.combine (fun c u => u - c) current update
    | .s64 => s64.combine (fun c u => u - c) current update
    | .f64 => f64.combine (fun c u => u - c) current update
    | .time => time.combine (fun c u => u - c) current update
    | .unknown => emptyValue

/-- Source: `pk_metrics_updater_max`. -/
def metricsUpdaterMax (type : MetricsType) (current update : MetricsValue) : MetricsValue :=
  if update.type ≠ type then emptyValue
  else
    match type with
    | .u32 => u32.combine swftMax current update
    | .s32 => s32.combine swftMax current update
    | .u64 => u64.combine swftMax current update
    | .s64 => s64.combine swftMax current update
    | .f64 => f64.combine swftMax current update
    | .time => time.combine swftMax current update
    | .unknown => emptyValue

/-- Source: `pk_metrics_updater_count`. -/
def metricsUpdaterCount (type : MetricsType) (current : MetricsValue) : MetricsValue :=
  match type with
  | .u32 => u32.value (u32.read current.data + 1)
  | .s32 => s32.value (s32.read current.data + 1)
  | .u64 => u64.value (u64.read current.data + 1)
  | .s64 => s64.value (s64.read current.data + 1)
  | .f64 => f64.value (f64.read current.data + 1)
  | .time | .unknown => emptyValue

/-- Source: `pk_metrics_updater_assign`. -/
def metricsUpdaterAssign (type : MetricsType) (update : MetricsValue) : MetricsValue :=
  if update.type ≠ type then emptyValue else update

/-- Source: `get_denominator_value`, absent for the type that its caller has excluded. -/
def getDenominatorValue (type : MetricsType) (value : MetricsValue) : Option UInt64 :=
  match type with
  | .u32 => some (u32.read value.data).toUInt64
  | .u64 => some (u64.read value.data)
  | .s32 => some (s32.read value.data).toInt64.toUInt64
  | .s64 => some (s64.read value.data).toUInt64
  | .f64 => some (f64.read value.data).toUInt64
  | .time => some (time.read value.data)
  | .unknown => none

/-- Source: `pk_metrics_updater_average`, of two metrics of the table. -/
def metricsUpdaterAverage (metrics : List Descriptor) (indexOfNum indexOfDom : Nat)
    (type : MetricsType) : MetricsValue :=
  match metrics[indexOfNum]?, metrics[indexOfDom]? with
  | some num, some dom =>
    match getDenominatorValue dom.entry.type dom.value with
    | none => emptyValue
    | some domValue =>
      if num.entry.type ≠ type then emptyValue
      else
        match type with
        | .u32 => u32.quotient num.value domValue.toUInt32
        | .s32 => s32.quotient num.value domValue.toUInt32.toInt32
        | .u64 => u64.quotient num.value domValue
        | .s64 => s64.quotient num.value domValue.toInt64
        | .f64 => f64.quotient num.value domValue.toFloat
        | .time => time.quotient num.value domValue
        | .unknown => emptyValue
  | _, _ => emptyValue

def Updater.update (metrics : List Descriptor) (type : MetricsType)
    (current update : MetricsValue) : Updater → MetricsValue
  | .sum => metricsUpdaterSum type current update
  | .delta => metricsUpdaterDelta type current update
  | .average indexOfNum indexOfDom => metricsUpdaterAverage metrics indexOfNum indexOfDom type
  | .max => metricsUpdaterMax type current update
  | .count => metricsUpdaterCount type current
  | .assign => metricsUpdaterAssign type update

/-! ### The table -/

/-- Source: the statuses of `pk_metrics_status_t` that the operations on a table return. -/
inductive MetricsStatus where
  | invalidIndex
  | success
deriving DecidableEq

/-- Source: `MAX_METRICS`. -/
def maxMetrics : Nat := 32

/-- Source: `pk_metrics_add`, if the file of the metric can be made. -/
def metricsAdd (now : UInt64) (metrics : List Descriptor) (entry : TableEntry)
    (initial : MetricsValue) : Option (List Descriptor) :=
  if maxMetrics ≤ metrics.length then none
  else some (metrics ++ [⟨entry, initial, entry.reseter.reset now initial⟩])

/-- Source: `pk_metrics_setup`. -/
def metricsSetup (now : UInt64) (table : List TableEntry) : Option (List Descriptor) :=
  table.foldlM (fun metrics entry => metricsAdd now metrics entry emptyValue) []

/-- Source: `_pk_metrics_update`. `unset` is what is read if no value is passed. -/
def metricsUpdate (unset : MetricsValue) (metrics : List Descriptor) (index : Nat)
    (value : Option MetricsValue) : MetricsStatus × List Descriptor :=
  if metrics.length ≤ index then (.invalidIndex, metrics)
  else
    (.success, metrics.modify index fun desc =>
      { desc with
        value := desc.entry.updater.update metrics desc.entry.type desc.value
          (value.getD unset) })

/-- Source: `pk_metrics_reset`. -/
def metricsReset (now : UInt64) (metrics : List Descriptor) (index : Nat) :
    MetricsStatus × List Descriptor :=
  if metrics.length ≤ index then (.invalidIndex, metrics)
  else
    (.success, metrics.modify index fun desc =>
      { desc with value := desc.entry.reseter.reset now desc.initialValue })

/-- Source: `pk_metrics_read`, absent if the index is not valid. -/
def metricsRead (metrics : List Descriptor) (index : Nat) : Option MetricsValue :=
  metrics[index]?.map (·.value)

section
variable {unset : MetricsValue} {now : UInt64} {metrics : List Descriptor} {i j : Nat}

lemma map_setting_modify (f : Descriptor → MetricsValue) :
    (metrics.modify i fun d => { d with value := f d }).map Descriptor.setting =
      metrics.map Descriptor.setting := by
  apply ext_getElem?
  intro k
  rw [getElem?_map, getElem?_map, getElem?_modify]
  cases metrics[k]? with
  | none => rfl
  | some d =>
    split_ifs <;> rfl

/-- An update leaves the settings of the table. -/
@[simp] theorem map_setting_metricsUpdate (value : Option MetricsValue) :
    (metricsUpdate unset metrics i value).2.map Descriptor.setting =
      metrics.map Descriptor.setting := by
  unfold metricsUpdate
  split_ifs
  · rfl
  · exact map_setting_modify _

/-- A reset leaves the settings of the table. -/
@[simp] theorem map_setting_metricsReset :
    (metricsReset now metrics i).2.map Descriptor.setting = metrics.map Descriptor.setting := by
  unfold metricsReset
  split_ifs
  · rfl
  · exact map_setting_modify _

/-- An update leaves the value of another metric. -/
theorem metricsRead_metricsUpdate_of_ne (h : i ≠ j) (value : Option MetricsValue) :
    metricsRead (metricsUpdate unset metrics i value).2 j = metricsRead metrics j := by
  unfold metricsUpdate metricsRead
  split_ifs
  · rfl
  · exact congrArg (Option.map _) (getElem?_modify_ne _ _ h)

/-- A reset leaves the value of another metric. -/
theorem metricsRead_metricsReset_of_ne (h : i ≠ j) :
    metricsRead (metricsReset now metrics i).2 j = metricsRead metrics j := by
  unfold metricsReset metricsRead
  split_ifs
  · rfl
  · exact congrArg (Option.map _) (getElem?_modify_ne _ _ h)

lemma not_length_le {d : Descriptor} (h : metrics[i]? = some d) : ¬metrics.length ≤ i := by
  intro hle
  rw [getElem?_eq_none hle] at h
  cases h

lemma metricsRead_metricsUpdate {entry : TableEntry} {initial v : MetricsValue}
    (hsetting : (metrics.map Descriptor.setting)[i]? = some (entry, initial))
    (hv : metricsRead metrics i = some v) (value : Option MetricsValue) :
    metricsRead (metricsUpdate unset metrics i value).2 i =
      some (entry.updater.update metrics entry.type v (value.getD unset)) := by
  rw [getElem?_map] at hsetting
  obtain ⟨d, hd, hset⟩ := map_eq_some_iff.mp hsetting
  cases hset
  obtain rfl : d.value = v := by
    rw [metricsRead, hd] at hv
    exact some.inj hv
  rw [metricsUpdate, if_neg (not_length_le hd), metricsRead, getElem?_modify_eq, hd]
  rfl

lemma metricsRead_metricsReset {entry : TableEntry} {initial : MetricsValue}
    (hsetting : (metrics.map Descriptor.setting)[i]? = some (entry, initial)) :
    metricsRead (metricsReset now metrics i).2 i = some (entry.reseter.reset now initial) := by
  rw [getElem?_map] at hsetting
  obtain ⟨d, hd, hset⟩ := map_eq_some_iff.mp hsetting
  cases hset
  rw [metricsReset, if_neg (not_length_le hd), metricsRead, getElem?_modify_eq, hd]
  rfl

end

/-- Setting up a table that is not too large. -/
lemma foldlM_metricsAdd (now : UInt64) (table : List TableEntry) (metrics : List Descriptor)
    (h : metrics.length + table.length ≤ maxMetrics) :
    table.foldlM (fun metrics entry => metricsAdd now metrics entry emptyValue) metrics =
      some (metrics ++ table.map fun entry =>
        ⟨entry, emptyValue, entry.reseter.reset now emptyValue⟩) := by
  induction table generalizing metrics with
  | nil => simp
  | cons entry table ih =>
    rw [length_cons] at h
    have hlt : ¬maxMetrics ≤ metrics.length := by omega
    rw [foldlM_cons, metricsAdd, if_neg hlt, bind_eq_bind, bind_some,
      ih _ (by rw [length_append, length_singleton]; omega), append_assoc]
    rfl

lemma metricsSetup_eq (now : UInt64) {table : List TableEntry}
    (h : table.length ≤ maxMetrics) :
    metricsSetup now table =
      some (table.map fun entry => ⟨entry, emptyValue, entry.reseter.reset now emptyValue⟩) :=
  foldlM_metricsAdd now table [] (by rwa [length_nil, Nat.zero_add])

end PiksiBuildroot.Libpiksi.Metrics
