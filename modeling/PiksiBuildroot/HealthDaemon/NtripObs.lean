import PiksiBuildroot.HealthDaemon.Monitor

/-!
# The monitor of NTRIP observations

The monitor warns at the second expiry of its timer at which NTRIP is enabled and GPS time is
available, counted from the latest base observation or notification that NTRIP is enabled. A base
observation resets both the count and the timer. A notification resets only the count, and the first
expiry may follow at once (`EnabledOnRestart`, `warning_timing`).
-/

namespace PiksiBuildroot.HealthDaemon

open Lib TimedComponent List

/-! ### The callbacks -/

/-- In milliseconds. Source: `NTRIP_OBS_ALERT_RATE_LIMIT`. -/
def ntripObsAlertRateLimit : Nat := 10000

/-- In milliseconds. Source: `NTRIP_OBS_PERIOD_BEFORE_WARN`. -/
def ntripObsPeriodBeforeWarn : Nat := 20000

/-- The quotient is the one of the source: it is 0. Source: `max_timeout_count_before_warn`. -/
def maxTimeoutCountBeforeWarn : BitVec 8 :=
  BitVec.ofNat 8 (ntripObsAlertRateLimit / ntripObsPeriodBeforeWarn)

/-- Source: the static variable `ntrip_obs_ctx`; with it what `device_has_gps_time` returns. -/
structure NtripContext where
  ntripEnabled : Bool := false
  timeoutCounter : BitVec 8 := 0
  deviceHasGpsTime : Bool := false

/-- A notification of the setting, or a change of the availability of GPS time. -/
inductive NtripEvent
  | enable (enabled : Bool)
  | gpsTime (available : Bool)
  deriving DecidableEq

/-- The variable of the setting is written before the notification. Source:
`notify_ntrip_enabled`. -/
def notifyNtripEnabled (ctx : NtripContext) (enabled : Bool) : NtripContext :=
  if enabled then { ctx with ntripEnabled := true, timeoutCounter := 0 }
  else { ctx with ntripEnabled := false }

/-- Source: `sbp_msg_ntrip_obs_callback`. -/
def sbpMsgNtripObsCallback (ctx : NtripContext) (m : ObsMessage) : NtripContext × Int :=
  if m.senderId = msgForwardSenderId then ({ ctx with timeoutCounter := 0 }, 0) else (ctx, 1)

/-- Source: `ntrip_obs_timer_callback`. -/
def ntripObsTimerCallback (ctx : NtripContext) : NtripContext × Bool :=
  if !ctx.ntripEnabled then (ctx, false)
  else if !ctx.deviceHasGpsTime then (ctx, false)
  else if ctx.timeoutCounter > maxTimeoutCountBeforeWarn then (ctx, true)
  else ({ ctx with timeoutCounter := ctx.timeoutCounter + 1 }, false)

/-- Source: `ntrip_obs_timeout_health_monitor_init`. -/
def ntripObsMonitor : Monitor NtripContext NtripEvent where
  timerPeriod := ntripObsAlertRateLimit
  context := {}
  msgCb := sbpMsgNtripObsCallback
  timerCb := ntripObsTimerCallback
  notify ctx
    | .enable enabled => (notifyNtripEnabled ctx enabled, false)
    | .gpsTime available => ({ ctx with deviceHasGpsTime := available }, false)

abbrev NtripState := TimedState NtripContext (Input NtripEvent)

abbrev NtripLog := TimedLog (Input NtripEvent)

/-! ### The steps of the monitor -/

/-- An input sets the counter to 0 or leaves it. -/
lemma timeoutCounter_input (ctx : NtripContext) (i : Input NtripEvent) :
    (ntripObsMonitor.component.input ctx i).1.timeoutCounter = 0 ∨
      (ntripObsMonitor.component.input ctx i).1.timeoutCounter = ctx.timeoutCounter := by
  cases i with
  | message m =>
    simp only [Monitor.component, Monitor.healthMonitorMessageCallback, ntripObsMonitor,
      sbpMsgNtripObsCallback]
    split
    · exact Or.inl rfl
    · exact Or.inr rfl
  | other e =>
    cases e with
    | enable enabled =>
      cases enabled with
      | true => exact Or.inl rfl
      | false => exact Or.inr rfl
    | gpsTime available => exact Or.inr rfl

variable {m : ObsMessage} {ctx : NtripContext}

lemma input_base (ctx : NtripContext) (hm : m.FromBase) :
    ntripObsMonitor.component.input ctx (.message m) =
      ({ ctx with timeoutCounter := 0 }, true) := by
  have hsender : m.senderId = msgForwardSenderId := hm
  simp [Monitor.component, Monitor.healthMonitorMessageCallback, ntripObsMonitor,
    sbpMsgNtripObsCallback, hsender, Monitor.timerActive, ntripObsAlertRateLimit]

lemma input_foreign (ctx : NtripContext) (hm : ¬ m.FromBase) :
    ntripObsMonitor.component.input ctx (.message m) = (ctx, false) := by
  have hsender : ¬ m.senderId = msgForwardSenderId := hm
  simp [Monitor.component, Monitor.healthMonitorMessageCallback, ntripObsMonitor,
    sbpMsgNtripObsCallback, hsender]

lemma maxTimeoutCountBeforeWarn_lt_iff (counter : BitVec 8) :
    counter > maxTimeoutCountBeforeWarn ↔ counter ≠ 0 := by
  have hzero : maxTimeoutCountBeforeWarn = 0 := by decide
  bv_omega

/-- An expiry warns if NTRIP is enabled, GPS time available and the counter not 0. -/
lemma warns_iff (ctx : NtripContext) : (ntripObsMonitor.component.expire ctx).2 = true ↔
      ctx.ntripEnabled = true ∧ ctx.deviceHasGpsTime = true ∧ ctx.timeoutCounter ≠ 0 := by
  simp only [Monitor.component, ntripObsMonitor, ntripObsTimerCallback,
    maxTimeoutCountBeforeWarn_lt_iff]
  split_ifs with henabled hgps hcounter <;> simp_all

/-- The expiry that does not warn counts. -/
lemma expire_of_zero (henabled : ctx.ntripEnabled = true) (hgps : ctx.deviceHasGpsTime = true)
    (hcounter : ctx.timeoutCounter = 0) :
    ntripObsMonitor.component.expire ctx = ({ ctx with timeoutCounter := 1 }, false) := by
  simp [Monitor.component, ntripObsMonitor, ntripObsTimerCallback, henabled, hgps, hcounter]

lemma expire_of_ne_zero (henabled : ctx.ntripEnabled = true) (hgps : ctx.deviceHasGpsTime = true)
    (hcounter : ctx.timeoutCounter ≠ 0) : ntripObsMonitor.component.expire ctx = (ctx, true) := by
  have hhigh := (maxTimeoutCountBeforeWarn_lt_iff _).mpr hcounter
  simp [Monitor.component, ntripObsMonitor, ntripObsTimerCallback, henabled, hgps, hhigh]

/-! ### No warning within two periods -/

variable {s : NtripState}

/-- If inputs of a kind reset the counter and leave a whole period until the timer is due, a warning
is two periods after each of them. -/
lemma eachAlert_of_counted {ok : NtripState → TimedAction (Input NtripEvent) → Prop}
    [∀ s a, Decidable (ok s a)] {P : Input NtripEvent → Prop}
    (hcounter : ∀ ctx i, P i → (ntripObsMonitor.component.input ctx i).1.timeoutCounter = 0)
    (hdue : ∀ s i, ok s (.input i) → P i →
      s.now + ntripObsAlertRateLimit ≤ (ntripObsMonitor.component.received s i).due)
    (h : (ntripObsMonitor.component.machine.restrict ok).Reaches s) :
    EachAlert (fun t past => ∀ e i, (e, .input i) ∈ past → P i →
      e + ntripObsPeriodBeforeWarn ≤ t) s.log := by
  refine eachAlert_of_reaches h fun s hs hnow halert e i hmem hi => ?_
  have hcount : ∀ e i, (e, .input i) ∈ s.log → P i → e + ntripObsAlertRateLimit ≤ s.due ∧
      (s.comp.timeoutCounter ≠ 0 → e + ntripObsPeriodBeforeWarn ≤ s.due) := by
    refine (invariant hs regular_init
      (fun s => ∀ e i, (e, .input i) ∈ s.log → P i → e + ntripObsAlertRateLimit ≤ s.due ∧
        (s.comp.timeoutCounter ≠ 0 → e + ntripObsPeriodBeforeWarn ≤ s.due)) ?_ ?_ ?_ ?_).2
    · exact fun e i hmem => absurd hmem not_mem_nil
    · exact fun s d _ hinv _ _ => hinv
    · intro s j hs hinv hok e i hmem hi
      rcases mem_cons.mp hmem with heq | hmem
      · cases heq
        exact ⟨hdue s j hok hi, fun hne => absurd (hcounter s.comp j hi) hne⟩
      · obtain ⟨hone, htwo⟩ := hinv e i hmem hi
        have hlater := hs.due_le_received j
        refine ⟨Nat.le_trans hone hlater, fun hne => Nat.le_trans (htwo ?_) hlater⟩
        rcases timeoutCounter_input s.comp j with hzero | hsame
        · exact absurd hzero hne
        · exact fun h => hne (hsame.trans h)
    · -- a whole period has passed since, and the next expiry is another one later
      intro s _ hinv _ hnow e i hmem hi
      have hold := (hinv e i (mem_of_ne_of_mem (by simp) hmem) hi).1
      simp only [expired, Monitor.component, ntripObsMonitor, ntripObsAlertRateLimit,
        ntripObsPeriodBeforeWarn] at hold ⊢
      omega
  rw [hnow]
  exact (hcount e i hmem hi).2 ((warns_iff s.comp).mp halert).2.2

/-- A notification that NTRIP is enabled comes when the timer has just been restarted. -/
def EnabledOnRestart (s : NtripState) : TimedAction (Input NtripEvent) → Prop
  | .input (.other (.enable true)) => s.now + ntripObsAlertRateLimit ≤ s.due
  | _ => True

instance (s : NtripState) (a : TimedAction (Input NtripEvent)) :
    Decidable (EnabledOnRestart s a) := by
  unfold EnabledOnRestart
  split <;> infer_instance

/-- No warning less than two periods after a base observation. -/
lemma eachAlert_base (h : ntripObsMonitor.component.machine.Reaches s) :
    EachAlert (fun t past => ∀ o m, (o, .input (.message m)) ∈ past → m.FromBase →
      o + ntripObsPeriodBeforeWarn ≤ t) s.log := by
  let base : Input NtripEvent → Prop := fun i => ∃ m, i = .message m ∧ m.FromBase
  have hcounter : ∀ ctx i, base i →
      (ntripObsMonitor.component.input ctx i).1.timeoutCounter = 0 := by
    rintro ctx i ⟨m, rfl, hm⟩
    rw [input_base ctx hm]
  have hdue : ∀ (s : NtripState) i, True → base i →
      s.now + ntripObsAlertRateLimit ≤ (ntripObsMonitor.component.received s i).due := by
    rintro s i - ⟨m, rfl, hm⟩
    rw [received, input_base s.comp hm]
    exact Nat.le_refl _
  intro later t past hlog o m hmem hm
  exact eachAlert_of_counted hcounter hdue (h.restrict (fun _ _ => True) fun _ _ => trivial)
    later t past hlog o _ hmem ⟨m, rfl, hm⟩

/-- No warning less than two periods after NTRIP was enabled. -/
lemma eachAlert_enable
    (h : (ntripObsMonitor.component.machine.restrict EnabledOnRestart).Reaches s) :
    EachAlert (fun t past => ∀ e, (e, .input (.other (.enable true))) ∈ past →
      e + ntripObsPeriodBeforeWarn ≤ t) s.log := by
  have hcounter : ∀ ctx i, i = .other (.enable true) →
      (ntripObsMonitor.component.input ctx i).1.timeoutCounter = 0 := by
    rintro ctx i rfl
    rfl
  have hdue : ∀ s i, EnabledOnRestart s (.input i) → i = .other (.enable true) →
      s.now + ntripObsAlertRateLimit ≤ (ntripObsMonitor.component.received s i).due := by
    rintro s i hok rfl
    exact hok
  intro later t past hlog e hmem
  exact eachAlert_of_counted hcounter hdue h later t past hlog e _ hmem rfl

/-! ### A warning after two periods -/

/-- No base observation and no notification arrives, and GPS time stays available. -/
def Waiting (_ : NtripState) : TimedAction (Input NtripEvent) → Prop
  | .input (.message m) => ¬ m.FromBase
  | .input (.other (.enable _)) => False
  | .input (.other (.gpsTime available)) => available = true
  | _ => True

instance (s : NtripState) (a : TimedAction (Input NtripEvent)) : Decidable (Waiting s a) := by
  unfold Waiting
  split <;> infer_instance

/-- The state of a monitor that has warned in the two periods after `start` or is going to. -/
structure WillWarn (start : Nat) (s : NtripState) : Prop where
  enabled : s.comp.ntripEnabled = true
  gps : s.comp.deviceHasGpsTime = true
  start_le : start ≤ s.now
  first : s.comp.timeoutCounter = 0 → s.due ≤ start + ntripObsAlertRateLimit
  warning : s.due ≤ start + 2 * ntripObsAlertRateLimit ∨
    ∃ t, (t, .expired true) ∈ s.log ∧ start < t ∧ t ≤ start + 2 * ntripObsAlertRateLimit

variable {start : Nat}

/-- Nothing that arrives while waiting puts the warning off. -/
lemma WillWarn.received (h : WillWarn start s) {i : Input NtripEvent}
    (hwaiting : Waiting s (.input i)) :
    WillWarn start (ntripObsMonitor.component.received s i) := by
  have hold : s.due ≤ start + 2 * ntripObsAlertRateLimit ∨
      ∃ t, (t, .expired true) ∈ (s.now, .input i) :: s.log ∧ start < t ∧
        t ≤ start + 2 * ntripObsAlertRateLimit := by
    rcases h.warning with hcoming | ⟨t, hmem, ht⟩
    · exact Or.inl hcoming
    · exact Or.inr ⟨t, mem_cons_of_mem _ hmem, ht⟩
  cases i with
  | message m =>
    have hm : ¬ m.FromBase := hwaiting
    rw [TimedComponent.received, input_foreign s.comp hm]
    exact ⟨h.enabled, h.gps, h.start_le, h.first, hold⟩
  | other e =>
    cases e with
    | enable enabled => exact absurd hwaiting id
    | gpsTime available => exact ⟨h.enabled, hwaiting, h.start_le, h.first, hold⟩

/-- An expiry warns, or the next one is going to. -/
lemma WillWarn.expired (h : WillWarn start s) (hdue : s.now = s.due) :
    WillWarn start (ntripObsMonitor.component.expired s) := by
  have hperiod : ntripObsMonitor.component.period = ntripObsAlertRateLimit := rfl
  have hone : (1 : BitVec 8) ≠ 0 := by decide
  by_cases hcounter : s.comp.timeoutCounter = 0
  · have hfirst := h.first hcounter
    rw [TimedComponent.expired, expire_of_zero h.enabled h.gps hcounter, hperiod]
    refine ⟨h.enabled, h.gps, h.start_le, fun hzero => absurd hzero hone, Or.inl ?_⟩
    dsimp only
    omega
  · rw [TimedComponent.expired, expire_of_ne_zero h.enabled h.gps hcounter, hperiod]
    refine ⟨h.enabled, h.gps, h.start_le, fun h => absurd h hcounter, ?_⟩
    rcases h.warning with hcoming | ⟨t, hmem, ht⟩
    · rcases Nat.lt_or_eq_of_le h.start_le with hlt | rfl
      · exact Or.inr ⟨s.now, mem_cons_self, hlt, hdue ▸ hcoming⟩
      · dsimp only
        omega
    · exact Or.inr ⟨t, mem_cons_of_mem _ hmem, ht⟩

/-- With NTRIP enabled, GPS time available and nothing arriving, there is a warning in any 30 s. -/
theorem exists_warning_of_waiting {s₀ s : NtripState}
    (hs₀ : ntripObsMonitor.component.machine.Reaches s₀) (henabled : s₀.comp.ntripEnabled = true)
    (hgps : s₀.comp.deviceHasGpsTime = true)
    (h : ((ntripObsMonitor.component.machine.startAt s₀).restrict Waiting).Reaches s)
    (hlong : s₀.now + 30000 ≤ s.now) :
    ∃ t, (t, .expired true) ∈ s.log ∧ s₀.now < t ∧ t ≤ s₀.now + 30000 := by
  have hregular := regular_of_reaches hs₀
  have hdue : s₀.due ≤ s₀.now + ntripObsAlertRateLimit := hregular.due_le
  have hinit : WillWarn s₀.now s₀ :=
    ⟨henabled, hgps, Nat.le_refl _, fun _ => hdue, Or.inl (by omega)⟩
  obtain ⟨hs, hwill⟩ := invariant h hregular (WillWarn s₀.now) hinit
    (fun s d _ hinv _ _ => ⟨hinv.enabled, hinv.gps,
      Nat.le_trans hinv.start_le (Nat.le_add_right _ _), hinv.first, hinv.warning⟩)
    (fun s i _ hinv hwaiting => hinv.received hwaiting)
    (fun s _ hinv _ hdue => hinv.expired hdue)
  have hnow := hs.now_le_due
  rcases hwill.warning with hcoming | ⟨t, hmem, hlt, hle⟩
  · simp only [ntripObsAlertRateLimit] at hcoming
    omega
  · simp only [ntripObsAlertRateLimit] at hle
    exact ⟨t, hmem, hlt, by omega⟩

/-! ### Notifications between two expiries -/

/-- There is a warning less than two periods after a notification that NTRIP is enabled. -/
def EarlyWarning (log : NtripLog) : Prop :=
  ∃ later t past, log = later ++ (t, .expired true) :: past ∧
    ∃ e, (e, .input (.other (.enable true))) ∈ past ∧ t < e + ntripObsPeriodBeforeWarn

/-- The second expiry from a state with the counter at 0 warns. -/
lemma exists_warning_of_zero (hs : s.now ≤ s.due) (henabled : s.comp.ntripEnabled = true)
    (hgps : s.comp.deviceHasGpsTime = true) (hcounter : s.comp.timeoutCounter = 0) :
    ∃ s', (ntripObsMonitor.component.machine.startAt s).Reaches s' ∧
      s'.log = (s.due + ntripObsAlertRateLimit, .expired true) ::
        (s.due, .expired false) :: s.log := by
  have hstart : (ntripObsMonitor.component.machine.startAt s).Reaches s := .init
  have hfirst := reaches_expiry hstart hs
  rw [expired, expire_of_zero henabled hgps hcounter] at hfirst
  have hsecond := reaches_expiry hfirst (Nat.le_add_right _ _)
  have hone : (1 : BitVec 8) ≠ 0 := by decide
  rw [expired, @expire_of_ne_zero { s.comp with timeoutCounter := 1 } henabled hgps hone] at hsecond
  exact ⟨_, hsecond, rfl⟩

/-- If NTRIP is enabled between two expiries, GPS time is available and nothing else happens, there
is an early warning. -/
lemma exists_earlyWarning {s s₁ : NtripState} (hs : ntripObsMonitor.component.machine.Reaches s)
    {a : TimedAction (Input NtripEvent)} (hearly : ¬ EnabledOnRestart s a)
    (hstep : ntripObsMonitor.component.machine.step s a = some s₁) :
    ∃ s', (ntripObsMonitor.component.machine.startAt s₁).Reaches s' ∧ EarlyWarning s'.log := by
  obtain ⟨rfl, hdue⟩ : a = .input (.other (.enable true)) ∧
      s.due < s.now + ntripObsAlertRateLimit := by
    unfold EnabledOnRestart at hearly
    split at hearly
    · exact ⟨rfl, Nat.not_le.mp hearly⟩
    · exact absurd trivial hearly
  cases hstep
  -- GPS time becomes available, if it is not
  let s₂ := ntripObsMonitor.component.received
    (ntripObsMonitor.component.received s (.other (.enable true))) (.other (.gpsTime true))
  have hs₂ : (ntripObsMonitor.component.machine.startAt
      (ntripObsMonitor.component.received s (.other (.enable true)))).Reaches s₂ :=
    .step (a := .input (.other (.gpsTime true))) .init rfl
  obtain ⟨s', hs', hlog⟩ :=
    @exists_warning_of_zero s₂ (regular_of_reaches hs).now_le_due rfl rfl rfl
  refine ⟨s', hs'.trans_startAt hs₂, [], _, _, hlog, s.now, ?_, ?_⟩
  · exact mem_cons_of_mem _ (mem_cons_of_mem _ mem_cons_self)
  · change s.due + ntripObsAlertRateLimit < s.now + ntripObsPeriodBeforeWarn
    simp only [ntripObsAlertRateLimit, ntripObsPeriodBeforeWarn] at hdue ⊢
    omega

/-- No warning comes less than two periods after a base observation, and while NTRIP stays enabled
with GPS time available and nothing arrives, there is a warning within 30 s. In runs in which NTRIP
is only enabled when the timer was restarted, no warning comes less than two periods after that; if
it is enabled between two expiries, an early warning can follow. -/
theorem warning_timing (s : NtripState) : (ntripObsMonitor.component.machine.Reaches s →
      EachAlert (fun t past => ∀ o m, (o, .input (.message m)) ∈ past → m.FromBase →
        o + ntripObsPeriodBeforeWarn ≤ t) s.log) ∧
    (∀ s₀, ntripObsMonitor.component.machine.Reaches s₀ → s₀.comp.ntripEnabled = true →
      s₀.comp.deviceHasGpsTime = true →
      ((ntripObsMonitor.component.machine.startAt s₀).restrict Waiting).Reaches s →
      s₀.now + 30000 ≤ s.now →
      ∃ t, (t, .expired true) ∈ s.log ∧ s₀.now < t ∧ t ≤ s₀.now + 30000) ∧
    ((ntripObsMonitor.component.machine.restrict EnabledOnRestart).Reaches s →
      EachAlert (fun t past => ∀ e, (e, .input (.other (.enable true))) ∈ past →
        e + ntripObsPeriodBeforeWarn ≤ t) s.log) ∧
    ∀ a s₁, ntripObsMonitor.component.machine.Reaches s → ¬ EnabledOnRestart s a →
      ntripObsMonitor.component.machine.step s a = some s₁ →
      ∃ s', (ntripObsMonitor.component.machine.startAt s₁).Reaches s' ∧ EarlyWarning s'.log :=
  ⟨eachAlert_base,
    fun _ hs₀ henabled hgps h hlong => exists_warning_of_waiting hs₀ henabled hgps h hlong,
    eachAlert_enable, fun _ _ hs hearly hstep => exists_earlyWarning hs hearly hstep⟩

/-- NTRIP is enabled at the start. -/
def enabledState : NtripState := ntripObsMonitor.component.received
    (ntripObsMonitor.component.received ntripObsMonitor.component.machine.init
      (.other (.gpsTime true))) (.other (.enable true))

/-- NTRIP is enabled at the start: there is a warning after 20 s. If it is enabled when half of the
period is over, an early warning follows. -/
theorem warning_timing_enabledState :
    (∃ s, (ntripObsMonitor.component.machine.restrict EnabledOnRestart).Reaches s ∧
      s.log.head? = some (20000, .expired true) ∧
      EachAlert (fun t past => ∀ o m, (o, .input (.message m)) ∈ past → m.FromBase →
        o + ntripObsPeriodBeforeWarn ≤ t) s.log ∧
      EachAlert (fun t past => ∀ e, (e, .input (.other (.enable true))) ∈ past →
        e + ntripObsPeriodBeforeWarn ≤ t) s.log) ∧
    (∃ s, ((ntripObsMonitor.component.machine.startAt enabledState).restrict Waiting).Reaches s ∧
      ∃ t, (t, .expired true) ∈ s.log ∧ 0 < t ∧ t ≤ 0 + 30000) ∧
    ∃ s, ntripObsMonitor.component.machine.Reaches s ∧ EarlyWarning s.log := by
  have henabled : ntripObsMonitor.component.machine.Reaches enabledState :=
    .step (a := .input (.other (.enable true)))
      (.step (a := .input (.other (.gpsTime true))) .init rfl) rfl
  refine ⟨?_, ?_, ?_⟩
  · refine Machine.exists_reaches_and_of_run [.input (.other (.gpsTime true)),
      .input (.other (.enable true)), .pass 10000, .expire, .pass 10000, .expire]
      (by decide +kernel) ?_
    exact fun s hs _ => ⟨(warning_timing s).1 hs.of_restrict, (warning_timing s).2.2.1 hs⟩
  · obtain ⟨s, hs, hlong⟩ : ∃ s,
        ((ntripObsMonitor.component.machine.startAt enabledState).restrict Waiting).Reaches s ∧
          enabledState.now + 30000 ≤ s.now :=
      Machine.exists_reaches_of_run [.pass 10000, .expire, .pass 10000, .expire, .pass 10000]
        (by decide +kernel)
    exact ⟨s, hs, (warning_timing s).2.1 enabledState henabled rfl rfl hs hlong⟩
  · obtain ⟨s, hs, hearly⟩ : ∃ s, ntripObsMonitor.component.machine.Reaches s ∧
        ¬ EnabledOnRestart s (.input (.other (.enable true))) :=
      Machine.exists_reaches_of_run [.pass 5000] (by decide +kernel)
    obtain ⟨s', hs', hwarning⟩ := (warning_timing s).2.2.2 _ _ hs hearly rfl
    exact ⟨s', hs'.of_startAt (.step (a := .input (.other (.enable true))) hs rfl), hwarning⟩

/-- NTRIP is enabled a millisecond before an expiry: the warning comes after ten seconds. And if
NTRIP is notified to be enabled after each expiry, there is no warning in forty seconds. -/
theorem not_warning_timing_notified : (∃ s, ntripObsMonitor.component.machine.Reaches s ∧
      s.log = [(20000, .expired true), (10000, .expired false),
        (9999, .input (.other (.enable true))), (0, .input (.other (.gpsTime true)))]) ∧
    ∃ s, ntripObsMonitor.component.machine.Reaches s ∧
      s.log = [(40000, .expired false), (30000, .input (.other (.enable true))),
        (30000, .expired false), (20000, .input (.other (.enable true))),
        (20000, .expired false), (10000, .input (.other (.enable true))),
        (10000, .expired false), (0, .input (.other (.enable true))),
        (0, .input (.other (.gpsTime true)))] := by
  constructor
  · exact Machine.exists_reaches_of_run [.input (.other (.gpsTime true)), .pass 9999,
      .input (.other (.enable true)), .pass 1, .expire, .pass 10000, .expire] (by decide +kernel)
  · exact Machine.exists_reaches_of_run
      [.input (.other (.gpsTime true)), .input (.other (.enable true)), .pass 10000, .expire,
        .input (.other (.enable true)), .pass 10000, .expire, .input (.other (.enable true)),
        .pass 10000, .expire, .input (.other (.enable true)), .pass 10000, .expire]
      (by decide +kernel)

end PiksiBuildroot.HealthDaemon
