import PiksiBuildroot.HealthDaemon.Monitor

/-!
# The monitor of GLONASS observations

The monitor warns when its timer expires while GLONASS is enabled and a base station is connected.
Base observations with a GLONASS signal reset the timer, and so does a notification that turns
GLONASS on. The base station counts as connected from a base observation to the second expiry after
it, which is at most two periods later, unless the timer was reset in between by turning GLONASS on
(`EnabledInTime`, `alert_timing`).
-/

namespace PiksiBuildroot.HealthDaemon

open Lib TimedComponent List Option

/-! ### The callbacks -/

/-- In milliseconds. Source: `GLO_OBS_ALERT_RATE_LIMIT`. -/
def gloObsAlertRateLimit : Nat := 180000

/-- In milliseconds. Source: `GLO_OBS_RESET_BASE_CONN_RATE_LIMIT`. -/
def gloObsResetBaseConnRateLimit : Nat := 360000

/-- Source: `CODE_GLO_L1OF`. -/
def codeGloL1of : BitVec 8 := 3

/-- Source: `CODE_GLO_L2OF`. -/
def codeGloL2of : BitVec 8 := 4

/-- Source: `is_glo`. -/
def isGlo (code : BitVec 8) : Bool := code == codeGloL1of || code == codeGloL2of

/-- The quotient is the one of the source: it is 0. Source: `max_timeout_count_before_reset`. -/
def maxTimeoutCountBeforeReset : BitVec 8 :=
  BitVec.ofNat 8 (gloObsAlertRateLimit / gloObsResetBaseConnRateLimit)

/-- Source: the static variables `glo_health_ctx` and `glo_obs_ctx.timeout_counter`. -/
structure GloContext where
  glonassEnabled : Bool := false
  connectedToBase : Bool := false
  timeoutCounter : BitVec 8 := 0

/-- The difference is cast to a byte before the division. Source: `check_obs_msg_for_glo_obs`. -/
def checkObsMsgForGloObs (msg : List (BitVec 8)) : Bool :=
  let obsInMsg := (msg.length + 256 - observationHeaderSize) % 256 / packedObsContentSize
  (List.range obsInMsg).any fun i =>
    isGlo (msg.getD (observationHeaderSize + packedObsContentSize * i + sidCodeOffset) 0)

/-- Source: `sbp_msg_glo_obs_callback`. -/
def sbpMsgGloObsCallback (ctx : GloContext) (m : ObsMessage) : GloContext × Int :=
  if m.senderId = msgForwardSenderId then
    ({ ctx with connectedToBase := true, timeoutCounter := 0 },
      if checkObsMsgForGloObs m.payload then 0 else 1)
  else (ctx, 1)

/-- Source: `glo_obs_timer_callback`. -/
def gloObsTimerCallback (ctx : GloContext) : GloContext × Bool := ({ ctx with
      connectedToBase :=
        ctx.connectedToBase && !decide (ctx.timeoutCounter > maxTimeoutCountBeforeReset)
      timeoutCounter := ctx.timeoutCounter + 1 },
    ctx.glonassEnabled && ctx.connectedToBase)

/-- Source: `notify_glonass_enabled`. -/
def notifyGlonassEnabled (ctx : GloContext) (enabled : Bool) : GloContext × Bool :=
  ({ ctx with glonassEnabled := enabled }, enabled && !ctx.glonassEnabled)

/-- Source: `glo_obs_timeout_health_monitor_init`. -/
def gloObsMonitor : Monitor GloContext Bool where
  timerPeriod := gloObsAlertRateLimit
  context := {}
  msgCb := sbpMsgGloObsCallback
  timerCb := gloObsTimerCallback
  notify := notifyGlonassEnabled

abbrev GloState := TimedState GloContext (Input Bool)

abbrev GloLog := TimedLog (Input Bool)

/-! ### Observations with GLONASS -/

/-- An observation of the message has a GLONASS signal. -/
def ObsMessage.HasGlonass (m : ObsMessage) : Prop :=
  ∃ i code, m.payload[observationHeaderSize + packedObsContentSize * i + sidCodeOffset]? =
    some code ∧
    (code = codeGloL1of ∨ code = codeGloL2of)

/-- The loop over the payload finds a GLONASS code if there is one. -/
lemma checkObsMsgForGloObs_iff (m : ObsMessage) :
    checkObsMsgForGloObs m.payload = true ↔ m.HasGlonass := by
  have hheader := m.header_le
  have hlength := m.length_lt
  simp only [observationHeaderSize] at hheader
  have hmod : (m.payload.length + 256 - 11) % 256 = m.payload.length - 11 := by omega
  simp only [checkObsMsgForGloObs, ObsMessage.HasGlonass, observationHeaderSize,
    packedObsContentSize, sidCodeOffset, hmod, List.any_eq_true, mem_range, isGlo, Bool.or_eq_true,
    beq_iff_eq]
  constructor
  · rintro ⟨i, hi, hcode⟩
    have hlt : 11 + 17 * i + 16 < m.payload.length := by omega
    rw [getD_eq_getElem?_getD, getElem?_eq_getElem hlt] at hcode
    exact ⟨i, _, getElem?_eq_getElem hlt, hcode⟩
  · rintro ⟨i, code, hat, hcode⟩
    obtain ⟨hlt, -⟩ := List.getElem?_eq_some_iff.mp hat
    refine ⟨i, by omega, ?_⟩
    rw [getD_eq_getElem?_getD, hat]
    exact hcode

instance (m : ObsMessage) : Decidable m.HasGlonass :=
  decidable_of_iff _ (checkObsMsgForGloObs_iff m)

/-- A base observation with a GLONASS signal resets the timer. -/
lemma input_restarts (ctx : GloContext) {m : ObsMessage} (hbase : m.FromBase)
    (hglo : m.HasGlonass) : (gloObsMonitor.component.input ctx (.message m)).2 = true := by
  have hcheck := (checkObsMsgForGloObs_iff m).mpr hglo
  have hsender : m.senderId = msgForwardSenderId := hbase
  simp [Monitor.component, Monitor.healthMonitorMessageCallback, gloObsMonitor,
    sbpMsgGloObsCallback, hsender, hcheck, Monitor.timerActive, gloObsAlertRateLimit]

/-! ### What the context says about the log -/

/-- The setting according to the latest notification. -/
def enabledBy (log : GloLog) : Bool := (latestInput Input.event log).any Prod.snd

/-- The time of the latest base observation. -/
def lastBase (log : GloLog) : Option Nat := (latestInput Input.baseObs log).map Prod.fst

variable {o : Nat}

section log

variable {t : Nat} {log : GloLog}

lemma lastBase_base {m : ObsMessage} (hm : m.FromBase) :
    lastBase ((t, .input (.message m)) :: log) = some t := by
  simp [lastBase, latestInput, Input.baseObs, hm]

lemma lastBase_foreign {m : ObsMessage} (hm : ¬ m.FromBase) :
    lastBase ((t, .input (.message m)) :: log) = lastBase log := by
  simp [lastBase, latestInput, Input.baseObs, hm]

lemma le_of_lastBase (hsorted : log.Pairwise fun entry earlier => earlier.1 ≤ entry.1)
    (h : lastBase log = some o) {m : ObsMessage} (hmem : (t, .input (.message m)) ∈ log)
    (hm : m.FromBase) : t ≤ o := by
  obtain ⟨⟨o', m'⟩, hlatest, rfl⟩ := map_eq_some_iff.mp h
  exact le_of_latestInput hsorted hlatest hmem (by simp [Input.baseObs, hm])

lemma mem_of_lastBase (h : lastBase log = some o) :
    ∃ m : ObsMessage, m.FromBase ∧ (o, .input (.message m)) ∈ log := by
  obtain ⟨⟨o', m⟩, hlatest, rfl⟩ := map_eq_some_iff.mp h
  obtain ⟨i, hmem, hi⟩ := mem_of_latestInput hlatest
  cases i with
  | message m' =>
    obtain ⟨hbase, -⟩ := ite_none_right_eq_some.mp hi
    exact ⟨m', hbase, hmem⟩
  | other b => cases hi

end log

/-! ### The steps of the monitor -/

section steps

variable (s : GloState)

lemma comp_received_base {m : ObsMessage} (hm : m.FromBase) :
    (gloObsMonitor.component.received s (.message m)).comp =
      { s.comp with connectedToBase := true, timeoutCounter := 0 } := by
  have hsender : m.senderId = msgForwardSenderId := hm
  simp [received, Monitor.component, Monitor.healthMonitorMessageCallback, gloObsMonitor,
    sbpMsgGloObsCallback, hsender]

lemma due_received_plain {m : ObsMessage} (hm : m.FromBase) (hglo : ¬ m.HasGlonass) :
    (gloObsMonitor.component.received s (.message m)).due = s.due := by
  have hsender : m.senderId = msgForwardSenderId := hm
  have hcheck : checkObsMsgForGloObs m.payload = false :=
    Bool.eq_false_iff.mpr fun h => hglo ((checkObsMsgForGloObs_iff m).mp h)
  simp [received, Monitor.component, Monitor.healthMonitorMessageCallback, gloObsMonitor,
    sbpMsgGloObsCallback, hsender, hcheck]

lemma received_foreign {m : ObsMessage} (hm : ¬ m.FromBase) :
    gloObsMonitor.component.received s (.message m) =
      { s with log := (s.now, .input (.message m)) :: s.log } := by
  have hsender : ¬ m.senderId = msgForwardSenderId := hm
  simp [received, Monitor.component, Monitor.healthMonitorMessageCallback, gloObsMonitor,
    sbpMsgGloObsCallback, hsender]

lemma received_notify (b : Bool) : gloObsMonitor.component.received s (.other b) =
      { now := s.now
        due := if b && !s.comp.glonassEnabled then s.now + gloObsAlertRateLimit else s.due
        comp := { s.comp with glonassEnabled := b }
        log := (s.now, .input (.other b)) :: s.log } := rfl

lemma expired_eq : gloObsMonitor.component.expired s =
      { now := s.now
        due := s.now + gloObsAlertRateLimit
        comp := { s.comp with
            connectedToBase := s.comp.connectedToBase && s.comp.timeoutCounter == 0
            timeoutCounter := s.comp.timeoutCounter + 1 }
        log := (s.now, .expired (s.comp.glonassEnabled && s.comp.connectedToBase)) :: s.log } := by
  have hmax : (!decide (s.comp.timeoutCounter > maxTimeoutCountBeforeReset)) =
      (s.comp.timeoutCounter == 0) := by
    have hzero : maxTimeoutCountBeforeReset = 0 := by decide
    rw [hzero, Bool.eq_iff_iff]
    simp
  simp only [expired, Monitor.component, gloObsMonitor, gloObsTimerCallback, hmax]

end steps

/-- What the flags and the counter say about the log. -/
structure Tracks (s : GloState) : Prop where
  enabled : s.comp.glonassEnabled = enabledBy s.log
  never : lastBase s.log = none → s.comp.connectedToBase = false
  connected : s.comp.connectedToBase = true → s.comp.timeoutCounter = 0 ∨ s.comp.timeoutCounter = 1
  /-- The timer has expired once since the latest base observation. -/
  once : ∀ o ∈ lastBase s.log, s.comp.timeoutCounter ≠ 0 → o + gloObsAlertRateLimit ≤ s.due
  /-- It has expired twice. -/
  twice : ∀ o ∈ lastBase s.log, s.comp.connectedToBase = false →
    o + 2 * gloObsAlertRateLimit ≤ s.due

lemma tracks_init : Tracks gloObsMonitor.component.machine.init := by
  refine ⟨rfl, fun _ => rfl, fun h => ?_, fun o ho => ?_, fun o ho => ?_⟩
  · cases h
  · cases ho
  · cases ho

variable {s : GloState}

lemma Tracks.later (h : Tracks s) (d : Nat) : Tracks (later s d) :=
  ⟨h.enabled, h.never, h.connected, h.once, h.twice⟩

/-- A message keeps what the flags and the counter say about the log. -/
lemma Tracks.received (h : Tracks s) (hs : gloObsMonitor.component.Regular s) (i : Input Bool) :
    Tracks (gloObsMonitor.component.received s i) := by
  have hdue := hs.due_le_received i
  cases i with
  | message m =>
    by_cases hm : m.FromBase
    · have hcomp := comp_received_base s hm
      refine ⟨?_, ?_, ?_, ?_, ?_⟩
      · rw [hcomp]
        exact h.enabled
      · intro hnone
        cases (lastBase_base hm).symm.trans hnone
      · intro _
        rw [hcomp]
        exact Or.inl rfl
      · intro o _ hne
        rw [hcomp] at hne
        exact absurd rfl hne
      · intro o _ hfalse
        rw [hcomp] at hfalse
        cases hfalse
    · rw [received_foreign s hm]
      have hlast := @lastBase_foreign s.now s.log m hm
      refine ⟨h.enabled, ?_, h.connected, ?_, ?_⟩
      · rw [hlast]
        exact h.never
      · rw [hlast]
        exact h.once
      · rw [hlast]
        exact h.twice
  | other b =>
    refine ⟨rfl, h.never, h.connected, fun o ho hne => ?_, fun o ho hfalse => ?_⟩
    · exact Nat.le_trans (h.once o ho hne) hdue
    · exact Nat.le_trans (h.twice o ho hfalse) hdue

/-- So does an expiry. -/
lemma Tracks.expired (h : Tracks s) (hs : gloObsMonitor.component.Regular s)
    (hdue : s.now = s.due) : Tracks (gloObsMonitor.component.expired s) := by
  rw [expired_eq]
  refine ⟨h.enabled, fun hnone => ?_, fun hconnected => ?_, fun o ho _ => ?_, fun o ho hfalse => ?_⟩
  · simp [h.never hnone]
  · simp only [Bool.and_eq_true, beq_iff_eq] at hconnected
    exact Or.inr (by rw [hconnected.2]; rfl)
  · have hlast : lastBase s.log = some o := ho
    obtain ⟨m, -, hmem⟩ := mem_of_lastBase hlast
    exact Nat.add_le_add_right (hs.log_le _ hmem) _
  · -- either it was not connected before, or the timer had expired once
    by_cases hconnected : s.comp.connectedToBase = true
    · have hne : s.comp.timeoutCounter ≠ 0 := by simpa [hconnected] using hfalse
      have honce := h.once o ho hne
      dsimp only
      omega
    · have htwice := h.twice o ho (Bool.eq_false_iff.mpr hconnected)
      dsimp only
      omega

lemma tracks_of_reaches (h : gloObsMonitor.component.machine.Reaches s) : Tracks s :=
  (invariant_of_reaches h Tracks tracks_init (fun _ d _ hinv _ => hinv.later d)
    (fun _ i hs hinv => hinv.received hs i) fun _ hs hinv hdue => hinv.expired hs hdue).2

/-! ### Alerts while base observations keep arriving -/

/-- GLONASS stays enabled, no base observation with GLONASS arrives, and no time passes beyond a
period after the latest base observation. -/
def Steady (s : GloState) : TimedAction (Input Bool) → Prop
  | .pass d => ∃ o ∈ lastBase s.log, s.now + d ≤ o + gloObsAlertRateLimit
  | .input (.message m) => m.FromBase → ¬ m.HasGlonass
  | .input (.other enabled) => enabled = true
  | .expire => True

instance (s : GloState) (a : TimedAction (Input Bool)) : Decidable (Steady s a) := by
  unfold Steady
  split <;> infer_instance

/-- There was an alert in the period after `start`, or it is still to come. -/
def AlertBy (start : Nat) (s : GloState) : Prop := s.due ≤ start + gloObsAlertRateLimit ∨
    ∃ t, (t, .expired true) ∈ s.log ∧ start < t ∧ t ≤ start + gloObsAlertRateLimit

variable {start : Nat}

lemma AlertBy.cons {s s' : GloState} (h : AlertBy start s) (hdue : s'.due = s.due)
    {entry : Nat × TimedEvent (Input Bool)} (hlog : s'.log = entry :: s.log) :
    AlertBy start s' := by
  rcases h with h | ⟨t, hmem, ht⟩
  · exact Or.inl (hdue ▸ h)
  · exact Or.inr ⟨t, hlog ▸ mem_cons_of_mem _ hmem, ht⟩

/-- The state of a monitor that has warned in the period after `start` or is going to. -/
structure WillAlert (start : Nat) (s : GloState) : Prop where
  tracks : Tracks s
  enabled : s.comp.glonassEnabled = true
  start_le : start ≤ s.now
  recent : s.now = start ∨ ∃ o ∈ lastBase s.log, s.now ≤ o + gloObsAlertRateLimit
  alert : AlertBy start s

variable {i : Input Bool}

/-- A message of a steady run does not put the alert off. -/
lemma WillAlert.received (h : WillAlert start s) (hs : gloObsMonitor.component.Regular s)
    (hsteady : Steady s (.input i)) : WillAlert start (gloObsMonitor.component.received s i) := by
  have htracks := h.tracks.received hs i
  cases i with
  | message m =>
    by_cases hm : m.FromBase
    · refine ⟨htracks, ?_, h.start_le, Or.inr ⟨s.now, lastBase_base hm, Nat.le_add_right _ _⟩, ?_⟩
      · rw [comp_received_base s hm]
        exact h.enabled
      · exact h.alert.cons (due_received_plain s hm (hsteady hm)) rfl
    · rw [received_foreign s hm] at htracks ⊢
      refine ⟨htracks, h.enabled, h.start_le, ?_, h.alert.cons rfl rfl⟩
      rw [lastBase_foreign hm]
      exact h.recent
  | other b =>
    obtain rfl : b = true := hsteady
    refine ⟨htracks, rfl, h.start_le, h.recent, h.alert.cons ?_ rfl⟩
    simp [received_notify, h.enabled]

/-- An expiry alerts, or there was an alert before. -/
lemma WillAlert.expired (h : WillAlert start s) (hs : gloObsMonitor.component.Regular s)
    (hdue : s.now = s.due) : WillAlert start (gloObsMonitor.component.expired s) := by
  have htracks := h.tracks.expired hs hdue
  rw [expired_eq] at htracks ⊢
  refine ⟨htracks, h.enabled, h.start_le, h.recent, ?_⟩
  rcases h.alert with hcoming | ⟨t, hmem, ht⟩
  · rcases Nat.lt_or_eq_of_le h.start_le with hlt | rfl
    · obtain ⟨o, ho, hrecent⟩ := h.recent.resolve_left (Nat.ne_of_gt hlt)
      have hconnected : s.comp.connectedToBase = true := by
        by_contra hfalse
        have htwice := h.tracks.twice o ho (Bool.eq_false_iff.mpr hfalse)
        omega
      refine Or.inr ⟨s.now, ?_, hlt, hdue ▸ hcoming⟩
      simp [h.enabled, hconnected]
    · exact Or.inl (Nat.le_refl _)
  · exact Or.inr ⟨t, mem_cons_of_mem _ hmem, ht⟩

/-- While GLONASS stays enabled and base observations without GLONASS keep arriving, there is an
alert in every period. -/
theorem exists_alert_of_steady {s₀ s : GloState}
    (hs₀ : gloObsMonitor.component.machine.Reaches s₀) (henabled : enabledBy s₀.log = true)
    (h : ((gloObsMonitor.component.machine.startAt s₀).restrict Steady).Reaches s)
    (hlong : s₀.now + gloObsAlertRateLimit < s.now) :
    ∃ t, (t, .expired true) ∈ s.log ∧ s₀.now < t ∧ t ≤ s₀.now + gloObsAlertRateLimit := by
  have htracks := tracks_of_reaches hs₀
  have hregular := regular_of_reaches hs₀
  have hinit : WillAlert s₀.now s₀ :=
    ⟨htracks, htracks.enabled.trans henabled, Nat.le_refl _, Or.inl rfl, Or.inl hregular.due_le⟩
  obtain ⟨hs, hwill⟩ := invariant h hregular (WillAlert s₀.now) hinit
    (fun s d _ hinv hsteady _ => by
      obtain ⟨o, ho, hrecent⟩ := hsteady
      exact ⟨hinv.tracks.later d, hinv.enabled, Nat.le_trans hinv.start_le (Nat.le_add_right _ _),
        Or.inr ⟨o, ho, hrecent⟩, hinv.alert⟩)
    (fun s i hs hinv hsteady => hinv.received hs hsteady)
    (fun s hs hinv _ hdue => hinv.expired hs hdue)
  rcases hwill.alert with hcoming | halert
  · exact absurd (Nat.le_trans hs.now_le_due hcoming) (Nat.not_le.mpr hlong)
  · exact halert

/-! ### Alerts after a base observation -/

/-- Turning GLONASS on resets the timer, so what is left of two periods after the latest base
observation has to be enough for the expiries until the base station is no longer connected. -/
def EnabledInTime (s : GloState) : TimedAction (Input Bool) → Prop
  | .input (.other true) =>
    s.comp.glonassEnabled = false → s.comp.connectedToBase = true →
      ∀ o ∈ lastBase s.log, s.now ≤ o + gloObsAlertRateLimit * s.comp.timeoutCounter.toNat
  | _ => True

instance (s : GloState) (a : TimedAction (Input Bool)) : Decidable (EnabledInTime s a) := by
  unfold EnabledInTime
  split <;> infer_instance

/-- The next expiry is in time. -/
def InTime (s : GloState) : Prop := s.comp.connectedToBase = true → ∀ o ∈ lastBase s.log,
    s.due ≤ o + gloObsAlertRateLimit * (s.comp.timeoutCounter.toNat + 1)

/-- A message keeps the next expiry in time. -/
lemma InTime.received (h : InTime s) (hs : gloObsMonitor.component.Regular s)
    (hok : EnabledInTime s (.input i)) : InTime (gloObsMonitor.component.received s i) := by
  cases i with
  | message m =>
    by_cases hm : m.FromBase
    · intro _ o ho
      obtain rfl : s.now = o := some_inj.mp ((lastBase_base hm).symm.trans ho)
      rw [comp_received_base s hm]
      exact (hs.received _).due_le
    · rw [received_foreign s hm]
      intro hconnected o ho
      rw [lastBase_foreign hm] at ho
      exact h hconnected o ho
  | other b =>
    intro hconnected o ho
    rw [received_notify]
    dsimp only
    split
    · next hturned =>
        simp only [Bool.and_eq_true, Bool.not_eq_true'] at hturned
        obtain ⟨rfl, hoff⟩ := hturned
        have hleft := hok hoff hconnected o ho
        rw [Nat.mul_succ]
        omega
    · exact h hconnected o ho

lemma InTime.expired (h : InTime s) (hdue : s.now = s.due) :
    InTime (gloObsMonitor.component.expired s) := by
  rw [expired_eq]
  intro hconnected o ho
  simp only [Bool.and_eq_true, beq_iff_eq] at hconnected
  have hnext := h hconnected.1 o ho
  rw [hconnected.2] at hnext ⊢
  have hzero : (0 : BitVec 8).toNat = 0 := rfl
  have hone : (0 + 1 : BitVec 8).toNat = 1 := rfl
  dsimp only
  rw [hzero] at hnext
  rw [hone, hdue]
  omega

lemma inTime_of_reaches (h : (gloObsMonitor.component.machine.restrict EnabledInTime).Reaches s) :
    InTime s := by
  have hinit : InTime gloObsMonitor.component.machine.init := fun hconnected => by cases hconnected
  exact (invariant h regular_init InTime hinit (fun _ _ _ hinv _ _ => hinv)
    (fun _ _ hs hinv hok => hinv.received hs hok) fun _ _ hinv _ hdue => hinv.expired hdue).2

/-- The latest base observation before an alert is at most two periods old. -/
lemma lastBase_of_alert (h : (gloObsMonitor.component.machine.restrict EnabledInTime).Reaches s)
    (hdue : s.now = s.due) (hconnected : s.comp.connectedToBase = true) :
    ∃ o, lastBase s.log = some o ∧ s.now ≤ o + gloObsResetBaseConnRateLimit := by
  have htracks := tracks_of_reaches h.of_restrict
  cases hlast : lastBase s.log with
  | none =>
    rw [htracks.never hlast] at hconnected
    cases hconnected
  | some o =>
    refine ⟨o, rfl, ?_⟩
    have hnext := inTime_of_reaches h hconnected o hlast
    have hcounter : s.comp.timeoutCounter.toNat ≤ 1 := by
      rcases htracks.connected hconnected with h | h <;> rw [h] <;> decide
    have hperiods : gloObsAlertRateLimit * (s.comp.timeoutCounter.toNat + 1) ≤
        gloObsResetBaseConnRateLimit := Nat.mul_le_mul_left _ (Nat.succ_le_succ hcounter)
    omega

/-- The alerts with no base observation in the two periods before them. -/
def LateAlert (log : GloLog) : Prop := ∃ later t past, log = later ++ (t, .expired true) :: past ∧
    ∀ o m, (o, .input (.message m)) ∈ past → m.FromBase → o + gloObsResetBaseConnRateLimit < t

lemma lateAlert_cons {t : Nat} {past : GloLog}
    (hold : ∀ o' m, (o', .input (.message m)) ∈ past → m.FromBase → o' ≤ o)
    (ht : o + gloObsResetBaseConnRateLimit < t) : LateAlert ((t, .expired true) :: past) :=
  ⟨[], t, past, rfl, fun o' m hmem hm =>
    Nat.lt_of_le_of_lt (Nat.add_le_add_right (hold o' m hmem hm) _) ht⟩

/-- If the next expiry is not in time, and nothing else happens, there is a late alert. -/
lemma exists_lateAlert_of_due (hs : s.now ≤ s.due) (henabled : s.comp.glonassEnabled = true)
    (hconnected : s.comp.connectedToBase = true)
    (hcounter : s.comp.timeoutCounter = 0 ∨ s.comp.timeoutCounter = 1)
    (hold : ∀ o' m, (o', .input (.message m)) ∈ s.log → m.FromBase → o' ≤ o)
    (hlate : o + gloObsAlertRateLimit * (s.comp.timeoutCounter.toNat + 1) < s.due) :
    ∃ s', (gloObsMonitor.component.machine.startAt s).Reaches s' ∧ LateAlert s'.log := by
  have hstart : (gloObsMonitor.component.machine.startAt s).Reaches s := .init
  have hfirst := reaches_expiry hstart hs
  rw [expired_eq] at hfirst
  rcases hcounter with hzero | hone
  · -- the second expiry is late
    have hsecond := reaches_expiry hfirst (Nat.le_add_right _ _)
    refine ⟨_, hsecond, ?_⟩
    simp only [henabled, hconnected, hzero, BEq.rfl, Bool.and_true]
    refine lateAlert_cons (o := o) (fun o' m hmem hm => ?_) ?_
    · exact hold o' m (mem_of_ne_of_mem (by simp) hmem) hm
    · have hnat : s.comp.timeoutCounter.toNat = 0 := by rw [hzero]; rfl
      rw [hnat] at hlate
      simp only [gloObsAlertRateLimit, gloObsResetBaseConnRateLimit] at hlate ⊢
      omega
  · refine ⟨_, hfirst, ?_⟩
    simp only [henabled, hconnected, Bool.and_true]
    have hnat : s.comp.timeoutCounter.toNat = 1 := by rw [hone]; rfl
    rw [hnat] at hlate
    exact lateAlert_cons hold hlate

/-- If GLONASS is turned on too late, and nothing else happens, there is a late alert. -/
lemma exists_lateAlert {s s₁ : GloState} (hs : gloObsMonitor.component.machine.Reaches s)
    {a : TimedAction (Input Bool)} (hlate : ¬ EnabledInTime s a)
    (hstep : gloObsMonitor.component.machine.step s a = some s₁) :
    ∃ s', (gloObsMonitor.component.machine.startAt s₁).Reaches s' ∧ LateAlert s'.log := by
  obtain ⟨rfl, hoff, hconnected, o, ho, hleft⟩ : a = .input (.other true) ∧
      s.comp.glonassEnabled = false ∧ s.comp.connectedToBase = true ∧ ∃ o, lastBase s.log = some o ∧
        o + gloObsAlertRateLimit * s.comp.timeoutCounter.toNat < s.now := by
    unfold EnabledInTime at hlate
    split at hlate
    · simp only [Classical.not_imp, not_forall, Nat.not_le] at hlate
      obtain ⟨hoff, hconnected, o, ho, hleft⟩ := hlate
      exact ⟨rfl, hoff, hconnected, o, ho, hleft⟩
    · exact absurd trivial hlate
  cases hstep
  have hon : (gloObsMonitor.component.received s (.other true)).due =
      s.now + gloObsAlertRateLimit := by
    simp [received_notify, hoff]
  refine exists_lateAlert_of_due (o := o) ?_ rfl hconnected
    ((tracks_of_reaches hs).connected hconnected) (fun o' m hmem hm => ?_) ?_
  · rw [hon]
    exact Nat.le_add_right _ _
  · have hmem : (o', .input (.message m)) ∈ s.log := mem_of_ne_of_mem (by simp) hmem
    exact le_of_lastBase (regular_of_reaches hs).sorted ho hmem hm
  · have hcomp : (gloObsMonitor.component.received s (.other true)).comp.timeoutCounter =
        s.comp.timeoutCounter := rfl
    rw [hon, hcomp, Nat.mul_succ]
    omega

/-- An alert says that GLONASS is enabled and a base station connected. -/
lemma flags_of_alert {ctx : GloContext} (h : (gloObsMonitor.component.expire ctx).2 = true) :
    ctx.glonassEnabled = true ∧ ctx.connectedToBase = true :=
  Bool.and_eq_true_iff.mp h

/-- Base observations with GLONASS are at least a period before the next expiry. -/
lemma glonass_add_period_le (hs : gloObsMonitor.component.machine.Reaches s) {m : ObsMessage}
    (hmem : (o, .input (.message m)) ∈ s.log) (hbase : m.FromBase) (hglo : m.HasGlonass) :
    o + gloObsAlertRateLimit ≤ s.due := by
  let restarting : Input Bool → Prop := fun i => ∃ m, i = .message m ∧ m.FromBase ∧ m.HasGlonass
  have hrestart : ∀ ctx i, restarting i → (gloObsMonitor.component.input ctx i).2 = true := by
    rintro ctx i ⟨m, rfl, hbase, hglo⟩
    exact input_restarts ctx hbase hglo
  exact input_add_period_le hrestart hs o _ hmem ⟨m, rfl, hbase, hglo⟩

/-- In every run an alert implies that GLONASS is enabled and that no base observation with GLONASS
has arrived in the last period, and there is an alert in every period while GLONASS stays enabled
and base observations without GLONASS keep arriving. In runs in which GLONASS is only turned on in
time, an alert implies that a base observation has arrived in the last two periods; if it is turned
on too late, a late alert can follow. -/
theorem alert_timing (s : GloState) : (gloObsMonitor.component.machine.Reaches s →
      EachAlert (fun t past => enabledBy past = true ∧
        ∀ o m, (o, .input (.message m)) ∈ past → m.FromBase → m.HasGlonass →
          o + gloObsAlertRateLimit ≤ t) s.log) ∧
    (∀ s₀, gloObsMonitor.component.machine.Reaches s₀ → enabledBy s₀.log = true →
      ((gloObsMonitor.component.machine.startAt s₀).restrict Steady).Reaches s →
      s₀.now + gloObsAlertRateLimit < s.now →
      ∃ t, (t, .expired true) ∈ s.log ∧ s₀.now < t ∧ t ≤ s₀.now + gloObsAlertRateLimit) ∧
    ((gloObsMonitor.component.machine.restrict EnabledInTime).Reaches s →
      EachAlert (fun t past => ∃ o m, (o, .input (.message m)) ∈ past ∧ m.FromBase ∧
        t ≤ o + gloObsResetBaseConnRateLimit) s.log) ∧
    ∀ a s₁, gloObsMonitor.component.machine.Reaches s → ¬ EnabledInTime s a →
      gloObsMonitor.component.machine.step s a = some s₁ →
      ∃ s', (gloObsMonitor.component.machine.startAt s₁).Reaches s' ∧ LateAlert s'.log := by
  refine ⟨fun hs => ?_, fun s₀ hs₀ henabled h hlong => ?_, fun hs => ?_,
    fun a s₁ hs hlate hstep => exists_lateAlert hs hlate hstep⟩
  · have hfree := hs.restrict (fun _ _ => True) fun _ _ => trivial
    refine eachAlert_of_reaches hfree fun s hs hdue halert => ?_
    have henabled := (tracks_of_reaches hs.of_restrict).enabled
    refine ⟨henabled.symm.trans (flags_of_alert halert).1, fun o m hmem hbase hglo => ?_⟩
    rw [hdue]
    exact glonass_add_period_le hs.of_restrict hmem hbase hglo
  · exact exists_alert_of_steady hs₀ henabled h hlong
  · refine eachAlert_of_reaches hs fun s hs hdue halert => ?_
    obtain ⟨o, hlast, hrecent⟩ := lastBase_of_alert hs hdue (flags_of_alert halert).2
    obtain ⟨m, hbase, hmem⟩ := mem_of_lastBase hlast
    exact ⟨o, m, hmem, hbase, hrecent⟩

/-- A base observation without satellites. -/
def emptyBaseObs : ObsMessage where
  senderId := msgForwardSenderId
  payload := List.replicate 11 0
  header_le := by decide
  length_lt := by decide

/-- The monitor enabled and connected. -/
def connectedState : GloState := gloObsMonitor.component.received
    (gloObsMonitor.component.received gloObsMonitor.component.machine.init (.other true))
    (.message emptyBaseObs)

/-- GLONASS is turned on before the first base observation: there is an alert after 180 s. If it is
turned on a minute after a base observation, an alert without one follows. -/
theorem alert_timing_connected :
    (∃ s, (gloObsMonitor.component.machine.restrict EnabledInTime).Reaches s ∧
      s.log.head? = some (180000, .expired true) ∧
      EachAlert (fun _ past => enabledBy past = true) s.log ∧
      EachAlert (fun t past => ∃ o m, (o, .input (.message m)) ∈ past ∧ m.FromBase ∧
        t ≤ o + gloObsResetBaseConnRateLimit) s.log) ∧
    (∃ s, ((gloObsMonitor.component.machine.startAt connectedState).restrict Steady).Reaches s ∧
      ∃ t, (t, .expired true) ∈ s.log ∧ 0 < t ∧ t ≤ 0 + gloObsAlertRateLimit) ∧
    ∃ s, gloObsMonitor.component.machine.Reaches s ∧ LateAlert s.log := by
  have hconnected : gloObsMonitor.component.machine.Reaches connectedState :=
    .step (a := .input (.message emptyBaseObs)) (.step (a := .input (.other true)) .init rfl) rfl
  refine ⟨?_, ?_, ?_⟩
  · refine Machine.exists_reaches_and_of_run
      [.input (.other true), .input (.message emptyBaseObs), .pass 180000, .expire]
      (by decide +kernel) fun s hs _ => ⟨fun later t past hlog => ?_, (alert_timing s).2.2.1 hs⟩
    exact ((alert_timing s).1 hs.of_restrict later t past hlog).1
  · obtain ⟨s, hs, hlong⟩ : ∃ s,
        ((gloObsMonitor.component.machine.startAt connectedState).restrict Steady).Reaches s ∧
          connectedState.now + gloObsAlertRateLimit < s.now :=
      Machine.exists_reaches_of_run
        [.pass 180000, .expire, .input (.message emptyBaseObs), .pass 1] (by decide +kernel)
    exact ⟨s, hs, (alert_timing s).2.1 connectedState hconnected rfl hs hlong⟩
  · obtain ⟨s, hs, hlate⟩ : ∃ s, gloObsMonitor.component.machine.Reaches s ∧
        ¬ EnabledInTime s (.input (.other true)) :=
      Machine.exists_reaches_of_run [.input (.message emptyBaseObs), .pass 60000]
        (by decide +kernel)
    obtain ⟨s', hs', hlateAlert⟩ := (alert_timing s).2.2.2 _ _ hs hlate rfl
    exact ⟨s', hs'.of_startAt (.step (a := .input (.other true)) hs rfl), hlateAlert⟩

/-- GLONASS is turned on a minute after a base observation, the only one: the second alert is seven
minutes after it. -/
theorem not_alert_timing_turnedOn : ∃ s, gloObsMonitor.component.machine.Reaches s ∧
      s.log = [(420000, .expired true), (240000, .expired true), (60000, .input (.other true)),
        (0, .input (.message emptyBaseObs))] ∧
      ¬ EachAlert (fun t past => ∃ o m, (o, .input (.message m)) ∈ past ∧ m.FromBase ∧
        t ≤ o + gloObsResetBaseConnRateLimit) s.log := by
  refine Machine.exists_reaches_and_of_run [.input (.message emptyBaseObs), .pass 60000,
    .input (.other true), .pass 180000, .expire, .pass 180000, .expire] (by decide +kernel) ?_
  intro s _ hlog h
  obtain ⟨o, m, hmem, -, hle⟩ := h [] 420000 _ hlog
  simp only [mem_cons, Prod.mk.injEq, reduceCtorEq, and_false, false_or, TimedEvent.input.injEq,
    not_mem_nil, or_false] at hmem
  rw [hmem.1] at hle
  exact absurd hle (by decide)

end PiksiBuildroot.HealthDaemon
