import PiksiBuildroot.Lib.Machine
import PiksiBuildroot.Lib.ProcessTable

/-!
# The child processes of the ntrip and skylark settings daemons

Both daemons keep one child process per slot, with the result of `fork` in the slot's `pid`. A `pid`
of zero is a process that does not run; a fork that fails leaves `-1` there, and neither the stop
functions nor the reconnect functions tell it from the pid of a process.

The main loop handles notifications and the reconnect command one after the other. The handlers for
`SIGCHLD`, which records exits, and for the signals that end the daemon, which stops the processes,
run between any two instructions. So an exit can also be recorded after the pid was read and before
it is signalled, and before the result of a fork is stored. `Quiet` excludes these exits and the
reading of a failed fork (`onlyChildren_of_reaches`).
-/

namespace PiksiBuildroot.SettingsDaemons

open Lib

/-- The signals the daemons send. -/
inductive Signal
  | sigterm
  | sigkill
  | sigusr1
  deriving DecidableEq, Repr

/-! ### A settings daemon -/

/-- The settings of a daemon, and where it is in its code. -/
structure Daemon (ι α : Type) where
  settings : α
  thread : Thread ι Signal

/-- What happens: the main loop handles an event, a signal ends the daemon, an exit is recorded, the
next instruction is executed, where `forked` is the result of a fork. -/
inductive Action (ε : Type)
  | handle (event : ε)
  | stop
  | sigchld (pid : Int)
  | next (forked : Int)

/-- The code of a daemon: its processes, the function that stops them, and what it does at an
event. -/
structure Program (ι α ε : Type) where
  processes : List ι
  stop : Code ι Signal
  handle : α → ε → Option (α × Code ι Signal)

namespace Program

variable {ι α ε : Type} [DecidableEq ι]

/-- The main loop handles an event when it has done with the one before. The handler that ends the
daemon does not return to the code that it has interrupted. -/
def step (p : Program ι α ε) (s : Daemon ι α) : Action ε → Option (Daemon ι α)
  | .handle event =>
    match s.thread.code with
    | .done => (p.handle s.settings event).map fun r => ⟨r.1, s.thread.call r.2⟩
    | _ => none
  | .stop => some { s with thread := s.thread.call p.stop }
  | .sigchld pid => (s.thread.exit p.processes pid).map fun t => { s with thread := t }
  | .next forked => (s.thread.next forked).map fun t => { s with thread := t }

/-- A daemon with its first settings. -/
def machine (p : Program ι α ε) (settings : α) : Machine (Daemon ι α) (Action ε) where
  init := ⟨settings, Thread.idle⟩
  step := p.step

/-- The code signals only what was read and tested for the slot. -/
structure Checked (p : Program ι α ε) : Prop where
  mem_processes : ∀ i, i ∈ p.processes
  stop : p.stop.Checked .nothing
  handle : ∀ settings event r, p.handle settings event = some r → r.2.Checked .nothing

end Program

section
variable {ι α ε : Type} [DecidableEq ι]

/-- No failed fork is read, and no exit is recorded for the pid at hand. -/
def Quiet (s : Daemon ι α) : Action ε → Prop
  | .next _ => s.thread.ReadsForked
  | .sigchld pid => s.thread.Spares pid
  | .handle _ | .stop => True

instance (s : Daemon ι α) (a : Action ε) : Decidable (Quiet s a) := by
  cases a <;> unfold Quiet <;> infer_instance

lemma inv_step {p : Program ι α ε} (hp : p.Checked) {s s' : Daemon ι α} {a : Action ε}
    (h : s.thread.Inv) (hquiet : Quiet s a) (hstep : p.step s a = some s') : s'.thread.Inv := by
  cases a with
  | handle event =>
    simp only [Program.step] at hstep
    split at hstep
    · obtain ⟨r, hr, rfl⟩ := Option.map_eq_some_iff.mp hstep
      exact h.call (hp.handle _ _ r hr)
    · cases hstep
  | stop =>
    cases hstep
    exact h.call hp.stop
  | sigchld pid =>
    obtain ⟨t, ht, rfl⟩ := Option.map_eq_some_iff.mp hstep
    exact h.exit hp.mem_processes hquiet ht
  | next forked =>
    obtain ⟨t, ht, rfl⟩ := Option.map_eq_some_iff.mp hstep
    exact h.next hquiet ht

/-- In quiet runs of checked code all signals go to children. -/
lemma onlyChildren_of_checked {p : Program ι α ε} (hp : p.Checked) {settings : α}
    {s : Daemon ι α} (hs : ((p.machine settings).restrict Quiet).Reaches s) :
    ProcessTable.OnlyChildren s.thread.table.history := by
  have hinv := hs.invariant_restrict (fun s => s.thread.Inv) Thread.inv_idle
    fun s a s' h hquiet hstep => inv_step hp h hquiet hstep
  exact hinv.sound.own

/-- The reconnect functions of both daemons: the process with the daemon's `execfn` is sent
`SIGUSR1`; the loop ends if it does not run or `kill` fails. The pid is read once for the test and
once for the signal. -/
def reconnect (daemon : ι) (delivered : Bool) (processes : List ι) : Code ι Signal :=
  processes.foldr (fun i next =>
    if i = daemon then
      .read i <| .ifRunning (.read i <| .kill i .sigusr1 <| if delivered then next else .done) .done
    else next) .done

lemma checked_reconnect (daemon : ι) (delivered : Bool) (processes : List ι) :
    (reconnect daemon delivered processes).Checked .nothing := by
  refine Code.checked_foldr processes fun i next hnext => ?_
  split_ifs
  · simp [Code.Checked, AtHand.reread, hnext]
  · simp [Code.Checked, AtHand.reread]
  · exact hnext

end

/-! ### ntrip -/

/-- Source: `ntrip_processes`. -/
inductive NtripProcess
  | adapter
  | daemon
  deriving DecidableEq, Repr

/-- Source: `ntrip_processes`, in the order of the array. -/
def ntripProcesses : List NtripProcess := [.adapter, .daemon]

/-- The static variables of `ntrip_settings.c` that decide whether processes are started. -/
structure NtripSettings where
  enabled : Bool
  url : String
  initialized : Bool

/-- Source: `ntrip_stop_process`. The sleep is in front of the second reading. -/
def ntripStopProcess (i : NtripProcess) (next : Code NtripProcess Signal) :
    Code NtripProcess Signal :=
  .read i <| .ifRunning
    (.kill i .sigterm <| .read i <|
      .ifRunning (.kill i .sigkill <| .clear i next) (.clear i next))
    next

/-- Source: `ntrip_stop_processes`. -/
def ntripStopProcesses : Code NtripProcess Signal := ntripProcesses.foldr ntripStopProcess .done

/-- Source: the body of the loop of `ntrip_start_processes`. -/
def ntripStartProcess (s : NtripSettings) (i : NtripProcess) (next : Code NtripProcess Signal) :
    Code NtripProcess Signal :=
  ntripStopProcess i <|
    if s.enabled = false ∨ s.url = "" then next else .fork i <| .store i next

/-- Source: `ntrip_start_processes`. -/
def ntripStartProcesses (s : NtripSettings) : Code NtripProcess Signal :=
  ntripProcesses.foldr (ntripStartProcess s) .done

/-- What the settings library is told about a write. -/
inductive WriteStatus
  | ok
  | modifyDisabled
  deriving DecidableEq, Repr

/-- Source: `ntrip_notify_generic`. -/
def ntripNotifyGeneric (s : NtripSettings) : WriteStatus :=
  if s.enabled = true ∧ s.initialized = true then .modifyDisabled else .ok

/-- Source: `ntrip_notify_enable`, called with the new value already written. -/
def ntripNotifyEnable (s : NtripSettings) : Code NtripProcess Signal :=
  if s.initialized = true then ntripStartProcesses s else .done

/-- Source: `ntrip_reconnect`. -/
def ntripReconnect (delivered : Bool) : Code NtripProcess Signal :=
  reconnect .daemon delivered ntripProcesses

/-- The calls the settings client makes into `ntrip_settings.c`. -/
inductive NtripEvent
  /-- `ntrip.enable` is written. -/
  | enable (value : Bool)
  /-- `ntrip.url` is written. -/
  | url (value : String)
  /-- `ntrip_settings_init` has registered every setting. -/
  | registered
  | reconnect (delivered : Bool)

/-- What each call does to the settings, and its code. The settings library puts a value back whose
notification does not return `SETTINGS_WR_OK`. -/
def ntripHandle (s : NtripSettings) : NtripEvent → Option (NtripSettings × Code NtripProcess Signal)
  | .enable value =>
    some ({ s with enabled := value }, ntripNotifyEnable { s with enabled := value })
  | .url value =>
    match ntripNotifyGeneric { s with url := value } with
    | .ok => some ({ s with url := value }, .done)
    | .modifyDisabled => some (s, .done)
  | .registered =>
    if s.initialized = true then none
    else some ({ s with initialized := true }, ntripStartProcesses { s with initialized := true })
  | .reconnect delivered => some (s, ntripReconnect delivered)

/-- The code of the ntrip settings daemon. -/
def ntripProgram : Program NtripProcess NtripSettings NtripEvent :=
  ⟨ntripProcesses, ntripStopProcesses, ntripHandle⟩

/-- The ntrip settings daemon. -/
def ntrip : Machine (Daemon NtripProcess NtripSettings) (Action NtripEvent) :=
  ntripProgram.machine ⟨false, "", false⟩

lemma checked_ntripStopProcess (i : NtripProcess) {next : Code NtripProcess Signal}
    (h : next.Checked .nothing) : (ntripStopProcess i next).Checked .nothing := by
  simp [ntripStopProcess, Code.Checked, AtHand.reread, h]

lemma checked_ntripStartProcesses (s : NtripSettings) :
    (ntripStartProcesses s).Checked .nothing := by
  refine Code.checked_foldr ntripProcesses fun i next hnext => checked_ntripStopProcess i ?_
  split_ifs
  · exact hnext
  · simp [Code.Checked, hnext]

/-- The NTRIP daemon signals only what it has read and tested. -/
lemma checked_ntripProgram : ntripProgram.Checked where
  mem_processes i := by cases i <;> decide
  stop := Code.checked_foldr ntripProcesses fun i _ => checked_ntripStopProcess i
  handle s event r hr := by
    cases event with
    | enable value =>
      cases hr
      unfold ntripNotifyEnable
      split_ifs
      · exact checked_ntripStartProcesses _
      · trivial
    | url value =>
      simp only [ntripProgram, ntripHandle] at hr
      split at hr <;> cases hr <;> trivial
    | registered =>
      simp only [ntripProgram, ntripHandle] at hr
      split_ifs at hr
      cases hr
      exact checked_ntripStartProcesses _
    | reconnect delivered =>
      cases hr
      exact checked_reconnect _ delivered _

/-! ### skylark -/

/-- Source: `skylark_processes`. -/
inductive SkylarkProcess
  | uploadDaemon
  | uploadAdapter
  | downloadAdapter
  | downloadDaemon
  deriving DecidableEq, Repr

/-- Source: `skylark_processes`, in the order of the array. -/
def skylarkProcesses : List SkylarkProcess :=
  [.uploadDaemon, .uploadAdapter, .downloadAdapter, .downloadDaemon]

/-- Source: `skylark_stop_process`. The pid is read once for the test and once for the signal, and
there is no second signal after the sleep, which lasts no time. -/
def skylarkStopProcess (i : SkylarkProcess) (next : Code SkylarkProcess Signal) :
    Code SkylarkProcess Signal :=
  .read i <| .ifRunning (.read i <| .kill i .sigterm <| .clear i next) next

/-- Source: `skylark_stop_processes`. -/
def skylarkStopProcesses : Code SkylarkProcess Signal :=
  skylarkProcesses.foldr skylarkStopProcess .done

/-- Source: the body of the loop of `skylark_notify`. -/
def skylarkNotifyProcess (enabled : Bool) (i : SkylarkProcess)
    (next : Code SkylarkProcess Signal) : Code SkylarkProcess Signal :=
  skylarkStopProcess i <| if enabled = false then next else .fork i <| .store i next

/-- Source: `skylark_notify`. -/
def skylarkNotify (enabled : Bool) : Code SkylarkProcess Signal :=
  skylarkProcesses.foldr (skylarkNotifyProcess enabled) .done

/-- Source: `skylark_reconnect_dl`. -/
def skylarkReconnectDl (delivered : Bool) : Code SkylarkProcess Signal :=
  reconnect .downloadDaemon delivered skylarkProcesses

/-- The calls the settings client makes into `skylark_settings.c`. -/
inductive SkylarkEvent
  /-- `skylark.enable` is written. -/
  | enable (value : Bool)
  /-- `skylark.url` is written. -/
  | url
  | reconnect (delivered : Bool)

/-- What each call does to `skylark_enabled`, and its code. -/
def skylarkHandle (enabled : Bool) : SkylarkEvent → Option (Bool × Code SkylarkProcess Signal)
  | .enable value => some (value, skylarkNotify value)
  | .url => some (enabled, skylarkNotify enabled)
  | .reconnect delivered => some (enabled, skylarkReconnectDl delivered)

/-- The code of the skylark settings daemon. -/
def skylarkProgram : Program SkylarkProcess Bool SkylarkEvent :=
  ⟨skylarkProcesses, skylarkStopProcesses, skylarkHandle⟩

/-- The skylark settings daemon. -/
def skylark : Machine (Daemon SkylarkProcess Bool) (Action SkylarkEvent) :=
  skylarkProgram.machine false

lemma checked_skylarkStopProcess (i : SkylarkProcess) {next : Code SkylarkProcess Signal}
    (h : next.Checked .nothing) : (skylarkStopProcess i next).Checked .nothing := by
  simp [skylarkStopProcess, Code.Checked, AtHand.reread, h]

lemma checked_skylarkNotify (enabled : Bool) : (skylarkNotify enabled).Checked .nothing := by
  refine Code.checked_foldr skylarkProcesses fun i next hnext => checked_skylarkStopProcess i ?_
  split_ifs
  · exact hnext
  · simp [Code.Checked, hnext]

lemma checked_skylarkProgram : skylarkProgram.Checked where
  mem_processes i := by cases i <;> decide
  stop := Code.checked_foldr skylarkProcesses fun i _ => checked_skylarkStopProcess i
  handle enabled event r hr := by
    cases event with
    | enable value | url =>
      cases hr
      exact checked_skylarkNotify _
    | reconnect delivered =>
      cases hr
      exact checked_reconnect _ delivered _

/-! ### Runs -/

/-- In runs in which no failed fork is read and no exit is recorded for the pid at hand, both
daemons signal only children: the pid is positive, was returned by a fork for the slot and has not
been recorded as exited. -/
theorem onlyChildren_of_reaches (s : Daemon NtripProcess NtripSettings)
    (s' : Daemon SkylarkProcess Bool) :
    ((ntrip.restrict Quiet).Reaches s → ProcessTable.OnlyChildren s.thread.table.history) ∧
    ((skylark.restrict Quiet).Reaches s' → ProcessTable.OnlyChildren s'.thread.table.history) :=
  ⟨onlyChildren_of_checked checked_ntripProgram, onlyChildren_of_checked checked_skylarkProgram⟩

/-- Some instructions without a fork. -/
def instructions {ε : Type} (n : Nat) : List (Action ε) := List.replicate n (.next 0)

/-- Starting a process in a slot that has none. -/
def starts {ε : Type} (pid : Int) : List (Action ε) := [.next 0, .next 0, .next pid, .next 0]

/-- Both daemons start their processes, are told to reconnect, see one process exit and stop the
others. The ntrip adapter survives the sleep and is sent `SIGKILL` too; the skylark download
adapter exits while the upload adapter is stopped. -/
theorem onlyChildren_of_reaches_stopped : (∃ s, (ntrip.restrict Quiet).Reaches s ∧
      s.thread.table.history =
        [.killed .adapter 10 .sigkill, .killed .adapter 10 .sigterm, .exited 11,
         .killed .daemon 11 .sigusr1, .forked .daemon 11, .forked .adapter 10] ∧
      ProcessTable.OnlyChildren s.thread.table.history) ∧
    (∃ s, (skylark.restrict Quiet).Reaches s ∧ s.thread.table.history =
        [.killed .downloadDaemon 23 .sigterm, .exited 22, .killed .uploadAdapter 21 .sigterm,
         .exited 20, .killed .downloadDaemon 23 .sigusr1, .forked .downloadDaemon 23,
         .forked .downloadAdapter 22, .forked .uploadAdapter 21, .forked .uploadDaemon 20] ∧
      ProcessTable.OnlyChildren s.thread.table.history) := by
  constructor
  · refine Machine.exists_reaches_and_of_run
      ([.handle (.url "caster"), .handle (.enable true), .handle .registered] ++ starts 10 ++
        starts 11 ++ [.handle (.reconnect true)] ++ instructions 4 ++
        [.sigchld 11, .handle (.enable false)] ++ instructions 9) (by decide +kernel) ?_
    exact fun s hs _ => (onlyChildren_of_reaches s skylark.init).1 hs
  · refine Machine.exists_reaches_and_of_run
      ([.handle (.enable true)] ++ starts 20 ++ starts 21 ++ starts 22 ++ starts 23 ++
        [.handle (.reconnect true)] ++ instructions 4 ++ [.sigchld 20, .stop] ++
        instructions 6 ++ [.sigchld 22] ++ instructions 8) (by decide +kernel) ?_
    exact fun s hs _ => (onlyChildren_of_reaches ntrip.init s).2 hs

/-- A fork fails when the processes are started; disabling the daemon then calls `kill` with `-1`,
which signals every process it may signal. -/
theorem not_onlyChildren_forkFailed :
    (∃ s, ntrip.Reaches s ∧ s.thread.table.history.head? = some (.killed .daemon (-1) .sigterm) ∧
      ¬ ProcessTable.OnlyChildren s.thread.table.history) ∧
    (∃ s, skylark.Reaches s ∧
      s.thread.table.history.head? = some (.killed .uploadDaemon (-1) .sigterm) ∧
      ¬ ProcessTable.OnlyChildren s.thread.table.history) := by
  constructor
  · refine Machine.exists_reaches_and_of_run
      ([.handle (.url "caster"), .handle (.enable true), .handle .registered] ++ starts 10 ++
        starts (-1) ++ [.handle (.enable false)] ++ instructions 10) (by decide +kernel) ?_
    exact fun s _ hhead => ProcessTable.not_onlyChildren_of_head hhead (by decide)
  · refine Machine.exists_reaches_and_of_run
      ([.handle (.enable true)] ++ starts (-1) ++ starts (-1) ++ starts (-1) ++ starts (-1) ++
        [.handle (.enable false)] ++ instructions 4) (by decide +kernel) ?_
    exact fun s _ hhead => ProcessTable.not_onlyChildren_of_head hhead (by decide)

/-- A process that exits after its pid was read is signalled all the same, and where the pid is read
twice the daemon signals its own process group. -/
example : (∃ s, ntrip.Reaches s ∧ s.thread.table.history.take 2 =
      [.killed .daemon 11 .sigterm, .exited 11]) ∧
    ∃ s, skylark.Reaches s ∧ s.thread.table.history.take 2 =
      [.killed .uploadDaemon 0 .sigterm, .exited 20] :=
  ⟨Machine.exists_reaches_of_run
    ([.handle (.url "caster"), .handle (.enable true), .handle .registered] ++ starts 10 ++
      starts 11 ++ [.sigchld 10, .stop] ++ instructions 4 ++ [.sigchld 11] ++ instructions 1)
      (by decide +kernel),
   Machine.exists_reaches_of_run
    ([.handle (.enable true)] ++ starts 20 ++ [.stop] ++ instructions 2 ++ [.sigchld 20] ++
      instructions 2) (by decide +kernel)⟩

end PiksiBuildroot.SettingsDaemons
