import Mathlib.Data.Nat.Digits.Defs
import PiksiBuildroot.Lib.CText
import PiksiBuildroot.Lib.Machine

/-!
# The ports

`port_configure` puts together the command line of the adapter of a port and starts it, after a
notification that its mode, its address or its port number has changed. The options for file IO
are written to a static buffer when the port is in SBP mode, and the buffer is used in every mode.
`commandOf` is the command line that belongs to a port (`started_own_of_reaches`).
-/

namespace PiksiBuildroot.PortsDaemon

open Lib CText List Option

/-- Source: `port_type_t`. -/
inductive PortType where
  | uart
  | usb
  | tcpServer
  | tcpClient
  | udpServer
  | udpClient
  | can
  deriving DecidableEq

/-- An address in its buffer. -/
abbrev Address : Type := { text : List Char // text.length < 256 }

/-- The options of a port; its type says which one is used. Source: `opts_data_t`. -/
structure OptsData where
  port : UInt32
  address : Address
  number : UInt8
  deriving DecidableEq

/-- The characters of the names and of the fixed options of ports. -/
def optionChar (c : Char) : Bool :=
  c.isAlphanum || c == '_' || c == '-' || c == '.' || c == '/' || c == ':'

/-- The room and the characters of the name and of the fixed options of a port. -/
def PortWords (name opts : List Char) : Prop := (name.length ≤ 11 ∧ name.all optionChar = true) ∧
    opts.length ≤ 60 ∧ opts.all (fun c => optionChar c || c == ' ') = true

instance (name opts : List Char) : Decidable (PortWords name opts) :=
  inferInstanceAs (Decidable ((_ ∧ _) ∧ _ ∧ _))

/-- Source: `port_config_t`. -/
structure PortConfig where
  name : List Char
  opts : List Char
  words : PortWords name opts
  optsData : OptsData
  type : PortType
  modeNameDefault : List Char
  mode : UInt8
  restart : Bool
  firstStart : Bool
  deriving DecidableEq

/-- A protocol as its library gives it. Source: `protocol_t`. -/
structure Protocol where
  settingName : List Char
  portAdapterOptsGet : List Char → List Char

/-- A CAN interface and the settings of it that the adapter gets. Source: `can_t`. -/
structure Can where
  name : List Char
  id : UInt32
  filter : UInt32
  deriving DecidableEq

/-! ### The table of ports -/

/-- Source: `MODE_DISABLED`. -/
def modeDisabled : UInt8 := 0

/-- Source: `MODE_NAME_SBP`, `MODE_NAME_DEFAULT`. -/
def modeNameSbp : List Char := "SBP".toList

/-- Source: `MODE_NAME_DISABLED`. -/
def modeNameDisabled : List Char := "Disabled".toList

/-- An entry of the table; every port starts disabled and without an address. -/
def portEntry (name opts : String) (hwords : PortWords name.toList opts.toList)
    (port : UInt32) (number : UInt8) (type : PortType) (modeNameDefault : List Char)
    (restart : Bool) : PortConfig where
  name := name.toList
  opts := opts.toList
  words := hwords
  optsData := { port := port, address := ⟨[], Nat.succ_pos 255⟩, number := number }
  type := type
  modeNameDefault := modeNameDefault
  mode := modeDisabled
  restart := restart
  firstStart := true

/-- A serial port: a name, a device and the size of its queue. -/
def serialPort (name opts : String) (hwords : PortWords name.toList opts.toList) (type : PortType) :
    PortConfig :=
  portEntry name opts hwords 0 0 type modeNameSbp true

/-- A port of the network or of a CAN interface has no fixed options. -/
def otherPort (name : String) (hwords : PortWords name.toList "".toList) (port : UInt32)
    (number : UInt8) (type : PortType) (modeNameDefault : List Char) : PortConfig :=
  portEntry name "" hwords port number type modeNameDefault false

/-- Source: `port_configs`. -/
def portConfigs : List PortConfig :=
  [serialPort "uart0" "--name uart0 --file /dev/ttyPS0 --nonblock --outq 4096"
     (by decide) .uart,
   serialPort "uart1" "--name uart1 --file /dev/ttyPS1 --nonblock --outq 4096"
     (by decide) .uart,
   serialPort "usb0" "--name usb0 --file /dev/tty.usb0 --nonblock --outq 8192"
     (by decide) .usb,
   serialPort "usb2" "--name usb2 --file /dev/tty.usb2 --nonblock --outq 8192"
     (by decide) .usb,
   otherPort "tcp_server0" (by decide) 55555 0 .tcpServer modeNameSbp,
   otherPort "tcp_server1" (by decide) 55556 0 .tcpServer modeNameSbp,
   otherPort "tcp_client0" (by decide) 0 0 .tcpClient modeNameDisabled,
   otherPort "tcp_client1" (by decide) 0 0 .tcpClient modeNameDisabled,
   otherPort "udp_server0" (by decide) 55557 0 .udpServer modeNameSbp,
   otherPort "udp_server1" (by decide) 55558 0 .udpServer modeNameSbp,
   otherPort "udp_client0" (by decide) 0 0 .udpClient modeNameDisabled,
   otherPort "udp_client1" (by decide) 0 0 .udpClient modeNameDisabled,
   otherPort "can0" (by decide) 0 0 .can modeNameDisabled,
   otherPort "can1" (by decide) 0 1 .can modeNameDisabled]

/-- The place of the USB port that has no settings. Source: `FIXED_SBP_USB_PORT_NAME`. -/
def fixedSbpUsbPort : Nat := 3

/-- Source: `cans`. -/
def initialCans : List Can :=
  [{ name := "can0".toList, id := 0, filter := 0 }, { name := "can1".toList, id := 1, filter := 0 }]

/-! ### The options of a port -/

/-- The digits that `%u` prints. -/
def printUnsigned (n : Nat) : List Char := Nat.toDigits 10 n

/-- The options for file IO of a port. -/
def fileioText (name : List Char) : List Char :=
  " --pub2 ipc:///var/run/sockets/fileio/".toList ++ name ++
    ".sub --sub2 ipc:///var/run/sockets/fileio/".toList ++ name ++ ".pub ".toList

/-- The types of port whose options have those for file IO. -/
def PortType.usesFileio : PortType → Bool
  | .uart | .usb | .tcpServer | .tcpClient => true
  | .udpServer | .udpClient | .can => false

/-- The text that the options function of a port prints, given the text of the options for file IO
and the CAN interface. Source: `opts_get_uart`, `opts_get_tcp_server`, `opts_get_tcp_client`,
`opts_get_udp_server`, `opts_get_udp_client`, `opts_get_can`. -/
def optsText (port : PortConfig) (can : Option Can) (fileio : List Char) : Option (List Char) :=
  match port.type with
  | .uart | .usb => some fileio
  | .tcpServer =>
    some ("--name ".toList ++ port.name ++ " --tcp-l ".toList ++
      printUnsigned port.optsData.port.toNat ++ fileio)
  | .tcpClient =>
    some ("--name ".toList ++ port.name ++ " --tcp-c ".toList ++ port.optsData.address.val ++
      fileio)
  | .udpServer =>
    some ("--name ".toList ++ port.name ++ " --udp-l ".toList ++
      printUnsigned port.optsData.port.toNat)
  | .udpClient =>
    some ("--name ".toList ++ port.name ++ " --udp-c ".toList ++ port.optsData.address.val)
  | .can =>
    can.map fun can =>
      "--name can".toList ++ printUnsigned port.optsData.number.toNat ++ " --can ".toList ++
        printUnsigned can.id.toNat ++ " --can-f ".toList ++ printUnsigned can.filter.toNat

/-! ### The protocols -/

/-- Source: `port_adapter_opts_get` in `info_sbp.c`. -/
def sbpProtocol : Protocol where
  settingName := "SBP".toList
  portAdapterOptsGet portName := "--framer-in sbp --framer-out sbp --filter-out sbp ".toList ++
      "--filter-out-config /etc/filter_out_config/".toList ++ portName ++
      " -p 'ipc:///var/run/sockets/external.sub'".toList ++
      " -s 'ipc:///var/run/sockets/external.pub'".toList

/-- Source: `port_adapter_opts_get` in `info_rtcm3_in.c`. -/
def rtcm3InProtocol : Protocol where
  settingName := "RTCMv3 IN".toList
  portAdapterOptsGet _ :=
    "--framer-in rtcm3 --framer-out none -p 'ipc:///var/run/sockets/rtcm3_external.sub'".toList

/-- Source: `port_adapter_opts_get` in `info_nmea.c`. -/
def nmeaProtocol : Protocol where
  settingName := "NMEA OUT".toList
  portAdapterOptsGet _ := "-p 'ipc:///var/run/sockets/nmea_external.sub'".toList ++
      " -s 'ipc:///var/run/sockets/nmea_external.pub'".toList

/-- Source: `port_adapter_opts_get` in `info_rtcm3_out.c`. -/
def rtcm3OutProtocol : Protocol where
  settingName := "RTCMv3 OUT".toList
  portAdapterOptsGet _ := "-s 'ipc:///var/run/sockets/rtcm3_external.pub'".toList

/-! ### The command line of an adapter -/

/-- The options of the protocol as they are in their buffer. -/
def modeOpts (protocol : Protocol) (port : PortConfig) : List Char :=
  snprintf 512 (protocol.portAdapterOptsGet port.name)

/-- The command line of an adapter. -/
def adapterCommand (port : PortConfig) (opts modeOpts : List Char) : List Char :=
  "endpoint_adapter ".toList ++ port.opts ++ [' '] ++ opts ++ [' '] ++ modeOpts

/-! ### The daemon -/

/-- A start of an adapter: the port as it was configured, its CAN interface, and the command
line. -/
structure Start where
  port : PortConfig
  can : Option Can
  command : List Char
  deriving DecidableEq

/-- The ports, the CAN interfaces, the static buffer `fileio_opts` and the adapters started. -/
structure State where
  ports : List PortConfig
  cans : List Can
  canSettingsInitialized : Bool
  fileioOpts : List Char
  started : List Start

/-- Source: the results of `port_configure`. -/
inductive ConfigureResult where
  | ok
  | valueRejected
  | serviceFailed
  deriving DecidableEq

/-- Source: `port_is_enabled`. -/
def portIsEnabled (ports : List PortConfig) (name : List Char) : Bool :=
  ports.any fun port => name.take 3 == port.name.take 3 && port.mode != modeDisabled

/-- Change a port. -/
def State.modify (s : State) (i : Nat) (f : PortConfig → PortConfig) : State :=
  { s with ports := s.ports.modify i f }

/-- The CAN interface of a port. -/
def ownCan (cans : List Can) (port : PortConfig) : Option Can :=
  if port.type = .can then cans[port.optsData.number.toNat]? else none

section daemon

variable (protocols : List Protocol)

/-- Source: `mode_lookup`. -/
def modeLookup (modeName : List Char) : Option UInt8 :=
  if sameWord modeName modeNameDisabled then some modeDisabled
  else
    (protocols.findIdx? fun protocol => sameWord protocol.settingName modeName).map
      fun i => UInt8.ofNat (i + 1)

/-- The protocol of a mode. Source: `mode_to_protocol_index`, `protocols_get`. -/
def modeProtocol (mode : UInt8) : Option Protocol := protocols[mode.toNat - 1]?

/-- The content of the static buffer after the call, which is what the call returns. The assertions
that there is an SBP mode and that the text fits abort. Source: `get_fileio_opts`. -/
def getFileioOpts (fileioOpts : List Char) (port : PortConfig) : Option (List Char) :=
  match modeLookup protocols modeNameSbp with
  | none => none
  | some modeSbp =>
    if port.mode = modeSbp then
      if (fileioText port.name).length < 256 then some (fileioText port.name) else none
    else some fileioOpts

/-- The static buffer after the options function of a port. -/
def fileioAfter (fileioOpts : List Char) (port : PortConfig) : Option (List Char) :=
  if port.type.usesFileio then getFileioOpts protocols fileioOpts port else some fileioOpts

/-- Put together the command line and start the service. -/
def startAdapter (s : State) (port : PortConfig) (protocol : Protocol) : Option State := do
  let fileio ← fileioAfter protocols s.fileioOpts port
  let opts ← optsText port (ownCan s.cans port) fileio
  let cmd := snprintf 1024 (adapterCommand port (snprintf 512 opts) (modeOpts protocol port))
  some { s with
    fileioOpts := fileio
    started := s.started ++ [{ port := port, can := ownCan s.cans port, command := cmd }] }

/-- Source: `port_configure`; `starts` says whether `start_runit_service` succeeds. -/
def portConfigure (starts updatingMode : Bool) (s : State) (i : Nat) :
    Option (ConfigureResult × State) :=
  match s.ports[i]? with
  | none => none
  | some port =>
    if updatingMode = false ∧ port.firstStart = true then some (.ok, s)
    else
      let port := { port with firstStart := false }
      let s := { s with ports := s.ports.set i port }
      if port.mode = modeDisabled then some (.ok, s)
      else
        match modeProtocol protocols port.mode with
        | none => some (.valueRejected, s)
        | some protocol =>
          (startAdapter protocols s port protocol).map fun s =>
            (if starts then .ok else .serviceFailed, s)

/-- The new value is there when the notification runs, and the old one is put back if it fails. -/
def notify (starts updatingMode : Bool) (s : State) (i : Nat) (change : PortConfig → PortConfig) :
    Option State := do
  let old ← s.ports[i]?
  let out ← portConfigure protocols starts updatingMode (s.modify i change) i
  some (if out.1 = .ok then out.2
    else out.2.modify i fun p => { p with mode := old.mode, optsData := old.optsData })

/-- A setting of a CAN interface changes only while no CAN port is enabled, or at the start.
Source: `can_notify`. -/
def canNotify (s : State) (n : Nat) (change : Can → Can) : State :=
  if s.canSettingsInitialized && (s.cans[n]?).any fun can => portIsEnabled s.ports can.name then s
  else { s with cans := s.cans.modify n change }

/-- The notifications, with the new value and whether the service starts; the configuration of the
port without settings in `ports_init`; and the end of `can_init`. -/
inductive Action where
  | mode (i : Nat) (mode : UInt8) (starts : Bool)
  | port (i : Nat) (port : UInt32) (starts : Bool)
  | address (i : Nat) (address : Address) (starts : Bool)
  | canTxId (n : Nat) (id : UInt32)
  | canRxIdFilter (n : Nat) (filter : UInt32)
  | canInitialized
  | fixedSbpUsb (starts : Bool)

/-- Source: `setting_mode_notify`, `setting_tcp_server_port_notify`,
`setting_tcp_client_address_notify`, `setting_udp_server_port_notify`,
`setting_udp_client_address_notify`, `can_notify`, and the loop of `ports_init`. -/
def step (s : State) : Action → Option State
  | .mode i mode starts => notify protocols starts true s i fun p => { p with mode := mode }
  | .port i port starts =>
    notify protocols starts false s i
      fun p => { p with optsData := { p.optsData with port := port } }
  | .address i address starts =>
    notify protocols starts false s i
      fun p => { p with optsData := { p.optsData with address := address } }
  | .canTxId n id => some (canNotify s n fun can => { can with id := id })
  | .canRxIdFilter n filter => some (canNotify s n fun can => { can with filter := filter })
  | .canInitialized => some { s with canSettingsInitialized := true }
  | .fixedSbpUsb starts => (portConfigure protocols starts true s fixedSbpUsbPort).map (·.2)

/-- The ports with their default modes. Source: `ports_init`. -/
def initialPorts : List PortConfig := portConfigs.map fun port =>
    { port with
      mode := (modeLookup protocols port.modeNameDefault).getD
        ((modeLookup protocols modeNameSbp).getD modeDisabled) }

/-- The ports daemon. -/
def machine : Machine State Action where
  init :=
    { ports := initialPorts protocols, cans := initialCans, canSettingsInitialized := false,
      fileioOpts := [], started := [] }
  step := step protocols

end daemon

/-! ### The command that belongs to a port -/

section own

variable (protocols : List Protocol)

/-- The options for file IO of a port: its own in SBP mode, none in another mode. -/
def ownFileioOpts (port : PortConfig) : List Char :=
  if some port.mode = modeLookup protocols modeNameSbp then fileioText port.name else []

/-- The command line that belongs to a port. -/
def commandOf (port : PortConfig) (can : Option Can) : Option (List Char) := do
  let protocol ← modeProtocol protocols port.mode
  let opts ← optsText port can (ownFileioOpts protocols port)
  some (adapterCommand port opts (modeOpts protocol port))

/-- An adapter was started with the command line of its port. -/
def Start.Own (start : Start) : Prop :=
  commandOf protocols start.port start.can = some start.command

instance (start : Start) : Decidable (start.Own protocols) := inferInstanceAs (Decidable (_ = _))

/-- A port that uses the static buffer is disabled, or in SBP mode, or finds the buffer empty. -/
def PortClean (fileioOpts : List Char) (port : PortConfig) : Prop := port.type.usesFileio = true →
    port.mode = modeDisabled ∨ some port.mode = modeLookup protocols modeNameSbp ∨ fileioOpts = []

instance (fileioOpts : List Char) (port : PortConfig) :
    Decidable (PortClean protocols fileioOpts port) :=
  inferInstanceAs (Decidable (_ → _))

/-- The port that an action configures, with its new value. -/
def target (s : State) : Action → Option PortConfig
  | .mode i mode _ => s.ports[i]?.map fun p => { p with mode := mode }
  | .port i port _ =>
    s.ports[i]?.map fun p => { p with optsData := { p.optsData with port := port } }
  | .address i address _ =>
    s.ports[i]?.map fun p => { p with optsData := { p.optsData with address := address } }
  | .canTxId _ _ | .canRxIdFilter _ _ | .canInitialized => none
  | .fixedSbpUsb _ => s.ports[fixedSbpUsbPort]?

/-- The port that an action configures does not find the options of another one. -/
def BufferClean (s : State) (a : Action) : Prop :=
  ((target s a).all fun port => PortClean protocols s.fileioOpts port) = true

instance (s : State) (a : Action) : Decidable (BufferClean protocols s a) :=
  inferInstanceAs (Decidable (_ = true))

end own

/-! ### Nothing is cut off -/

lemma printUnsigned_length {n : Nat} (h : n < 2 ^ 32) : (printUnsigned n).length ≤ 10 := by
  have hlt : n < 10 ^ 10 := Nat.lt_trans h (by decide)
  exact Nat.toDigitsCore_length 10 (n + 1) n 10 (by decide) hlt

lemma fileioText_length (port : PortConfig) : (fileioText port.name).length ≤ 108 := by
  have hname := port.words.1.1
  have hpub2 : " --pub2 ipc:///var/run/sockets/fileio/".toList.length = 38 := rfl
  have hsub2 : ".sub --sub2 ipc:///var/run/sockets/fileio/".toList.length = 42 := rfl
  have hpub : ".pub ".toList.length = 5 := rfl
  unfold fileioText
  -- the words become variables, or simp would unfold the literals
  generalize " --pub2 ipc:///var/run/sockets/fileio/".toList = pub2 at hpub2 ⊢
  generalize ".sub --sub2 ipc:///var/run/sockets/fileio/".toList = sub2 at hsub2 ⊢
  simp only [length_append]
  omega

lemma ownFileioOpts_length (protocols : List Protocol) (port : PortConfig) :
    (ownFileioOpts protocols port).length ≤ 108 := by
  unfold ownFileioOpts
  split_ifs
  · exact fileioText_length port
  · exact Nat.zero_le 108

variable {can : Option Can}

/-- Options with the port's own text for file IO leave room in their buffer. -/
lemma optsText_length {port : PortConfig} {fileio opts : List Char}
    (hfileio : fileio.length ≤ 108) (h : optsText port can fileio = some opts) :
    opts.length ≤ 400 := by
  have hname := port.words.1.1
  have haddress := port.optsData.address.property
  have hport := printUnsigned_length port.optsData.port.toNat_lt
  have hwords : "--name ".toList.length = 7 ∧ " --tcp-l ".toList.length = 9 ∧
      " --tcp-c ".toList.length = 9 ∧ " --udp-l ".toList.length = 9 ∧
      " --udp-c ".toList.length = 9 ∧ "--name can".toList.length = 10 ∧
      " --can ".toList.length = 7 ∧ " --can-f ".toList.length = 9 := by decide
  unfold optsText at h
  split at h
  case h_7 =>
    obtain ⟨can, -, rfl⟩ := map_eq_some_iff.mp h
    have hnumber : (printUnsigned port.optsData.number.toNat).length ≤ 10 :=
      printUnsigned_length (Nat.lt_trans port.optsData.number.toNat_lt (by decide))
    have hid := printUnsigned_length can.id.toNat_lt
    have hfilter := printUnsigned_length can.filter.toNat_lt
    simp only [length_append, hwords]
    omega
  case h_1 | h_2 =>
    cases h
    omega
  all_goals
    cases h
    simp only [length_append, hwords]
    omega

lemma snprintf_of_lt {size : Nat} {text : List Char} (h : text.length < size) :
    snprintf size text = text :=
  take_of_length_le (by omega)

/-- A command line is not cut off. -/
lemma snprintf_adapterCommand {port : PortConfig} {opts : List Char} (protocol : Protocol)
    (h : opts.length ≤ 400) :
    snprintf 1024 (adapterCommand port (snprintf 512 opts) (modeOpts protocol port)) =
      adapterCommand port opts (modeOpts protocol port) := by
  have hopts := port.words.2.1
  have hmode : (modeOpts protocol port).length ≤ 511 := length_take_le _ _
  have hword : "endpoint_adapter ".toList.length = 17 := rfl
  rw [@snprintf_of_lt 512 opts (by omega)]
  apply snprintf_of_lt
  unfold adapterCommand
  generalize "endpoint_adapter ".toList = word at hword ⊢
  simp only [length_append, length_singleton]
  omega

/-! ### Starts -/

section runs

variable {protocols : List Protocol}

/-- The buffer does not matter to a port that does not use it. -/
lemma optsText_of_not_usesFileio {port : PortConfig} {fileio fileio' : List Char}
    (h : port.type.usesFileio = false) : optsText port can fileio = optsText port can fileio' := by
  unfold optsText
  split
  all_goals first
    | rfl
    | simp_all [PortType.usesFileio]

lemma optsText_of_usesFileio {port : PortConfig} (h : port.type.usesFileio = true)
    (fileio : List Char) : optsText port can fileio = (optsText port can []).map (· ++ fileio) := by
  unfold optsText
  split
  all_goals simp_all [PortType.usesFileio]

/-- Behind its other options, the command line of a port that uses the buffer has `--pub2` and
`--sub2` with the port's own name exactly in SBP mode. -/
theorem commandOf_fileio_iff {port : PortConfig} (huses : port.type.usesFileio = true)
    {command : List Char} (h : commandOf protocols port can = some command) :
    ∃ opts protocol, optsText port can [] = some opts ∧
      modeProtocol protocols port.mode = some protocol ∧
      (command = adapterCommand port (opts ++ fileioText port.name) (modeOpts protocol port) ↔
        some port.mode = modeLookup protocols modeNameSbp) ∧
      (command = adapterCommand port opts (modeOpts protocol port) ↔
        some port.mode ≠ modeLookup protocols modeNameSbp) := by
  simp only [commandOf, optsText_of_usesFileio huses (ownFileioOpts protocols port),
    bind_eq_bind, bind_eq_some_iff, map_eq_some_iff, some.injEq] at h
  obtain ⟨protocol, hprotocol, _, ⟨opts, hopts, rfl⟩, rfl⟩ := h
  have hne : fileioText port.name ≠ [] := by
    intro hnil
    have hword : " --pub2 ipc:///var/run/sockets/fileio/".toList ≠ [] := by decide
    exact hword (append_eq_nil_iff.mp (append_eq_nil_iff.mp
      (append_eq_nil_iff.mp (append_eq_nil_iff.mp hnil).1).1).1).1
  refine ⟨opts, protocol, hopts, hprotocol, ?_⟩
  unfold ownFileioOpts adapterCommand
  split_ifs with hmode <;> simp [hmode, hne]

variable {fileioOpts fileio : List Char}

/-- The buffer holds the port's own options after the call if it was clean before. -/
lemma getFileioOpts_own {port : PortConfig}
    (hclean : some port.mode = modeLookup protocols modeNameSbp ∨ fileioOpts = [])
    (h : getFileioOpts protocols fileioOpts port = some fileio) :
    fileio = ownFileioOpts protocols port := by
  unfold getFileioOpts at h
  unfold ownFileioOpts
  rcases hsbp : modeLookup protocols modeNameSbp with _ | modeSbp
  · simp [hsbp] at h
  · simp only [hsbp, some.injEq] at h hclean ⊢
    split_ifs at h ⊢ with hmode
    · exact (some_inj.mp h).symm
    · rcases hclean with hclean | hclean
      · exact absurd hclean hmode
      · exact (some_inj.mp h).symm.trans hclean

/-- The options of a port that is clean are those with its own text for file IO. -/
lemma optsText_fileioAfter {port : PortConfig} (hclean : PortClean protocols fileioOpts port)
    (hmode : port.mode ≠ modeDisabled) (h : fileioAfter protocols fileioOpts port = some fileio) :
    optsText port can fileio = optsText port can (ownFileioOpts protocols port) := by
  rcases huses : port.type.usesFileio with _ | _
  · exact optsText_of_not_usesFileio huses
  · rw [fileioAfter, if_pos huses] at h
    rw [getFileioOpts_own ((hclean huses).resolve_left hmode) h]

variable {s s' : State}

/-- An adapter of a clean port is started with its own command line. -/
lemma startAdapter_own {port : PortConfig} {protocol : Protocol}
    (hown : ∀ start ∈ s.started, start.Own protocols)
    (hclean : PortClean protocols s.fileioOpts port) (hmode : port.mode ≠ modeDisabled)
    (hprotocol : modeProtocol protocols port.mode = some protocol)
    (h : startAdapter protocols s port protocol = some s') :
    ∀ start ∈ s'.started, start.Own protocols := by
  simp only [startAdapter, bind_eq_bind, bind_eq_some_iff, some.injEq] at h
  obtain ⟨fileio, hfileio, opts, hopts, rfl⟩ := h
  rw [optsText_fileioAfter hclean hmode hfileio] at hopts
  have hlength := optsText_length (ownFileioOpts_length protocols port) hopts
  intro start hstart
  rcases mem_append.mp hstart with hold | hnew
  · exact hown start hold
  · obtain rfl := mem_singleton.mp hnew
    simp only [Start.Own, commandOf, hprotocol, hopts, bind_eq_bind, bind_some,
      snprintf_adapterCommand protocol hlength]

/-! ### What a step can do -/

/-- The adapters started and the static buffer are the same. -/
def State.Agrees (s s' : State) : Prop := s'.started = s.started ∧ s'.fileioOpts = s.fileioOpts

/-- The adapter of a port is started, and apart from that the adapters and the buffer stay. -/
def Starts (protocols : List Protocol) (s : State) (port : PortConfig) (s' : State) : Prop :=
  port.mode ≠ modeDisabled ∧ ∃ protocol s₀ s₁, modeProtocol protocols port.mode = some protocol ∧
    s.Agrees s₀ ∧ startAdapter protocols s₀ { port with firstStart := false } protocol = some s₁ ∧
    s₁.Agrees s'

variable {starts updatingMode : Bool} {i : Nat} {a : Action}

/-- Configuring a port starts an adapter for it or nothing. -/
lemma portConfigure_cases {result : ConfigureResult}
    (h : portConfigure protocols starts updatingMode s i = some (result, s')) :
    s.Agrees s' ∨ ∃ port, s.ports[i]? = some port ∧ Starts protocols s port s' := by
  unfold portConfigure at h
  rcases hport : s.ports[i]? with _ | port
  · simp [hport] at h
  · simp only [hport] at h
    split at h
    · cases h
      exact Or.inl ⟨rfl, rfl⟩
    split at h
    · cases h
      exact Or.inl ⟨rfl, rfl⟩
    next hdisabled =>
    split at h
    · cases h
      exact Or.inl ⟨rfl, rfl⟩
    next protocol hprotocol =>
    obtain ⟨s₁, hstart, heq⟩ := map_eq_some_iff.mp h
    obtain ⟨-, rfl⟩ := Prod.mk.inj heq
    exact Or.inr ⟨port, rfl, hdisabled, protocol,
      { s with ports := s.ports.set i { port with firstStart := false } }, s₁, hprotocol,
      ⟨rfl, rfl⟩, hstart, rfl, rfl⟩

/-- The port that a notification starts has its new value. -/
lemma notify_cases {change : PortConfig → PortConfig}
    (h : notify protocols starts updatingMode s i change = some s') :
    s.Agrees s' ∨ ∃ port, s.ports[i]?.map change = some port ∧ Starts protocols s port s' := by
  simp only [notify, bind_eq_bind, bind_eq_some_iff, some.injEq] at h
  obtain ⟨old, -, ⟨result, s₁⟩, hconfigure, rfl⟩ := h
  have hagrees : s₁.Agrees (if result = .ok then s₁
      else s₁.modify i fun p => { p with mode := old.mode, optsData := old.optsData }) := by
    split_ifs
    · exact ⟨rfl, rfl⟩
    · exact ⟨rfl, rfl⟩
  rcases portConfigure_cases hconfigure with hsame | ⟨port, hport, hmode, hstart⟩
  · exact Or.inl ⟨hagrees.1.trans hsame.1, hagrees.2.trans hsame.2⟩
  · obtain ⟨protocol, s₂, s₃, hprotocol, hbefore, hstart, hafter⟩ := hstart
    exact Or.inr ⟨port, by simpa [State.modify] using hport, hmode, protocol, s₂, s₃, hprotocol,
      hbefore, hstart, hagrees.1.trans hafter.1, hagrees.2.trans hafter.2⟩

lemma step_cases (h : step protocols s a = some s') :
    s.Agrees s' ∨ ∃ port, target s a = some port ∧ Starts protocols s port s' := by
  cases a with
  | mode i mode starts | port i port starts | address i address starts => exact notify_cases h
  | canTxId n id | canRxIdFilter n filter =>
    cases h
    unfold canNotify
    split_ifs
    · exact Or.inl ⟨rfl, rfl⟩
    · exact Or.inl ⟨rfl, rfl⟩
  | canInitialized =>
    cases h
    exact Or.inl ⟨rfl, rfl⟩
  | fixedSbpUsb starts =>
    obtain ⟨⟨result, s₁⟩, hconfigure, rfl⟩ := map_eq_some_iff.mp h
    exact portConfigure_cases hconfigure

/-- A step whose port finds the buffer clean starts it with its own command line. -/
lemma step_own (hown : ∀ start ∈ s.started, start.Own protocols)
    (hclean : BufferClean protocols s a) (h : step protocols s a = some s') :
    ∀ start ∈ s'.started, start.Own protocols := by
  rcases step_cases h with hsame | ⟨port, hport, hmode, hstarts⟩
  · rw [hsame.1]
    exact hown
  · obtain ⟨protocol, s₀, s₁, hprotocol, hbefore, hstart, hafter⟩ := hstarts
    rw [BufferClean, hport] at hclean
    have hport : PortClean protocols s.fileioOpts port := of_decide_eq_true hclean
    rw [← hbefore.2] at hport
    rw [← hbefore.1] at hown
    rw [hafter.1]
    exact @startAdapter_own _ s₀ _ { port with firstStart := false } _ hown hport hmode hprotocol
      hstart

/-- In every run all of whose configured ports find the buffer clean, every adapter is started with
the command line of its own port: with its name, mode and options, and with its options for file IO
exactly in SBP mode. -/
theorem started_own_of_reaches (protocols : List Protocol) {s : State}
    (h : ((machine protocols).restrict (BufferClean protocols)).Reaches s) :
    ∀ start ∈ s.started, start.Own protocols := by
  refine h.invariant_restrict (fun s => ∀ start ∈ s.started, start.Own protocols) ?_ ?_
  · intro start hstart
    exact absurd hstart not_mem_nil
  · intro s a s' hown hclean hstep
    exact step_own hown hclean hstep

end runs

/-- Two protocols. -/
def sbpAndRtcm3Out : List Protocol := [sbpProtocol, rtcm3OutProtocol]

/-- A port in the second mode before one in SBP mode. -/
theorem started_own_of_reaches_rtcm3First :
    ∃ s, ((machine sbpAndRtcm3Out).restrict (BufferClean sbpAndRtcm3Out)).Reaches s ∧
      s.started.length = 2 ∧ ∀ start ∈ s.started, start.Own sbpAndRtcm3Out :=
  Machine.exists_reaches_and_of_run [.mode 4 2 true, .fixedSbpUsb true] (by decide +kernel)
    fun _ hs _ => started_own_of_reaches sbpAndRtcm3Out hs

/-- The port that is configured first leaves its options for file IO to a TCP server in another
mode. -/
theorem tcpServer_startedWithUsbOptions :
    ∃ s, (machine sbpAndRtcm3Out).Reaches s ∧ ∃ start ∈ s.started,
      start.port.name = "tcp_server0".toList ∧
      modeLookup sbpAndRtcm3Out "RTCMv3 OUT".toList = some start.port.mode ∧
      ¬ start.Own sbpAndRtcm3Out ∧
      start.command = ("endpoint_adapter  --name tcp_server0 --tcp-l 55555" ++
        " --pub2 ipc:///var/run/sockets/fileio/usb2.sub" ++
        " --sub2 ipc:///var/run/sockets/fileio/usb2.pub " ++
        " -s 'ipc:///var/run/sockets/rtcm3_external.pub'").toList :=
  Machine.exists_reaches_of_run [.fixedSbpUsb true, .mode 4 2 true] (by decide +kernel)

end PiksiBuildroot.PortsDaemon
