import PiksiBuildroot.Lib.ShellValue
import PiksiBuildroot.PortsDaemon.Ports

/-!
# Setting values in run scripts

`start_runit_service` writes the command line into a script of the shell. The address of a client
port is printed into the command line of its adapter, and the access point name of the cell modem
into the argument of the connect option of `pppd`, which `pppd` gives to a shell of its own. Neither
is quoted (`settingValues_sameCommand_iff`). What surrounds the address in a run of the ports daemon
is known: the fixed options, the options for file IO of this port or of another one
(`fileioOpts_of_reaches`), and those of the protocol.
-/

namespace PiksiBuildroot.PortsDaemon

open Lib CText ShellLex

/-- The `run` file of a service. Source: `start_runit_service`. -/
def runScript (commandLine : List Char) : List Char :=
  "#!/bin/sh\n".toList ++ "exec ".toList ++ commandLine ++ ['\n']

/-! ### Texts around a value -/

lemma classify_of_optionChar {c : Char} (h : optionChar c = true) : classify c = .ordinary := by
  simp only [optionChar, Bool.or_eq_true, beq_iff_eq, or_assoc] at h
  rcases h with h | rfl | rfl | rfl | rfl | rfl
  · exact classify_of_isAlphanum h
  all_goals decide

variable {text : List Char}

/-- Names and options without quotes. -/
lemma balanced_of_optionChars (h : text.all (fun c => optionChar c || c == ' ') = true) :
    Balanced text := by
  induction text with
  | nil => exact ⟨rfl, rfl⟩
  | cons c text ih =>
    simp only [List.all_cons, Bool.and_eq_true, Bool.or_eq_true, beq_iff_eq] at h
    obtain ⟨hall, hends⟩ := ih h.2
    have hc : simpleChar c = true ∧ c ≠ '\'' := by
      rcases h.1 with hc | rfl
      · have hclass := classify_of_optionChar hc
        refine ⟨by simp only [simpleChar, hclass], ?_⟩
        rintro rfl
        exact absurd hclass (by decide)
      · decide
    refine ⟨by rw [List.all_cons, hc.1, hall]; rfl, ?_⟩
    rw [endsQuoted, if_neg hc.2, hends]

lemma all_optionOrBlank (h : text.all optionChar = true) :
    text.all (fun c => optionChar c || c == ' ') = true := by
  rw [List.all_eq_true] at h ⊢
  intro c hc
  rw [h c hc]
  rfl

lemma PortConfig.name_balanced (port : PortConfig) : Balanced port.name :=
  balanced_of_optionChars (all_optionOrBlank port.words.1.2)

/-- The protocols of this repository. -/
def knownProtocols : List Protocol := [sbpProtocol, rtcm3InProtocol, nmeaProtocol, rtcm3OutProtocol]

/-- The options of SBP close their quotes. -/
lemma sbpProtocol_balanced (port : PortConfig) : Balanced (modeOpts sbpProtocol port) := by
  have hfront : Balanced ("--framer-in sbp --framer-out sbp --filter-out sbp ".toList ++
      "--filter-out-config /etc/filter_out_config/".toList) :=
    balanced_of_optionChars rfl
  have hback : Balanced (" -p 'ipc:///var/run/sockets/external.sub'".toList ++
      " -s 'ipc:///var/run/sockets/external.pub'".toList) := by
    simp only [String.reduceToList]
    exact ⟨rfl, rfl⟩
  have htext : sbpProtocol.portAdapterOptsGet port.name =
      ("--framer-in sbp --framer-out sbp --filter-out sbp ".toList ++
        "--filter-out-config /etc/filter_out_config/".toList) ++ port.name ++
      (" -p 'ipc:///var/run/sockets/external.sub'".toList ++
        " -s 'ipc:///var/run/sockets/external.pub'".toList) := by
    rw [← List.append_assoc]
    rfl
  have hlength : (sbpProtocol.portAdapterOptsGet port.name).length < 512 := by
    rw [htext, List.length_append, List.length_append]
    exact Nat.lt_of_le_of_lt
      (Nat.add_le_add (Nat.add_le_add (by decide : _ ≤ 100) port.words.1.1) (by decide : _ ≤ 100))
      (by decide)
  rw [modeOpts, snprintf_of_lt hlength, htext]
  exact (hfront.append port.name_balanced).append hback

/-- So do those of every known protocol. -/
lemma modeOpts_balanced {protocol : Protocol} (h : protocol ∈ knownProtocols)
    (port : PortConfig) : Balanced (modeOpts protocol port) := by
  simp only [knownProtocols, List.mem_cons, List.not_mem_nil, or_false] at h
  rcases h with rfl | rfl | rfl | rfl
  · exact sbpProtocol_balanced port
  -- the options of the others do not depend on the port
  · change Balanced (snprintf 512
      "--framer-in rtcm3 --framer-out none -p 'ipc:///var/run/sockets/rtcm3_external.sub'".toList)
    simp only [String.reduceToList]
    exact ⟨rfl, rfl⟩
  · change Balanced (snprintf 512
      ("-p 'ipc:///var/run/sockets/nmea_external.sub'".toList ++
        " -s 'ipc:///var/run/sockets/nmea_external.pub'".toList))
    simp only [String.reduceToList]
    exact ⟨rfl, rfl⟩
  · change Balanced (snprintf 512 "-s 'ipc:///var/run/sockets/rtcm3_external.pub'".toList)
    simp only [String.reduceToList]
    exact ⟨rfl, rfl⟩

/-- The buffer is empty or has the options of a port. -/
def FileioText (text : List Char) : Prop :=
  text = [] ∨ ∃ port : PortConfig, text = fileioText port.name

/-- The file-io options and the port's own are the rest of a line. -/
lemma FileioText.trailer {fileio opts : List Char} (h : FileioText fileio)
    (hopts : Balanced opts) :
    Trailer (fileio ++ [' '] ++ opts ++ ['\n']) := by
  rcases h with rfl | ⟨port, rfl⟩
  · exact Or.inr ⟨opts, rfl, hopts⟩
  · have hpub : Balanced "--pub2 ipc:///var/run/sockets/fileio/".toList :=
      balanced_of_optionChars rfl
    have hsub : Balanced ".sub --sub2 ipc:///var/run/sockets/fileio/".toList :=
      balanced_of_optionChars rfl
    have hend : Balanced (".pub ".toList ++ [' ']) := balanced_of_optionChars rfl
    refine Or.inr ⟨"--pub2 ipc:///var/run/sockets/fileio/".toList ++ port.name ++
      ".sub --sub2 ipc:///var/run/sockets/fileio/".toList ++ port.name ++
        (".pub ".toList ++ [' ']) ++
      opts, ?_, ?_⟩
    · have hblank : " --pub2 ipc:///var/run/sockets/fileio/".toList =
          ' ' :: "--pub2 ipc:///var/run/sockets/fileio/".toList := by decide
      unfold fileioText
      rw [hblank]
      generalize "--pub2 ipc:///var/run/sockets/fileio/".toList = pub2
      generalize ".sub --sub2 ipc:///var/run/sockets/fileio/".toList = sub2
      simp only [List.append_assoc, List.cons_append, List.nil_append]
    · exact ((((hpub.append port.name_balanced).append hsub).append port.name_balanced).append
        hend).append hopts

lemma FileioText.length {fileio : List Char} (h : FileioText fileio) : fileio.length ≤ 108 := by
  rcases h with rfl | ⟨port, rfl⟩
  · exact Nat.zero_le 108
  · exact fileioText_length port

/-! ### The buffer in a run -/

section runs

variable {protocols : List Protocol}

lemma fileioAfter_fileioText {fileioOpts fileio : List Char} {port : PortConfig}
    (hbefore : FileioText fileioOpts) (h : fileioAfter protocols fileioOpts port = some fileio) :
    FileioText fileio := by
  unfold fileioAfter getFileioOpts at h
  split at h
  · split at h
    · exact absurd h.symm (Option.some_ne_none _)
    · split_ifs at h
      · exact Or.inr ⟨port, (Option.some_inj.mp h).symm⟩
      · exact Option.some_inj.mp h ▸ hbefore
  · exact Option.some_inj.mp h ▸ hbefore

/-- In every run the buffer has the options of a port or none. -/
theorem fileioOpts_of_reaches {s : State} (h : (machine protocols).Reaches s) :
    FileioText s.fileioOpts := by
  apply @Machine.Reaches.invariant _ _ _ (fun s => FileioText s.fileioOpts) _ _ s h
  · exact Or.inl rfl
  · intro s a s' hbefore hstep
    rcases step_cases hstep with hsame | ⟨port, -, -, protocol, s₀, s₁, -, hsame, hstart, hafter⟩
    · rw [hsame.2]
      exact hbefore
    · simp only [startAdapter, Option.bind_eq_bind, Option.bind_eq_some_iff,
        Option.some.injEq] at hstart
      obtain ⟨fileio, hfileio, opts, -, rfl⟩ := hstart
      rw [hafter.2]
      rw [← hsame.2] at hbefore
      exact fileioAfter_fileioText hbefore hfileio

end runs

/-! ### The address of a client port -/

/-- The port with another address. -/
def PortConfig.withAddress (port : PortConfig) (address : Address) : PortConfig :=
  { port with optsData := { port.optsData with address := address } }

/-- The run file that is written in a state for a port with an address. -/
def addressScript (protocols : List Protocol) (s : State) (port : PortConfig) (protocol : Protocol)
    (address : Address) : Option (List Char) := do
  let s' ← startAdapter protocols s (port.withAddress address) protocol
  let start ← s'.started.getLast?
  some (runScript start.command)

/-- The word before the address. -/
def addressOption (type : PortType) : List Char :=
  if type = .tcpClient then " --tcp-c".toList else " --udp-c".toList

/-- The text before the address. -/
def beforeAddress (port : PortConfig) : List Char :=
  "#!/bin/sh\n".toList ++ ("exec ".toList ++ "endpoint_adapter ".toList ++ port.opts ++ [' '] ++
    "--name ".toList ++ port.name ++ addressOption port.type) ++ [' ']

/-- The address begins a word. -/
lemma beforeAddress_ready (port : PortConfig) : Ready (beforeAddress port) := by
  have hhead : Ready "#!/bin/sh\n".toList := ⟨_, rfl⟩
  apply hhead.append
  have hexec : Balanced ("exec ".toList ++ "endpoint_adapter ".toList) :=
    balanced_of_optionChars rfl
  have hblank : Balanced [' '] := balanced_of_optionChars rfl
  have hname : Balanced "--name ".toList := balanced_of_optionChars rfl
  have hoption : Balanced (addressOption port.type) := by
    unfold addressOption
    split_ifs
    · exact balanced_of_optionChars rfl
    · exact balanced_of_optionChars rfl
  exact ((((hexec.append (balanced_of_optionChars port.words.2.2)).append hblank).append
    hname).append port.name_balanced).append hoption

variable {protocols : List Protocol}

lemma modeLookup_sbp (h : sbpProtocol ∈ protocols) :
    ∃ mode, modeLookup protocols modeNameSbp = some mode := by
  have hfound : (protocols.findIdx?
      fun protocol => sameWord protocol.settingName modeNameSbp).isSome = true := by
    rw [List.findIdx?_isSome, List.any_eq_true]
    exact ⟨sbpProtocol, h, by decide⟩
  obtain ⟨i, hi⟩ := Option.isSome_iff_exists.mp hfound
  refine ⟨UInt8.ofNat (i + 1), ?_⟩
  rw [modeLookup, if_neg (by decide), hi]
  rfl

/-- The options of a client port, with the text that follows the address. -/
lemma optsText_client {port : PortConfig} (fileio : List Char) (can : Option Can)
    (hclient : port.type = .tcpClient ∨ port.type = .udpClient) (address : Address) :
    optsText (port.withAddress address) can fileio =
      some ("--name ".toList ++ port.name ++ addressOption port.type ++ [' '] ++ address.val ++
        if port.type = .tcpClient then fileio else []) := by
  have htcp : " --tcp-c ".toList = " --tcp-c".toList ++ [' '] := by decide
  have hudp : " --udp-c ".toList = " --udp-c".toList ++ [' '] := by decide
  unfold optsText addressOption PortConfig.withAddress
  rcases hclient with htype | htype
  · simp only [htype, if_true, htcp, List.append_assoc]
  · simp only [htype, reduceCtorEq, if_false, hudp, List.append_assoc, List.append_nil]

lemma fileioAfter_withAddress {fileioOpts : List Char} {port : PortConfig}
    (hsbp : sbpProtocol ∈ protocols) :
    ∃ fileio, ∀ address,
      fileioAfter protocols fileioOpts (port.withAddress address) = some fileio := by
  obtain ⟨mode, hmode⟩ := modeLookup_sbp hsbp
  have hlength : (fileioText port.name).length < 256 :=
    Nat.lt_of_le_of_lt (fileioText_length port) (by decide)
  have hbuffer : ∃ fileio, fileioAfter protocols fileioOpts port = some fileio := by
    unfold fileioAfter getFileioOpts
    simp only [hmode, if_pos hlength]
    split_ifs <;> exact ⟨_, rfl⟩
  obtain ⟨fileio, hfileio⟩ := hbuffer
  exact ⟨fileio, fun address => hfileio⟩

/-- The script of a client port. -/
lemma addressScript_eq {s : State} {port : PortConfig} (hsbp : sbpProtocol ∈ protocols)
    (hs : FileioText s.fileioOpts) (hclient : port.type = .tcpClient ∨ port.type = .udpClient)
    (protocol : Protocol) :
    ∃ fileio, FileioText fileio ∧ ∀ address : Address,
      addressScript protocols s port protocol address = some (beforeAddress port ++ address.val ++
          (fileio ++ [' '] ++ modeOpts protocol port ++ ['\n'])) := by
  obtain ⟨fileio, hfileio⟩ := @fileioAfter_withAddress _ s.fileioOpts port hsbp
  have htext : FileioText fileio := fileioAfter_fileioText hs (hfileio ⟨[], by decide⟩)
  refine ⟨if port.type = .tcpClient then fileio else [], ?_, fun address => ?_⟩
  · split_ifs
    · exact htext
    · exact Or.inl rfl
  · have hopts := optsText_client fileio (ownCan s.cans (port.withAddress address)) hclient address
    have hlength := optsText_length htext.length hopts
    have hmode : modeOpts protocol (port.withAddress address) = modeOpts protocol port := rfl
    have hfixed : (port.withAddress address).opts = port.opts := rfl
    simp only [addressScript, startAdapter, hfileio address, hopts, Option.bind_eq_bind,
      Option.bind_some, List.getLast?_append, List.getLast?_singleton, Option.some_or,
      snprintf_adapterCommand protocol hlength]
    unfold runScript adapterCommand beforeAddress
    rw [hmode, hfixed]
    -- the words become variables, or simp would unfold the literals
    generalize "#!/bin/sh\n".toList = shell
    generalize "exec ".toList = exec
    generalize "endpoint_adapter ".toList = adapter
    generalize "--name ".toList = name
    simp only [List.append_assoc]

/-- In every state that a run leads to, exactly the plain addresses are in one word of the script.
-/
lemma address_sameCommand_iff {s : State} {port : PortConfig} {protocol : Protocol}
    (hsbp : sbpProtocol ∈ protocols) (hprotocol : protocol ∈ knownProtocols)
    (hs : (machine protocols).Reaches s) (hclient : port.type = .tcpClient ∨ port.type = .udpClient)
    (address : Address) :
    SameCommand Subtype.val id (fun a => (addressScript protocols s port protocol a).bind lex)
      address ↔ Plain address.val := by
  obtain ⟨fileio, hfileio, hscript⟩ :=
    addressScript_eq hsbp (fileioOpts_of_reaches hs) hclient protocol
  have hletters : Alphanumeric (⟨['a'], by decide⟩ : Address).val := ⟨by decide, by decide⟩
  refine sameCommand_iff (fun a => ?_) (beforeAddress_ready port)
    (hfileio.trailer (modeOpts_balanced hprotocol port)) hletters address
  rw [hscript, Option.bind_some]

/-! ### The access point name of the cell modem -/

/-- Source: `modem_type`. -/
inductive ModemType where
  | gsm
  | cdma
  | invalid
  deriving DecidableEq

/-- The access point name in its buffer. -/
abbrev Apn : Type := { text : List Char // text.length < 32 }

/-- The name of a modem's terminal device; probing accepts those that the kernel numbers. -/
abbrev Device : Type := { name : List Char // name.length ≤ 255 ∧ name.all optionChar = true }

/-- The settings and the device of the cell modem. -/
structure CellModem where
  enabled : Bool
  dev : Option Device
  modemType : ModemType
  debug : Bool
  apn : Apn

/-- The command that makes the connection. -/
def chatCommand (modemType : ModemType) (apn : List Char) : List Char := match modemType with
  | .gsm => snprintf 256 ("/usr/bin/chat_command gsm ".toList ++ apn)
  | .cdma => "/usr/bin/chat_command cdma".toList
  | .invalid => []

/-- The rest of the command line of `pppd`. -/
def pppdDebug (debug : Bool) : List Char := (if debug then "debug".toList else []) ++ [' '] ++
    if debug then "| sbp_log --debug".toList else []

def pppdCommand (dev chatcmd : List Char) (debug : Bool) : List Char :=
  "sudo /usr/sbin/pppd ".toList ++ dev ++ " connect '".toList ++ chatcmd ++ "' ".toList ++
    pppdDebug debug

/-- The command line of the service that is started, if one is. A command line that does not fit the
buffer aborts. Source: `cell_modem_notify`. -/
def cellModemNotify (m : CellModem) : Option (List Char) :=
  if m.enabled = false ∨ m.modemType = .invalid then none
  else
    m.dev.bind fun dev =>
      let commandLine := pppdCommand dev.val (chatCommand m.modemType m.apn.val) m.debug
      if commandLine.length < 1024 then some commandLine else none

/-- The run file that is written with an access point name. -/
def apnScript (m : CellModem) (apn : Apn) : Option (List Char) :=
  (cellModemNotify { m with apn := apn }).map runScript

lemma chatCommand_gsm (apn : Apn) :
    chatCommand .gsm apn.val = "/usr/bin/chat_command gsm ".toList ++ apn.val := by
  have hword : "/usr/bin/chat_command gsm ".toList.length = 26 := rfl
  have hapn := apn.property
  refine snprintf_of_lt ?_
  rw [List.length_append, hword]
  omega

/-- In the command that makes the connection, exactly the plain names are in one word. -/
lemma chatCommand_sameCommand_iff (apn : Apn) :
    SameCommand Subtype.val id (fun a : Apn => lex (chatCommand .gsm a.val)) apn ↔
      Plain apn.val := by
  have hletters : Alphanumeric (⟨['a'], by decide⟩ : Apn).val := ⟨by decide, by decide⟩
  have hready : Ready "/usr/bin/chat_command gsm ".toList := ⟨_, rfl⟩
  refine sameCommand_iff (fun a => ?_) hready (Or.inl rfl) hletters apn
  rw [chatCommand_gsm, List.append_nil]

/-- The text before the quotation. -/
def beforeChat (dev : Device) : List Char :=
  "#!/bin/sh\n".toList ++ ("exec ".toList ++ "sudo /usr/sbin/pppd ".toList ++ dev.val ++
    " connect".toList) ++ [' ']

lemma beforeChat_ready (dev : Device) : Ready (beforeChat dev) := by
  have hhead : Ready "#!/bin/sh\n".toList := ⟨_, rfl⟩
  apply hhead.append
  have hsudo : Balanced ("exec ".toList ++ "sudo /usr/sbin/pppd ".toList) :=
    balanced_of_optionChars rfl
  have hconnect : Balanced " connect".toList := balanced_of_optionChars rfl
  exact (hsudo.append (balanced_of_optionChars (all_optionOrBlank dev.property.2))).append hconnect

/-- The command line fits its buffer. -/
lemma pppdCommand_length (dev : Device) (apn : Apn) (debug : Bool) :
    (pppdCommand dev.val ("/usr/bin/chat_command gsm ".toList ++ apn.val) debug).length < 1024 := by
  have hpppd : "sudo /usr/sbin/pppd ".toList.length = 20 := rfl
  have hconnect : " connect '".toList.length = 10 := rfl
  have hchat : "/usr/bin/chat_command gsm ".toList.length = 26 := rfl
  have hend : "' ".toList.length = 2 := rfl
  have hdebug : (pppdDebug debug).length ≤ 23 := by cases debug <;> decide
  have hdev := dev.property.1
  have hapn := apn.property
  unfold pppdCommand
  generalize "sudo /usr/sbin/pppd ".toList = pppd at hpppd ⊢
  generalize " connect '".toList = connect at hconnect ⊢
  generalize "/usr/bin/chat_command gsm ".toList = chat at hchat ⊢
  generalize "' ".toList = quote at hend ⊢
  simp only [List.length_append]
  omega

variable {m : CellModem} {dev : Device}

/-- The run file of a modem of the kind that has an access point name. -/
lemma apnScript_eq (henabled : m.enabled = true) (hgsm : m.modemType = .gsm)
    (hdev : m.dev = some dev) (apn : Apn) :
    apnScript m apn = some (beforeChat dev ++
      ('\'' :: ("/usr/bin/chat_command gsm ".toList ++ apn.val) ++
        '\'' :: ' ' :: (pppdDebug m.debug ++ ['\n']))) := by
  have hconnect : " connect '".toList = " connect".toList ++ [' '] ++ ['\''] := by decide
  have hend : "' ".toList = ['\'', ' '] := by decide
  have hfits := pppdCommand_length dev apn m.debug
  simp only [apnScript, cellModemNotify, henabled, hgsm, hdev, reduceCtorEq, Bool.true_eq_false,
    or_self, if_false, Option.bind_some, chatCommand_gsm, if_pos hfits, Option.map_some]
  unfold runScript pppdCommand beforeChat
  rw [hconnect, hend]
  generalize "#!/bin/sh\n".toList = shell
  generalize "exec ".toList = exec
  generalize "sudo /usr/sbin/pppd ".toList = pppd
  generalize "/usr/bin/chat_command gsm ".toList = chat
  simp only [List.append_assoc, List.cons_append, List.nil_append]

/-- A plain name does not end the quotation of the connect option. -/
lemma apn_sameCommand (henabled : m.enabled = true) (hgsm : m.modemType = .gsm)
    (hdev : m.dev = some dev) {apn : Apn} (hapn : Plain apn.val) :
    SameCommand Subtype.val ("/usr/bin/chat_command gsm ".toList ++ ·)
      (fun a => (apnScript m a).bind lex) apn := by
  obtain ⟨before, hbefore⟩ := beforeChat_ready dev
  have hdebug : ∃ after, lex (' ' :: (pppdDebug m.debug ++ ['\n'])) = some after := by
    cases m.debug <;> exact ⟨_, rfl⟩
  obtain ⟨after, hafter⟩ := hdebug
  have hquote : ∀ a : Apn, Plain a.val →
      ∀ c ∈ "/usr/bin/chat_command gsm ".toList ++ a.val, c ≠ '\'' := by
    intro a ha c hc heq
    rcases List.mem_append.mp hc with hc | hc
    · rw [heq] at hc
      exact absurd hc (by decide)
    · have hspecial := List.all_eq_true.mp ha.2.2 c hc
      rw [heq] at hspecial
      exact absurd hspecial (by decide)
  have hread : ∀ a : Apn, Plain a.val → (apnScript m a).bind lex =
      some (before ++ .word ("/usr/bin/chat_command gsm ".toList ++ a.val) :: after) := by
    intro a ha
    rw [apnScript_eq henabled hgsm hdev, Option.bind_some, lex, lexFrom_append, hbefore,
      Option.bind_some, lexFrom_quoted (hquote a ha) hafter]
  refine ⟨before, after, fun a ha => ?_⟩
  rcases ha with ha | rfl
  · exact hread a ha.plain
  · exact hread _ hapn

/-! ### Both kinds of values -/

/-- For every state that a run of the ports daemon leads to, every client port and every address,
the run script executes the command that it executes for an alphanumeric address, with the address
as one word, exactly if the address is plain. For a modem with an access point name it executes the
command that it executes for an alphanumeric name, with the name in the argument of the connect
option and there as one word of the command, exactly if the name is plain. -/
theorem settingValues_sameCommand_iff {protocols : List Protocol} {s : State} {port : PortConfig}
    {protocol : Protocol} {m : CellModem} {dev : Device} (hsbp : sbpProtocol ∈ protocols)
    (hprotocol : protocol ∈ knownProtocols) (hs : (machine protocols).Reaches s)
    (hclient : port.type = .tcpClient ∨ port.type = .udpClient) (henabled : m.enabled = true)
    (hgsm : m.modemType = .gsm) (hdev : m.dev = some dev) (address : Address) (apn : Apn) :
    (SameCommand Subtype.val id (fun a => (addressScript protocols s port protocol a).bind lex)
        address ↔ Plain address.val) ∧
      (SameCommand Subtype.val ("/usr/bin/chat_command gsm ".toList ++ ·)
          (fun a => (apnScript m a).bind lex) apn ∧
        SameCommand Subtype.val id (fun a : Apn => lex (chatCommand m.modemType a.val)) apn ↔
          Plain apn.val) := by
  refine ⟨address_sameCommand_iff hsbp hprotocol hs hclient address, ?_⟩
  rw [hgsm, chatCommand_sameCommand_iff]
  exact ⟨fun h => h.2, fun h => ⟨apn_sameCommand henabled hgsm hdev h, h⟩⟩

lemma portWords_tcpClient : PortWords "tcp_client0".toList "".toList := by decide

/-- A TCP client in the mode of the first protocol. -/
def tcpClientPort : PortConfig :=
  { otherPort "tcp_client0" portWords_tcpClient 0 0 .tcpClient modeNameDisabled with
    mode := UInt8.ofNat 1 }

/-- A modem that is on. -/
def gsmModem : CellModem where
  enabled := true
  dev := some ⟨"ttyACM0".toList, by decide⟩
  modemType := .gsm
  debug := false
  apn := ⟨"hologram".toList, by decide⟩

/-- An address with a port number, and a name with a dot. -/
theorem settingValues_sameCommand_plain : SameCommand Subtype.val id (fun a : Address =>
        (addressScript knownProtocols (machine knownProtocols).init tcpClientPort sbpProtocol
          a).bind lex) ⟨"192.168.0.1:55555".toList, by decide⟩ ∧
      SameCommand Subtype.val ("/usr/bin/chat_command gsm ".toList ++ ·)
        (fun a => (apnScript gsmModem a).bind lex) ⟨"hologram.net".toList, by decide⟩ := by
  have hiff := @settingValues_sameCommand_iff knownProtocols _ tcpClientPort sbpProtocol gsmModem _
    List.mem_cons_self List.mem_cons_self .init (Or.inl rfl) rfl rfl rfl
    ⟨"192.168.0.1:55555".toList, by decide⟩ ⟨"hologram.net".toList, by decide⟩
  exact ⟨hiff.1.mpr (by decide), (hiff.2.mpr (by decide)).1⟩

/-- A semicolon in the address or in the name: the shell executes what follows it as a command of
its own. -/
theorem settingValues_injectCommand :
    ((addressScript knownProtocols (machine knownProtocols).init tcpClientPort sbpProtocol
        ⟨"a;reboot".toList, by decide⟩).bind lex).map (fun tokens => (tokens.drop 6).take 3) =
      some [.word "a".toList, .operator ";".toList, .word "reboot".toList] ∧
    lex (chatCommand gsmModem.modemType "a;reboot".toList) =
      some [.word "/usr/bin/chat_command".toList, .word "gsm".toList, .word "a".toList,
        .operator ";".toList, .word "reboot".toList] ∧
    ¬ SameCommand Subtype.val id (fun a : Address =>
      (addressScript knownProtocols (machine knownProtocols).init tcpClientPort sbpProtocol
        a).bind lex) ⟨"a;reboot".toList, by decide⟩ := by
  refine ⟨by decide +kernel, by decide +kernel, fun hsame => ?_⟩
  have hplain := (@address_sameCommand_iff knownProtocols (machine knownProtocols).init
    tcpClientPort sbpProtocol List.mem_cons_self List.mem_cons_self .init (Or.inl rfl) _).mp hsame
  exact absurd hplain (by decide)

end PiksiBuildroot.PortsDaemon
