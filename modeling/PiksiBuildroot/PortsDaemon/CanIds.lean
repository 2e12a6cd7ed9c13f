import PiksiBuildroot.EndpointAdapter.Can
import PiksiBuildroot.PortsDaemon.RunScript

/-!
# The identifiers of a CAN port on the bus

The settings `tx_id` and `rx_id_filter` of a CAN interface are printed into the command line of the
adapter of its port, the shell divides the line into words, the adapter parses them as options and
gives one of the two to its CAN loop. `adapterOf` is that path from the command line to the loop,
and `canIds_iff_of_reaches` is about every run of the ports daemon.
-/

namespace PiksiBuildroot.PortsDaemon

open Lib CText ShellLex EndpointAdapter

/-! ### The words of a run script -/

/-- The text of a token that is a word. -/
def wordOf : Token → Option (List Char)
  | .word text => some text
  | .operator _ => none

/-- The words of the command that a run script executes: those between `exec` and the end of its
line. -/
def execWords (script : List Char) : Option (List (List Char)) := do
  let tokens ← lex script
  match tokens with
  | .operator ['\n'] :: .word first :: rest =>
    if first = "exec".toList ∧ rest.getLast? = some (.operator ['\n']) then
      rest.dropLast.mapM wordOf
    else none
  | _ => none

/-- The CAN loop of the adapter that a command line starts. -/
def adapterOf (longBits : Nat) (commandLine : List Char) : Option CanLoop := do
  let words ← execWords (runScript commandLine)
  match words with
  | program :: args =>
    if program = "endpoint_adapter".toList then runCan longBits args else none
  | [] => none

/-! ### The adapters of CAN ports -/

/-- What notifications do not change of a port. -/
def PortConfig.fixed (port : PortConfig) : List Char × List Char × PortType × UInt8 :=
  (port.name, port.opts, port.type, port.optsData.number)

variable {protocol : Protocol}

section runs

variable {protocols : List Protocol}

/-- The ports are the same up to what notifications change. -/
def State.SamePorts (s s' : State) : Prop :=
  ∀ i : Nat, s'.ports[i]?.map PortConfig.fixed = s.ports[i]?.map PortConfig.fixed

lemma State.SamePorts.trans {s₁ s₂ s₃ : State} (h : s₁.SamePorts s₂) (h' : s₂.SamePorts s₃) :
    s₁.SamePorts s₃ :=
  fun i => (h' i).trans (h i)

/-- Changing a port in something that is not fixed. -/
lemma samePorts_modify (s : State) (i : Nat) {f : PortConfig → PortConfig}
    (hf : ∀ port, s.ports[i]? = some port → (f port).fixed = port.fixed) :
    s.SamePorts (s.modify i f) := by
  intro j
  simp only [State.modify, List.getElem?_modify]
  by_cases hij : i = j
  · subst hij
    cases hport : s.ports[i]? with
    | none => rfl
    | some port => simp [hf port hport]
  · simp [hij]

variable {s s' : State} {port : PortConfig}

lemma startAdapter_ports (h : startAdapter protocols s port protocol = some s') :
    s'.ports = s.ports := by
  simp only [startAdapter, Option.bind_eq_bind, Option.bind_eq_some_iff, Option.some.injEq] at h
  obtain ⟨fileio, -, opts, -, rfl⟩ := h
  rfl

variable {starts updatingMode : Bool} {i : Nat} {a : Action}

/-- Configuring a port leaves the fixed parts of all ports. -/
lemma portConfigure_samePorts {result : ConfigureResult}
    (h : portConfigure protocols starts updatingMode s i = some (result, s')) : s.SamePorts s' := by
  unfold portConfigure at h
  rcases hport : s.ports[i]? with _ | port
  · simp [hport] at h
  · simp only [hport] at h
    have hset :
        s.SamePorts { s with ports := s.ports.set i { port with firstStart := false } } := by
      intro j
      simp only [List.getElem?_set]
      split
      · next hij =>
          subst hij
          rw [hport]
          split
          · rfl
          · next hlength => simp [List.getElem?_eq_none (Nat.le_of_not_lt hlength)] at hport
      · rfl
    split at h
    · cases h
      exact fun _ => rfl
    split at h
    · cases h
      exact hset
    split at h
    · cases h
      exact hset
    · obtain ⟨s₁, hstart, heq⟩ := Option.map_eq_some_iff.mp h
      cases heq
      intro j
      rw [startAdapter_ports hstart]
      exact hset j

/-- A change of a setting leaves the fixed parts as they are. -/
lemma notify_samePorts {change : PortConfig → PortConfig}
    (h : notify protocols starts updatingMode s i change = some s')
    (hchange : ∀ port, (change port).fixed = port.fixed) : s.SamePorts s' := by
  simp only [notify, Option.bind_eq_bind, Option.bind_eq_some_iff, Option.some.injEq] at h
  obtain ⟨old, hold, ⟨result, s₁⟩, hconfigure, rfl⟩ := h
  have hbefore : s.SamePorts s₁ :=
    (samePorts_modify s i fun port _ => hchange port).trans (portConfigure_samePorts hconfigure)
  split
  · exact hbefore
  · -- the number that is put back is the one that is there
    refine hbefore.trans (samePorts_modify s₁ i fun port hport => ?_)
    have hfixed := hbefore i
    rw [hport, hold] at hfixed
    simp only [Option.map_some, Option.some.injEq, PortConfig.fixed, Prod.mk.injEq] at hfixed
    simp only [PortConfig.fixed, hfixed]

lemma step_samePorts (h : step protocols s a = some s') : s.SamePorts s' := by
  cases a with
  | mode i mode starts | port i port starts | address i address starts =>
    exact notify_samePorts h fun _ => rfl
  | canTxId n id | canRxIdFilter n filter =>
    cases h
    unfold canNotify
    split
    · exact fun _ => rfl
    · exact fun _ => rfl
  | canInitialized =>
    cases h
    exact fun _ => rfl
  | fixedSbpUsb starts =>
    obtain ⟨⟨result, s₁⟩, hconfigure, rfl⟩ := Option.map_eq_some_iff.mp h
    exact portConfigure_samePorts hconfigure

/-- In every run the ports are those of the table. -/
lemma ports_of_reaches (h : (machine protocols).Reaches s) (i : Nat) :
    s.ports[i]?.map PortConfig.fixed = portConfigs[i]?.map PortConfig.fixed := by
  apply @Machine.Reaches.invariant _ _ _
    (fun s : State => ∀ i : Nat, s.ports[i]?.map PortConfig.fixed =
      portConfigs[i]?.map PortConfig.fixed)
    _ _ s h i
  · intro i
    simp only [machine, initialPorts, List.getElem?_map, Option.map_map]
    rfl
  · intro s a s' hports hstep i
    exact (step_samePorts hstep i).trans (hports i)

/-- The port that an action configures is one of the table. -/
lemma target_fixed
    (hports : ∀ i : Nat, s.ports[i]?.map PortConfig.fixed = portConfigs[i]?.map PortConfig.fixed)
    (h : target s a = some port) : ∃ entry ∈ portConfigs, port.fixed = entry.fixed := by
  have hat : ∀ (i : Nat) (f : PortConfig → PortConfig), s.ports[i]?.map f = some port →
      (∀ p, (f p).fixed = p.fixed) → ∃ entry ∈ portConfigs, port.fixed = entry.fixed := by
    intro i f hi hf
    obtain ⟨p, hp, rfl⟩ := Option.map_eq_some_iff.mp hi
    have hfixed := hports i
    rw [hp, Option.map_some] at hfixed
    obtain ⟨entry, hentry, heq⟩ := Option.map_eq_some_iff.mp hfixed.symm
    exact ⟨entry, List.mem_of_getElem? hentry, (hf p).trans heq.symm⟩
  cases a with
  | mode i mode starts | port i port' starts | address i address starts =>
    exact hat i _ h fun _ => rfl
  | canTxId n id | canRxIdFilter n filter | canInitialized => simp [target] at h
  | fixedSbpUsb starts => exact hat fixedSbpUsbPort id (Option.map_id_apply.trans h) fun _ => rfl

/-- An adapter of a CAN port was started with the identifiers of its interface. -/
def Start.OfCan (protocols : List Protocol) (start : Start) : Prop :=
  ∃ entry ∈ portConfigs, start.port.fixed = entry.fixed ∧
    ∃ protocol ∈ protocols, ∃ can, start.can = some can ∧ start.command = adapterCommand start.port
        ("--name can".toList ++ printUnsigned start.port.optsData.number.toNat ++
          " --can ".toList ++ printUnsigned can.id.toNat ++ " --can-f ".toList ++
          printUnsigned can.filter.toNat)
        (modeOpts protocol start.port)

/-- An adapter of a CAN port is started with the identifiers of its interface. -/
lemma startAdapter_ofCan (h : startAdapter protocols s port protocol = some s')
    (hstarted : ∀ start ∈ s.started, start.port.type = .can → start.OfCan protocols)
    (hport : ∃ entry ∈ portConfigs, port.fixed = entry.fixed) (hprotocol : protocol ∈ protocols) :
    ∀ start ∈ s'.started, start.port.type = .can → start.OfCan protocols := by
  simp only [startAdapter, Option.bind_eq_bind, Option.bind_eq_some_iff, Option.some.injEq] at h
  obtain ⟨fileio, -, opts, hopts, rfl⟩ := h
  intro start hstart hcan
  rcases List.mem_append.mp hstart with hold | hnew
  · exact hstarted start hold hcan
  · obtain rfl := List.mem_singleton.mp hnew
    dsimp only at hcan
    rw [@optsText_of_not_usesFileio _ port fileio [] (by rw [hcan]; rfl)] at hopts
    have hlength := optsText_length (List.length_nil ▸ Nat.zero_le 108) hopts
    simp only [optsText, hcan] at hopts
    obtain ⟨can, hown, rfl⟩ := Option.map_eq_some_iff.mp hopts
    obtain ⟨entry, hentry, hfixed⟩ := hport
    exact ⟨entry, hentry, hfixed, protocol, hprotocol, can, hown,
      snprintf_adapterCommand protocol hlength⟩

/-- In every run the adapters of CAN ports were started with the identifiers of the interface. -/
lemma started_ofCan_of_reaches (h : (machine protocols).Reaches s) :
    ∀ start ∈ s.started, start.port.type = .can → start.OfCan protocols := by
  induction h with
  | init => exact fun start hstart => absurd hstart List.not_mem_nil
  | step hs hstep ih =>
    rcases step_cases hstep with hsame | ⟨port, hport, -, protocol, s₀, s₁, hprotocol, hbefore,
      hstart, hafter⟩
    · rw [hsame.1]
      exact ih
    · obtain ⟨entry, hentry, hfixed⟩ := target_fixed (fun i => ports_of_reaches hs i) hport
      rw [hafter.1]
      refine startAdapter_ofCan hstart ?_ ⟨entry, hentry, hfixed⟩
        (List.mem_of_getElem? hprotocol)
      rw [hbefore.1]
      exact ih

end runs

/-! ### From the command line to the loop -/

variable {words : List (List Char)}

lemma mapM_wordOf {tokens : List Token} (h : tokens.mapM wordOf = some words) :
    tokens = words.map .word := by
  induction tokens generalizing words with
  | nil =>
    cases h
    rfl
  | cons token tokens ih =>
    simp only [List.mapM_cons, Option.pure_def, Option.bind_eq_bind, Option.bind_eq_some_iff,
      Option.some.injEq] at h
    obtain ⟨text, htext, texts, htexts, rfl⟩ := h
    cases token with
    | operator text => simp [wordOf] at htext
    | word text' =>
      cases htext
      rw [ih htexts]
      rfl

lemma mapM_wordOf_map (words : List (List Char)) :
    (words.map Token.word).mapM wordOf = some words := by
  induction words with
  | nil => rfl
  | cons text words ih => simp [List.mapM_cons, wordOf, ih]

lemma execWords_of_lex {script : List Char}
    (h : lex script = some (.operator ['\n'] :: .word "exec".toList ::
      (words.map .word ++ [.operator ['\n']]))) :
    execWords script = some words := by
  simp only [execWords, h, Option.bind_eq_bind, Option.bind_some]
  rw [if_pos (by simp), List.dropLast_concat, mapM_wordOf_map]

/-- A line with two plain values. -/
lemma lex_twoValues {before middle after id filter : List Char} {tokens tokens' : List Token}
    {option : List Char} (hbefore : run ⟨.blank, []⟩ before = some ⟨.blank, tokens⟩)
    (hid : Plain id) (hmiddle : run ⟨.blank, []⟩ middle = some ⟨.blank, [.word option]⟩)
    (hfilter : Plain filter) (hafter : lex (' ' :: after) = some tokens') :
    lex (before ++ (id ++ ' ' :: (middle ++ (filter ++ ' ' :: after)))) =
      some (tokens ++ .word id :: .word option :: .word filter :: tokens') := by
  have hsecond : lex (' ' :: (middle ++ (filter ++ ' ' :: after))) =
      some (.word option :: .word filter :: tokens') := by
    have hblank : lex (' ' :: (middle ++ (filter ++ ' ' :: after))) =
        lex (middle ++ (filter ++ ' ' :: after)) := rfl
    rw [hblank, lex, lexFrom_append, hmiddle, Option.bind_some, lexFrom_append, run_plain hfilter,
      Option.bind_some, lexFrom_settled (.word _) (.inr ⟨after, rfl⟩), hafter]
    rfl
  rw [lex, lexFrom_append, hbefore, Option.bind_some, lexFrom_append, run_plain hid,
    Option.bind_some, lexFrom_settled (.word _) (.inr ⟨_, rfl⟩), hsecond]
  simp [State.close]

lemma printUnsigned_plain (n : Nat) : Plain (printUnsigned n) := by
  apply Alphanumeric.plain
  refine ⟨Nat.toDigits_ne_nil, List.all_eq_true.mpr fun c hc => ?_⟩
  have hdigit := Nat.isDigit_of_mem_toDigits (by decide) (by decide) hc
  simp [Char.isAlphanum, hdigit]

/-- The options of a mode are parsed after those of a CAN port, and are none for CAN. -/
def modeParses (protocol : Protocol) (name : List Char) : Bool :=
  (lex (' ' :: (snprintf 512 (protocol.portAdapterOptsGet name) ++ ['\n']))).any fun tokens =>
    tokens.getLast? == some (.operator ['\n']) &&
    (tokens.dropLast.mapM wordOf).any fun words =>
      (Getopt.getoptLong optionTable words).all notCan &&
      ((Getopt.getoptLong optionTable words).foldlM (applyItem 0)
        { defaultOptions with ioMode := .can, portName := some name }).any fun o =>
          o.complete && (o.ioMode == .can && o.portName == some name)

lemma modeParses_known : ∀ protocol ∈ knownProtocols,
    modeParses protocol "can0".toList = true ∧ modeParses protocol "can1".toList = true := by
  decide +kernel

/-- The adapter of a CAN port has the loop with the number that its filter is read back as. -/
lemma adapterOf_can (longBits : Nat) {name before : List Char}
    (hmode : modeParses protocol name = true)
    (hbefore : run ⟨.blank, []⟩ before = some ⟨.blank, [.operator ['\n'], .word "exec".toList,
      .word "endpoint_adapter".toList, .word "--name".toList, .word name, .word "--can".toList]⟩)
    (id filter : Nat) {command : List Char}
    (hcommand : runScript command = before ++ (printUnsigned id ++ ' ' :: ("--can-f ".toList ++
      (printUnsigned filter ++ ' ' ::
        (snprintf 512 (protocol.portAdapterOptsGet name) ++ ['\n']))))) :
    adapterOf longBits command =
      some (canLoop name (UInt32.ofInt (atoi longBits (printUnsigned filter)))) := by
  obtain ⟨tokens, hlex, htokens⟩ := (Option.any_eq_true _ _).mp hmode
  rw [Bool.and_eq_true, beq_iff_eq] at htokens
  obtain ⟨hlast, hwords⟩ := htokens
  obtain ⟨words, hwords, hparse⟩ := (Option.any_eq_true _ _).mp hwords
  rw [Bool.and_eq_true] at hparse
  obtain ⟨hnotCan, hparse⟩ := hparse
  obtain ⟨o, hfold, ho⟩ := (Option.any_eq_true _ _).mp hparse
  simp only [Bool.and_eq_true, beq_iff_eq] at ho
  have htokens : tokens = words.map .word ++ [.operator ['\n']] := by
    rw [← mapM_wordOf hwords]
    exact (List.dropLast_append_getLast? _ hlast).symm
  have hmiddle : run ⟨.blank, []⟩ "--can-f ".toList = some ⟨.blank, [.word "--can-f".toList]⟩ := by
    decide +kernel
  have hscript := lex_twoValues hbefore (printUnsigned_plain id) hmiddle
    (printUnsigned_plain filter) hlex
  rw [← hcommand, htokens] at hscript
  have hexec : execWords (runScript command) =
      some ("endpoint_adapter".toList :: "--name".toList :: name :: "--can".toList ::
        printUnsigned id :: "--can-f".toList :: printUnsigned filter :: words) :=
    execWords_of_lex hscript
  unfold adapterOf
  rw [hexec]
  have hoptions := @parseOptions_can longBits name (printUnsigned id) (printUnsigned filter) words
    hnotCan o hfold ho.1
  simp only [Option.bind_eq_bind, Option.bind_some, if_true, runCan, hoptions]
  have hmode : (o.withIds (atoi longBits (printUnsigned id))
      (atoi longBits (printUnsigned filter))).ioMode = .can := ho.2.1
  have hname : (o.withIds (atoi longBits (printUnsigned id))
      (atoi longBits (printUnsigned filter))).portName = some name := ho.2.2
  rw [hmode, hname]
  rfl

/-- The text of a run script with two values, in parts as `lex_twoValues` has them. The words are
variables here, since simp would unfold the literals. -/
lemma append_twoValues {opts : List Char} (hopts : opts = [])
    (line program name digits option id option' filter mode : List Char) :
    line ++ (program ++ opts ++ [' '] ++
        (name ++ digits ++ option ++ id ++ (' ' :: option') ++ filter) ++ [' '] ++ mode) ++ ['\n'] =
      (line ++ program ++ [' '] ++ name ++ digits ++ option) ++
        (id ++ ' ' :: (option' ++ (filter ++ ' ' :: (mode ++ ['\n'])))) := by
  subst hopts
  simp only [List.append_assoc, List.nil_append, List.cons_append]

/-- The adapter of either CAN port. -/
lemma adapterOf_ofCan (longBits : Nat) {protocols : List Protocol}
    (hprotocols : ∀ protocol ∈ protocols, protocol ∈ knownProtocols) {start : Start}
    (htype : start.port.type = .can) (h : start.OfCan protocols) :
    ∃ can name, start.can = some can ∧ adapterOf longBits start.command =
      some (canLoop name (UInt32.ofInt (atoi longBits (printUnsigned can.filter.toNat)))) := by
  obtain ⟨entry, hentry, hfixed, protocol, hprotocol, can, hcan, hcommand⟩ := h
  have hmode := modeParses_known protocol (hprotocols protocol hprotocol)
  simp only [PortConfig.fixed, Prod.mk.injEq] at hfixed
  obtain ⟨hname, hopts, htype', hnumber⟩ := hfixed
  have hcans : ∀ entry ∈ portConfigs, entry.type = .can →
      entry.opts = [] ∧ (entry.name = "can0".toList ∧ entry.optsData.number = 0 ∨
        entry.name = "can1".toList ∧ entry.optsData.number = 1) := by
    decide +kernel
  obtain ⟨hnone, hentries⟩ := hcans entry hentry (htype'.symm.trans htype)
  have hscript : runScript start.command =
      ("#!/bin/sh\n".toList ++ "exec ".toList ++ "endpoint_adapter ".toList ++ [' '] ++
          "--name can".toList ++ printUnsigned start.port.optsData.number.toNat ++
          " --can ".toList) ++
        (printUnsigned can.id.toNat ++ ' ' :: ("--can-f ".toList ++
          (printUnsigned can.filter.toNat ++ ' ' :: (modeOpts protocol start.port ++ ['\n'])))) :=
    (congrArg runScript hcommand).trans
      (append_twoValues (hopts.trans hnone) _ _ _ _ _ _ "--can-f ".toList _ _)
  refine ⟨can, start.port.name, hcan, adapterOf_can longBits ?_ ?_ _ _ hscript⟩
  · rcases hentries with ⟨hname', -⟩ | ⟨hname', -⟩ <;> rw [hname, hname']
    · exact hmode.1
    · exact hmode.2
  · rcases hentries with ⟨hname', hnumber'⟩ | ⟨hname', hnumber'⟩ <;>
      rw [hnumber, hname, hname', hnumber'] <;> decide +kernel

/-- In every run, and for every value of the settings, the adapter of a CAN port comes up; its
frames carry the transmit identifier and its filter accepts the receive identifier, both in their
low eleven bits, exactly if the two agree there and the receive identifier fits into `long` and does
not have the bit that inverts a filter. -/
theorem canIds_iff_of_reaches (longBits : Nat) (hbits : 32 ≤ longBits) (protocols : List Protocol)
    (hprotocols : ∀ protocol ∈ protocols, protocol ∈ knownProtocols) {s : State}
    (h : (machine protocols).Reaches s) :
    ∀ start ∈ s.started, start.port.type = .can →
      ∃ can loop, start.can = some can ∧ adapterOf longBits start.command = some loop ∧
        (loop.KeepsIds can.id can.filter ↔
          can.filter.toNat < 2 ^ (longBits - 1) ∧ can.filter &&& canInvFilter = 0 ∧
            can.id &&& canSffMask = can.filter &&& canSffMask) := by
  intro start hstart htype
  obtain ⟨can, name, hcan, hadapter⟩ := adapterOf_ofCan longBits hprotocols htype
    (started_ofCan_of_reaches h start hstart htype)
  refine ⟨can, _, hcan, hadapter, ?_⟩
  rw [canLoop_keepsIds_iff]
  by_cases hlong : can.filter.toNat < 2 ^ (longBits - 1)
  · rw [printUnsigned, ofInt_atoi hlong]
    constructor
    · rintro ⟨hinv, -, hid⟩
      exact ⟨hlong, hinv, hid.symm⟩
    · rintro ⟨-, hinv, hid⟩
      exact ⟨hinv, rfl, hid.symm⟩
  · -- the largest `long` inverts the filter
    rw [printUnsigned, ofInt_atoi_of_le hbits (Nat.le_of_not_lt hlong)]
    constructor
    · rintro ⟨hinv, -⟩
      exact absurd hinv (by decide)
    · rintro ⟨hlong', -⟩
      exact absurd hlong' hlong

lemma sbpAndRtcm3Out_known : ∀ protocol ∈ sbpAndRtcm3Out, protocol ∈ knownProtocols := by
  simp [sbpAndRtcm3Out, knownProtocols]

/-- The same identifier for both directions. -/
theorem canIds_iff_of_reaches_sameId :
    ∃ s, (machine sbpAndRtcm3Out).Reaches s ∧ ∃ start ∈ s.started,
      start.can = some { name := "can0".toList, id := 0x123, filter := 0x123 } ∧
      ∃ loop, adapterOf 32 start.command = some loop ∧ loop.KeepsIds 0x123 0x123 := by
  obtain ⟨s, hs, start, hstart, htype, hids⟩ : ∃ s, (machine sbpAndRtcm3Out).Reaches s ∧
      ∃ start ∈ s.started, start.port.type = .can ∧
        start.can = some { name := "can0".toList, id := 0x123, filter := 0x123 } :=
    Machine.exists_reaches_of_run [.canTxId 0 0x123, .canRxIdFilter 0 0x123, .mode 12 2 true]
      (by decide +kernel)
  obtain ⟨can, loop, hcan, hloop, hiff⟩ := canIds_iff_of_reaches 32 (by decide) sbpAndRtcm3Out
    sbpAndRtcm3Out_known hs start hstart htype
  obtain rfl := Option.some_inj.mp (hcan.symm.trans hids)
  exact ⟨s, hs, start, hstart, hids, loop, hloop, hiff.mpr (by decide)⟩

/-- With two identifiers the frames carry that of the receive filter. -/
theorem canIds_twoIds : ∃ s, (machine sbpAndRtcm3Out).Reaches s ∧ ∃ start ∈ s.started,
      start.can = some { name := "can0".toList, id := 0x123, filter := 0x456 } ∧
      ∃ loop, adapterOf 32 start.command = some loop ∧
        loop.frames [([1, 2, 3], [.written])] = [⟨0x456, 3, [1, 2, 3, 0, 0, 0, 0, 0]⟩] ∧
        ¬ loop.KeepsIds 0x123 0x456 := by
  obtain ⟨s, hs, start, hstart, hids, hloop⟩ : ∃ s, (machine sbpAndRtcm3Out).Reaches s ∧
      ∃ start ∈ s.started,
        start.can = some { name := "can0".toList, id := 0x123, filter := 0x456 } ∧
        adapterOf 32 start.command = some (canLoop "can0".toList 0x456) :=
    Machine.exists_reaches_of_run [.canTxId 0 0x123, .canRxIdFilter 0 0x456, .mode 12 2 true]
      (by decide +kernel)
  refine ⟨s, hs, start, hstart, hids, _, hloop, by decide, ?_⟩
  rw [canLoop_keepsIds_iff]
  decide

end PiksiBuildroot.PortsDaemon
