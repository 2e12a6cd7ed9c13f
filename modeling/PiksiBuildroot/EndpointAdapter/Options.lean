import PiksiBuildroot.Lib.CText
import PiksiBuildroot.Lib.Getopt

/-!
# The options of the endpoint adapter

`parse_options` goes through the command line once and then checks that a name, an IO mode and an
endpoint are given and that each filter has its configuration. Kept are the settings that these
checks and the CAN loop read; the identifiers of the CAN options pass through (`parseOptions_can`).
-/

namespace PiksiBuildroot.EndpointAdapter

open Lib CText Getopt

/-- Source: `io_mode_t`. -/
inductive IoMode
  | invalid
  | stdio
  | file
  | tcpListen
  | tcpConnect
  | udpListen
  | udpConnect
  | can
  deriving DecidableEq, Repr

/-- The values of the options. Source: the enumeration of `parse_options`, `'p'` and `'s'`. -/
inductive OptId
  | stdio
  | name
  | file
  | tcpListen
  | tcpConnect
  | udpListen
  | udpConnect
  | startupDelay
  | debug
  | filterIn
  | filterOut
  | filterInConfig
  | filterOutConfig
  | nonblock
  | outq
  | can
  | canFilter
  | retryPubsub
  | framerIn
  | framerOut
  | bypassPub
  | bypassSub
  | pub
  | sub
  deriving DecidableEq, Repr

/-- A long option. -/
def longOption (name : String) (hasArg : Bool) (val : OptId) : Entry (List Char) OptId :=
  ⟨name.toList, hasArg, val⟩

/-- Source: `long_opts` and the short options `p:s:`. -/
def optionTable : Table OptId where
  short := [⟨'p', true, .pub⟩, ⟨'s', true, .sub⟩]
  long := [longOption "pub" true .pub, longOption "sub" true .sub,
     longOption "framer-in" true .framerIn,
     longOption "framer-out" true .framerOut,
     longOption "stdio" false .stdio,
     longOption "name" true .name,
     longOption "file" true .file,
     longOption "tcp-l" true .tcpListen,
     longOption "tcp-c" true .tcpConnect,
     longOption "udp-l" true .udpListen,
     longOption "udp-c" true .udpConnect,
     longOption "startup-delay" true .startupDelay,
     longOption "filter-in" true .filterIn,
     longOption "filter-out" true .filterOut,
     longOption "filter-in-config" true .filterInConfig,
     longOption "filter-out-config" true .filterOutConfig,
     longOption "debug" false .debug,
     longOption "nonblock" false .nonblock,
     longOption "outq" true .outq,
     longOption "can" true .can,
     longOption "can-f" true .canFilter,
     longOption "retry" false .retryPubsub,
     longOption "pub2" true .bypassPub,
     longOption "sub2" true .bypassSub]

/-- Source: `FRAMER_NONE_NAME`, `FILTER_NONE_NAME`. -/
def noneName : List Char := "none".toList

/-- The framers that `protocols_import` registers: `none`, and those of the protocol libraries that
have one. -/
def framerInterfaces : List (List Char) := [noneName, "SBP".toList, "RTCM3".toList]

/-- The filters that `protocols_import` registers. -/
def filterInterfaces : List (List Char) := [noneName, "SBP".toList]

/-- Source: `framer_interface_valid`. -/
def framerInterfaceValid (name : List Char) : Bool := framerInterfaces.any (sameWord name)

/-- Source: `filter_interface_valid`. -/
def filterInterfaceValid (name : List Char) : Bool := filterInterfaces.any (sameWord name)

/-- Source: the static variables that `parse_options` sets, as far as they are read here. -/
structure Options where
  ioMode : IoMode
  endpointPubsub : Bool
  filterInName : List Char
  filterOutName : List Char
  filterInConfig : Option (List Char)
  filterOutConfig : Option (List Char)
  portName : Option (List Char)
  canId : Int
  canFilter : Int
  deriving DecidableEq, Repr

/-- Source: the initial values of the static variables. -/
def defaultOptions : Options where
  ioMode := .invalid
  endpointPubsub := false
  filterInName := noneName
  filterOutName := noneName
  filterInConfig := none
  filterOutConfig := none
  portName := none
  canId := -1
  canFilter := -1

section parse

variable (longBits : Nat)

/-- Source: the cases of the `switch` in `parse_options`. -/
def applyOption (o : Options) (id : OptId) (arg : List Char) : Option Options := match id with
  | .can => some { o with ioMode := .can, canId := atoi longBits arg }
  | .canFilter => some { o with canFilter := atoi longBits arg }
  | .stdio => some { o with ioMode := .stdio }
  | .name => some { o with portName := some arg }
  | .file => some { o with ioMode := .file }
  | .tcpListen => some { o with ioMode := .tcpListen }
  | .tcpConnect => some { o with ioMode := .tcpConnect }
  | .udpListen => some { o with ioMode := .udpListen }
  | .udpConnect => some { o with ioMode := .udpConnect }
  | .filterIn => if filterInterfaceValid arg then some { o with filterInName := arg } else none
  | .filterOut => if filterInterfaceValid arg then some { o with filterOutName := arg } else none
  | .filterInConfig => some { o with filterInConfig := some arg }
  | .filterOutConfig => some { o with filterOutConfig := some arg }
  | .pub | .sub => some { o with endpointPubsub := true }
  | .framerIn | .framerOut => if framerInterfaceValid arg then some o else none
  -- what these set is not read here
  | .startupDelay | .debug | .nonblock | .outq | .bypassPub | .bypassSub | .retryPubsub => some o

/-- One turn of the loop of `parse_options`. -/
def applyItem (o : Options) : Item OptId → Option Options
  | .option id arg => applyOption longBits o id (arg.getD [])
  | .invalid => none

/-- Source: the checks after the loop of `parse_options`. -/
def Options.complete (o : Options) : Bool :=
  o.portName.isSome && o.ioMode != .invalid && o.endpointPubsub &&
    sameWord o.filterInName noneName == o.filterInConfig.isNone &&
    sameWord o.filterOutName noneName == o.filterOutConfig.isNone

/-- Source: `parse_options`, without the name of the program. -/
def parseOptions (args : List (List Char)) : Option Options := do
  let o ← (getoptLong optionTable args).foldlM (applyItem longBits) defaultOptions
  if o.complete then some o else none

end parse

/-! ### The identifiers pass through -/

/-- The same options with other identifiers. -/
def Options.withIds (o : Options) (canId canFilter : Int) : Options :=
  { o with canId := canId, canFilter := canFilter }

/-- An option that is not one for CAN. -/
def notCan : Item OptId → Bool
  | .option .can _ | .option .canFilter _ => false
  | _ => true

/-- Other options are applied as for any identifiers and any width of `long`. -/
lemma applyItem_withIds (longBits : Nat) (o : Options) (canId canFilter : Int) {item : Item OptId}
    (h : notCan item = true) :
    applyItem longBits (o.withIds canId canFilter) item =
      (applyItem 0 o item).map fun o => o.withIds canId canFilter := by
  cases item with
  | invalid => rfl
  | option id arg =>
    cases id with
    | can | canFilter => simp [notCan] at h
    | filterIn | filterOut | framerIn | framerOut =>
      simp only [applyItem, applyOption]
      split_ifs <;> rfl
    | _ => rfl

lemma foldlM_withIds (longBits : Nat) (canId canFilter : Int) {items : List (Item OptId)}
    (h : items.all notCan = true) (o : Options) :
    items.foldlM (applyItem longBits) (o.withIds canId canFilter) =
      (items.foldlM (applyItem 0) o).map fun o => o.withIds canId canFilter := by
  induction items generalizing o with
  | nil => rfl
  | cons item items ih =>
    simp only [List.all_cons, Bool.and_eq_true] at h
    simp only [List.foldlM_cons, Option.bind_eq_bind]
    rw [applyItem_withIds longBits o canId canFilter h.1]
    cases applyItem 0 o item with
    | none => rfl
    | some o' => exact ih h.2 o'

/-- Parsing a command line with the CAN options first: the identifiers are the numbers of their
words, and the rest is parsed as without them. -/
theorem parseOptions_can {longBits : Nat} (name id filter : List Char) {rest : List (List Char)}
    (hrest : (getoptLong optionTable rest).all notCan = true) {o : Options}
    (hparse : (getoptLong optionTable rest).foldlM (applyItem 0)
      { defaultOptions with ioMode := .can, portName := some name } = some o)
    (hcomplete : o.complete = true) :
    parseOptions longBits ("--name".toList :: name :: "--can".toList :: id ::
        "--can-f".toList :: filter :: rest) =
      some (o.withIds (atoi longBits id) (atoi longBits filter)) := by
  have hname : word optionTable "--name".toList = ([], some .name) := by decide +kernel
  have hcan : word optionTable "--can".toList = ([], some .can) := by decide +kernel
  have hfilter : word optionTable "--can-f".toList = ([], some .canFilter) := by decide +kernel
  have hfold := foldlM_withIds longBits (atoi longBits id) (atoi longBits filter)
    hrest { defaultOptions with ioMode := .can, portName := some name }
  rw [hparse] at hfold
  unfold parseOptions
  rw [getoptLong_argument (by decide) hname, getoptLong_argument (by decide) hcan,
    getoptLong_argument (by decide) hfilter]
  change ((getoptLong optionTable rest).foldlM (applyItem longBits)
    (Options.withIds { defaultOptions with ioMode := .can, portName := some name }
      (atoi longBits id) (atoi longBits filter))).bind _ = _
  rw [hfold, Option.map_some, Option.bind_some]
  exact if_pos hcomplete

end PiksiBuildroot.EndpointAdapter
