import PiksiBuildroot.Lib.Grouping
import PiksiBuildroot.Lib.Machine
import PiksiBuildroot.Libpiksi.MinIni

/-!
# The settings daemon

The list of registered settings (`setting.c`) and the SBP callbacks (`settings_sbp_cb.c`). Texts are
lists of characters, one for each byte. What the daemon uses of libsettings is given
(`Libsettings`): how it splits a message into tokens and joins tokens, and its constants.

A callback returns `none` when an assertion aborts the daemon or when it never ends.
-/

namespace PiksiBuildroot.SbpSettings

open Lib Libpiksi.MinIni List

/-- Source: `setting_t`, without the link. -/
structure Setting where
  sectionName : List Char
  name : List Char
  value : List Char
  type : List Char
  dirty : Bool
  deriving DecidableEq

/-- What a setting is looked up by. -/
def Setting.key (s : Setting) : List Char × List Char := (s.sectionName, s.name)

/-! ### Messages -/

/-- Tokens with a NUL behind each. -/
def joined (tokens : List (List Char)) : List Char := tokens.flatMap (· ++ ['\x00'])

/-- The payload of a message. Its length is a byte. -/
structure Message where
  payload : List Char
  length_le : payload.length ≤ 255

/-- The messages that the daemon sends. -/
inductive MsgType where
  | registerResp
  | readResp
  | readByIndexResp
  | readByIndexDone
  | writeResp
  deriving DecidableEq

/-- A message sent, with the sender id of the host or with the daemon's own. -/
structure Sent where
  msgType : MsgType
  fromHost : Bool
  payload : List Char
  deriving DecidableEq

/-- Source: `settings_reg_res_t` of libsettings. -/
inductive RegRes where
  | ok
  | okPerm
  | registered
  | parseFailed
  deriving DecidableEq

/-- Source: the members of `settings_write_res_t` that the daemon uses. -/
inductive WriteRes where
  | settingRejected
  | parseFailed

/-- What the daemon uses of libsettings. -/
structure Libsettings where
  /-- `settings_parse`: the tokens at the start of a message, at most four. -/
  tokens : List Char → List (List Char)
  joined_isPrefix : ∀ msg, joined (tokens msg) <+: msg
  nul_notMem : ∀ msg, ∀ t ∈ tokens msg, '\x00' ∉ t
  length_le : ∀ msg, (tokens msg).length ≤ 4
  tokens_joined : ∀ ts, ts.length ≤ 4 → (∀ t ∈ ts, '\x00' ∉ t) → tokens (joined ts) = ts
  /-- `settings_format`: the tokens joined, if they fit. -/
  format : List (List Char) → Nat → Option (List Char)
  format_eq : ∀ tokens blen, format tokens blen =
    if (joined tokens).length ≤ blen then some (joined tokens) else none
  /-- `SETTINGS_BUFLEN`, the largest payload of an SBP message. -/
  buflen : Nat
  buflen_eq : buflen = 255
  /-- The byte for a member of `settings_reg_res_t`; zero is `SETTINGS_REG_OK`. -/
  regCode : RegRes → Char
  regCode_eq_zero : ∀ res, regCode res = '\x00' ↔ res = .ok
  /-- The byte for a member of `settings_write_res_t`. -/
  writeCode : WriteRes → Char

/-! ### The list of settings -/

/-- The value that stands for "not in the file". -/
def defaultValue : List Char := "\x7b2F9D26FF-F64C-4F9F-94FE-AE9F57758835\x7d".toList

/-- Source: `setting_lookup`. -/
def settingLookup (settings : List Setting) (sectionName name : List Char) : Option Setting :=
  settings.find? fun it => it.sectionName = sectionName ∧ it.name = name

/-- Source: `setting_find_by_index`. -/
def settingFindByIndex : List Setting → Nat → Option Setting
  | [], _ => none
  | sdata :: _, 0 => some sdata
  | _ :: next, index + 1 => settingFindByIndex next index

section callbacks

variable (lib : Libsettings) (charSigned : Bool)

/-- The result, the setting as it is in the list, and the list. Source: `setting_register`. -/
def settingRegister (file : Option (List Char)) (settings : List Setting) (newSetting : Setting) :
    RegRes × Setting × List Setting :=
  let buf := iniGets charSigned newSetting.sectionName newSetting.name defaultValue lib.buflen file
  if buf ≠ defaultValue then
    let newSetting := { newSetting with value := buf, dirty := true }
    (.okPerm, newSetting, insertAfterBlock Setting.sectionName newSetting settings)
  else (.ok, newSetting, insertAfterBlock Setting.sectionName newSetting settings)

/-- The texts that a reply holds. -/
def Setting.tokens (s : Setting) (type : Bool) : List (List Char) :=
  [s.sectionName, s.name, s.value] ++ if type then [s.type] else []

/-- Source: `settings_reply`. Without a setting the assertion fails. -/
def settingsReply (sdata : Option Setting) (type sbpSenderId : Bool) (msgType : MsgType)
    (buf : Option (List Char)) (offset : Nat) : Option (List Sent) :=
  match sdata with
  | none => none
  | some sdata =>
    -- without a buffer one of zeros is used
    let buf := buf.getD (List.replicate lib.buflen '\x00')
    match lib.format (sdata.tokens type) (lib.buflen - offset) with
    | none => some []
    | some text =>
      some [{ msgType := msgType, fromHost := sbpSenderId, payload := buf.take offset ++ text }]

/-- The result, the setting to reply with and the list. Source: `settings_register_cb` up to the
label `reg_response`. -/
def registerTokens (file : Option (List Char)) (settings : List Setting) :
    List (List Char) → RegRes × Option Setting × List Setting
  | sectionName :: name :: value :: type =>
    match settingLookup settings sectionName name with
    | none =>
      let out := settingRegister lib charSigned file settings
        { sectionName := sectionName, name := name, value := value,
          type := type.head?.getD [], dirty := false }
      (out.1, some out.2.1, out.2.2)
    | some setting => (.registered, some setting, settings)
  | _ => (.parseFailed, none, settings)

/-- Source: `settings_register_cb`. The result is put into a buffer that is not passed on: the reply
is asked for with no buffer and offset 1. -/
def settingsRegisterCb (file : Option (List Char)) (settings : List Setting) (msg : Message) :
    Option (RegRes × List Setting × List Sent) :=
  let out := registerTokens lib charSigned file settings (lib.tokens msg.payload)
  (settingsReply lib out.2.1 false true .registerResp none 1).map fun sent => (out.1, out.2.2, sent)

/-- Source: the end of `settings_write_resp_cb`. -/
def writeValue (sectionName name value : List Char) : List Setting → List Setting
  | [] => []
  | sdata :: next =>
    if sdata.sectionName = sectionName ∧ sdata.name = name then
      (if sdata.value = value then sdata
        else { sdata with value := value, dirty := true }) :: next
    else sdata :: writeValue sectionName name value next

/-- Source: `settings_write_resp_cb`. -/
def settingsWriteRespCb (settings : List Setting) (msg : Message) : List Setting :=
  match msg.payload with
  | [] => settings
  | status :: setting =>
    if status ≠ '\x00' then settings
    else
      match lib.tokens setting with
      | sectionName :: name :: value :: _ => writeValue sectionName name value settings
      | _ => settings

/-- Source: `SBP_SENDER_ID`. -/
def sbpSenderId : Nat := 0x42

/-- Source: `settings_read_cb`. -/
def settingsReadCb (senderId : Nat) (settings : List Setting) (msg : Message) :
    Option (List Sent) :=
  if senderId ≠ sbpSenderId then some []
  else
    match lib.tokens msg.payload with
    | sectionName :: name :: _ =>
      match settingLookup settings sectionName name with
      | none => some []
      | some sdata => settingsReply lib (some sdata) false false .readResp none 0
    | _ => some []

/-- Source: `settings_read_by_index_cb`. -/
def settingsReadByIndexCb (senderId : Nat) (settings : List Setting) (msg : Message) :
    Option (List Sent) :=
  if senderId ≠ sbpSenderId then some []
  else
    match msg.payload with
    | [low, high] =>
      match settingFindByIndex settings (low.toNat + 256 * high.toNat) with
      | none => some [{ msgType := .readByIndexDone, fromHost := false, payload := [] }]
      | some sdata =>
        settingsReply lib (some sdata) true false .readByIndexResp
          (some ([low, high] ++ List.replicate (lib.buflen - 2) '\x00')) 2
    | _ => some []

/-- Source: `settings_write_failed`. -/
def settingsWriteFailed (res : WriteRes) (msg : Message) : List Sent :=
  [{ msgType := .writeResp, fromHost := true,
     payload := lib.writeCode res :: msg.payload.take (lib.buflen - 1) }]

/-- Source: `settings_write_cb`. -/
def settingsWriteCb (settings : List Setting) (msg : Message) : List Sent :=
  match lib.tokens msg.payload with
  | sectionName :: name :: _ :: _ =>
    match settingLookup settings sectionName name with
    | none => settingsWriteFailed lib .settingRejected msg
    | some _ => []
  | _ => settingsWriteFailed lib .parseFailed msg

/-! ### Saving -/

/-- A line that `settings_save_cb` writes. -/
inductive SaveLine where
  | header (sectionName : List Char)
  | entry (name value : List Char)
  deriving DecidableEq

/-- The text that `fprintf` writes. -/
def SaveLine.text : SaveLine → List Char
  | .header sectionName => '[' :: sectionName ++ [']', '\n']
  | .entry name value => name ++ '=' :: value ++ ['\n']

/-- The line in front of a setting, if its section is not the one of the setting written last. -/
def newSection (sec : Option (List Char)) (setting : Setting) : List SaveLine :=
  if sec = some setting.sectionName then [] else [.header setting.sectionName]

/-- Source: the loop of `settings_save_cb`, whose index is a `uint16_t`. -/
def saveLoop (settings : List Setting) : Nat → Nat → Option (List Char) → Option (List SaveLine)
  | 0, _, _ => none
  | fuel + 1, idx, sec =>
    match settingFindByIndex settings idx with
    | none => some []
    | some setting =>
      if setting.dirty = false then saveLoop settings fuel ((idx + 1) % 65536) sec
      else
        (saveLoop settings fuel ((idx + 1) % 65536) (some setting.sectionName)).map fun rest =>
          newSection sec setting ++ .entry setting.name setting.value :: rest

/-- The lines that are written. After 65536 rounds the index is 0 again, so that the loop does not
end later. -/
def saveLinesOf (settings : List Setting) : Option (List SaveLine) := saveLoop settings 65537 0 none

/-- The file after a save. Source: `settings_save_cb`. -/
def settingsSaveCb (opens : Bool) (file : Option (List Char)) (settings : List Setting) :
    Option (Option (List Char)) :=
  if opens then (saveLinesOf settings).map fun ls => some (ls.flatMap SaveLine.text)
  else some file

/-! ### The daemon -/

/-- The settings, the file, the messages sent and the results of the registrations so far. -/
structure Daemon where
  settings : List Setting
  file : Option (List Char)
  sent : List Sent
  results : List ((List Char × List Char) × RegRes)

/-- The messages that have a callback; for the saving also whether the file opens. -/
inductive Action where
  | register (msg : Message)
  | writeResp (msg : Message)
  | read (senderId : Nat) (msg : Message)
  | readByIndex (senderId : Nat) (msg : Message)
  | write (msg : Message)
  | save (opens : Bool)

/-- The key that a message names, if it has a value too. -/
def messageKey (msg : Message) : Option (List Char × List Char) := match lib.tokens msg.payload with
  | sectionName :: name :: _ :: _ => some (sectionName, name)
  | _ => none

/-- The daemon, started with a file. Source: `settings_setup`. -/
def machine (file : Option (List Char)) : Machine Daemon Action where
  init := { settings := [], file := file, sent := [], results := [] }
  step d
    | .register msg =>
      (settingsRegisterCb lib charSigned d.file d.settings msg).map fun out =>
        { d with
          settings := out.2.1
          sent := d.sent ++ out.2.2
          results := d.results ++ ((messageKey lib msg).map fun key => (key, out.1)).toList }
    | .writeResp msg => some { d with settings := settingsWriteRespCb lib d.settings msg }
    | .read senderId msg =>
      (settingsReadCb lib senderId d.settings msg).map fun sent =>
        { d with sent := d.sent ++ sent }
    | .readByIndex senderId msg =>
      (settingsReadByIndexCb lib senderId d.settings msg).map fun sent =>
        { d with sent := d.sent ++ sent }
    | .write msg => some { d with sent := d.sent ++ settingsWriteCb lib d.settings msg }
    | .save opens =>
      (settingsSaveCb opens d.file d.settings).map fun file => { d with file := file }

end callbacks

lemma settingsReply_some (lib : Libsettings) (s : Setting) (type host : Bool) (msgType : MsgType)
    (buf : Option (List Char)) (offset : Nat) :
    settingsReply lib (some s) type host msgType buf offset =
      some (if (joined (s.tokens type)).length ≤ lib.buflen - offset then
        [{ msgType := msgType, fromHost := host,
           payload := (buf.getD (List.replicate lib.buflen '\x00')).take offset ++
             joined (s.tokens type) }]
      else []) := by
  simp only [settingsReply, lib.format_eq]
  split_ifs <;> rfl

/-! ### The parser that stops at the first token without a NUL -/

/-- At most `n` tokens. -/
def splitTokens : Nat → List Char → List (List Char)
  | 0, _ => []
  | n + 1, msg =>
    if '\x00' ∈ msg then
      msg.takeWhile (· ≠ '\x00') :: splitTokens n (msg.dropWhile (· ≠ '\x00')).tail
    else []

lemma splitTokens_append {n : Nat} {t rest : List Char} (ht : '\x00' ∉ t) :
    splitTokens (n + 1) (t ++ '\x00' :: rest) = t :: splitTokens n rest := by
  have hpos : ∀ c ∈ t, decide (c ≠ '\x00') = true :=
    fun c hc => decide_eq_true (fun heq => ht (heq ▸ hc))
  rw [splitTokens, if_pos (by simp), takeWhile_append_of_pos hpos, dropWhile_append_of_pos hpos]
  simp

lemma append_nul_of_mem {msg : List Char} (h : '\x00' ∈ msg) :
    msg.takeWhile (· ≠ '\x00') ++ '\x00' :: (msg.dropWhile (· ≠ '\x00')).tail = msg := by
  have hne : msg.dropWhile (· ≠ '\x00') ≠ [] := by
    intro hnil
    have hall := dropWhile_eq_nil_iff.mp hnil _ h
    cases hall
  obtain ⟨c, rest, hrest⟩ := exists_cons_of_ne_nil hne
  have hc : c = '\x00' := by
    have hhead := head?_dropWhile_not (fun c : Char => decide (c ≠ '\x00')) msg
    rw [hrest] at hhead
    simpa using hhead
  have hsplit := takeWhile_append_dropWhile (p := fun c : Char => decide (c ≠ '\x00')) (l := msg)
  rw [hrest, hc] at hsplit
  rw [hrest]
  exact hsplit

/-- A library whose parser has the tokens that a NUL ends, at most four of them. -/
def splitLib : Libsettings where
  format tokens blen := if (joined tokens).length ≤ blen then some (joined tokens) else none
  format_eq _ _ := rfl
  buflen := 255
  buflen_eq := rfl
  regCode
    | .ok => '\x00'
    | .okPerm => '\x01'
    | .registered => '\x02'
    | .parseFailed => '\x03'
  regCode_eq_zero res := by cases res <;> decide
  writeCode
    | .settingRejected => '\x02'
    | .parseFailed => '\x03'
  tokens := splitTokens 4
  joined_isPrefix msg := by
    suffices h : ∀ n msg, joined (splitTokens n msg) <+: msg from h 4 msg
    intro n msg
    fun_induction splitTokens n msg with
    | case1 msg | case3 n msg hmem => exact nil_prefix
    | case2 n msg hmem ih =>
      have hsplit := append_nul_of_mem hmem
      conv_rhs => rw [← hsplit]
      unfold joined at ih ⊢
      rw [flatMap_cons, append_assoc]
      exact (prefix_append_right_inj _).mpr ((prefix_append_right_inj _).mpr ih)
  nul_notMem msg := by
    suffices h : ∀ n msg, ∀ t ∈ splitTokens n msg, '\x00' ∉ t from h 4 msg
    intro n msg
    fun_induction splitTokens n msg with
    | case1 msg | case3 n msg hmem => exact fun t ht => absurd ht not_mem_nil
    | case2 n msg hmem ih =>
      intro t ht
      rcases mem_cons.mp ht with rfl | ht
      · intro hnul
        exact absurd (mem_takeWhile_imp hnul) (by decide)
      · exact ih t ht
  length_le msg := by
    suffices h : ∀ n msg, (splitTokens n msg).length ≤ n from h 4 msg
    intro n msg
    fun_induction splitTokens n msg with
    | case1 msg => exact Nat.le_refl 0
    | case2 n msg hmem ih => exact Nat.succ_le_succ ih
    | case3 n msg hmem => exact Nat.zero_le _
  tokens_joined ts hlength hnul := by
    suffices h : ∀ n, ts.length ≤ n → splitTokens n (joined ts) = ts from h 4 hlength
    clear hlength
    induction ts with
    | nil =>
      intro n _
      cases n <;> rfl
    | cons t ts ih =>
      intro n hn
      obtain ⟨m, rfl⟩ :=
        Nat.exists_eq_add_of_le' (Nat.le_trans (Nat.succ_le_succ (Nat.zero_le _)) hn)
      have hrest := ih (fun t' ht' => hnul t' (mem_cons_of_mem t ht')) m
        (Nat.le_of_succ_le_succ hn)
      unfold joined at hrest ⊢
      rw [flatMap_cons, append_assoc, singleton_append,
        splitTokens_append (hnul t mem_cons_self), hrest]

end PiksiBuildroot.SbpSettings
