import PiksiBuildroot.SbpSettings.RegistryOrder

/-!
# The reply to a registration

`registrationResult` is what came of a registration, read off the message, the list and the file.
`settings_register_cb` computes it and puts it into a buffer, but asks for the reply without that
buffer, so that the first byte of the reply is always zero; for a message that cannot be parsed it
asks for a reply without a setting, which aborts the daemon (`answersTruly_iff`).
-/

namespace PiksiBuildroot.SbpSettings

open Lib Libpiksi.MinIni Option

section reply

variable (lib : Libsettings) (charSigned : Bool) (file : Option (List Char))
  (settings : List Setting)

/-- The file has a value for the setting. -/
def InFile (sectionName name : List Char) : Prop :=
  ∃ value ∈ file.bind (getkeystring charSigned sectionName name lib.buflen), value ≠ defaultValue

instance (sectionName name : List Char) : Decidable (InFile lib charSigned file sectionName name) :=
  decidable_of_iff
    ((file.bind (getkeystring charSigned sectionName name lib.buflen)).any (· ≠ defaultValue))
    (by simp [InFile, any_eq_true])

/-- What comes of a registration. -/
def registrationResult (msg : Message) : RegRes := (messageKey lib msg).elim .parseFailed fun key =>
    if (settingLookup settings key.1 key.2).isSome then .registered
    else if InFile lib charSigned file key.1 key.2 then .okPerm
    else .ok

/-- The daemon does not abort and sends one reply: the result and, if the message parsed, the
section, name and value of the setting in the list. -/
def AnswersTruly (msg : Message) : Prop :=
  ∃ res settings' reply, settingsRegisterCb lib charSigned file settings msg =
      some (res, settings', [{ msgType := .registerResp, fromHost := true, payload := reply }]) ∧
    reply.head? = some (lib.regCode (registrationResult lib charSigned file settings msg)) ∧
    ∀ key ∈ messageKey lib msg, ∃ s ∈ settings', s.key = key ∧ reply.tail = joined (s.tokens false)

end reply

variable {lib : Libsettings} {charSigned : Bool} {file : Option (List Char)}
  {settings : List Setting} {sectionName name : List Char}

lemma iniGets_eq_defaultValue_iff :
    iniGets charSigned sectionName name defaultValue lib.buflen file = defaultValue ↔
      ¬ InFile lib charSigned file sectionName name := by
  have hdefault : saveStrncpy defaultValue lib.buflen .none = defaultValue := by
    rw [lib.buflen_eq]
    decide +kernel
  unfold iniGets InFile
  rcases file.bind (getkeystring charSigned sectionName name lib.buflen) with _ | value
  · simp [hdefault]
  · simp

/-- The result and the setting of a registration, as the file decides them. -/
lemma settingRegister_eq (s : Setting) : settingRegister lib charSigned file settings s =
      if InFile lib charSigned file s.sectionName s.name then
        let new := { s with
          value := iniGets charSigned s.sectionName s.name defaultValue lib.buflen file
          dirty := true }
        (.okPerm, new, insertAfterBlock Setting.sectionName new settings)
      else (.ok, s, insertAfterBlock Setting.sectionName s settings) := by
  have hiff := @iniGets_eq_defaultValue_iff lib charSigned file s.sectionName s.name
  by_cases hfile : InFile lib charSigned file s.sectionName s.name
  · rw [if_pos hfile]
    exact if_pos (fun heq => hiff.mp heq hfile)
  · rw [if_neg hfile]
    exact if_neg (fun hne => hne (hiff.mpr hfile))

lemma mem_insertAfterBlock_self (s : Setting) (settings : List Setting) :
    s ∈ insertAfterBlock Setting.sectionName s settings :=
  (insertAfterBlock_perm s settings).mem_iff.mpr List.mem_cons_self

/-- The reply that the callback sends for a setting: there is a zero in front of the texts. -/
def zeroReply (lib : Libsettings) (s : Setting) : List Sent :=
  if 1 + (joined (s.tokens false)).length ≤ lib.buflen then
    [{ msgType := .registerResp, fromHost := true, payload := '\x00' :: joined (s.tokens false) }]
  else []

/-- The callback registers the tokens and sends the reply. -/
lemma settingsRegisterCb_eq (msg : Message) : settingsRegisterCb lib charSigned file settings msg =
      let out := registerTokens lib charSigned file settings (lib.tokens msg.payload)
      out.2.1.map fun s => (out.1, out.2.2, zeroReply lib s) := by
  unfold settingsRegisterCb
  generalize registerTokens lib charSigned file settings (lib.tokens msg.payload) = out
  rcases out with ⟨res, _ | s, settings'⟩
  · rfl
  · have hfits : (joined (s.tokens false)).length ≤ lib.buflen - 1 ↔
        1 + (joined (s.tokens false)).length ≤ lib.buflen := by
      have hbuflen := lib.buflen_eq
      omega
    have hzero : (List.replicate lib.buflen '\x00').take 1 = ['\x00'] := by
      rw [lib.buflen_eq]
      rfl
    simp only [settingsReply_some, hfits, map_some, getD_none, hzero]
    rfl

variable {value : List Char} {type : List (List Char)}

/-- A new setting that is not in the file is put into the list as the message gives it. -/
lemma registerTokens_new (hnew : (sectionName, name) ∉ settings.map Setting.key)
    (hfile : ¬ InFile lib charSigned file sectionName name) :
    ∃ s : Setting, s.key = (sectionName, name) ∧ s.value = value ∧
      registerTokens lib charSigned file settings (sectionName :: name :: value :: type) =
        (.ok, some s, insertAfterBlock Setting.sectionName s settings) := by
  have hlookup : settingLookup settings sectionName name = none := by
    rw [mem_keys_iff] at hnew
    exact not_isSome_iff_eq_none.mp hnew
  refine ⟨{ sectionName := sectionName, name := name, value := value,
            type := type.head?.getD [], dirty := false }, rfl, rfl, ?_⟩
  simp only [registerTokens, hlookup, settingRegister_eq, if_neg hfile]

variable {msg : Message}

lemma tokens_of_messageKey {key : List Char × List Char} (h : messageKey lib msg = some key) :
    ∃ value type, lib.tokens msg.payload = key.1 :: key.2 :: value :: type := by
  unfold messageKey at h
  split at h
  · rename_i sectionName name value type htokens
    cases h
    exact ⟨value, type, htokens⟩
  · exact absurd h nofun

lemma messageKey_of_tokens (h : lib.tokens msg.payload = sectionName :: name :: value :: type) :
    messageKey lib msg = some (sectionName, name) := by
  unfold messageKey
  rw [h]

/-- A registration came out well exactly if its message parses and the setting is neither in the
list nor in the file. -/
lemma registrationResult_eq_ok_iff : registrationResult lib charSigned file settings msg = .ok ↔
      ∃ key, messageKey lib msg = some key ∧ key ∉ settings.map Setting.key ∧
        ¬ InFile lib charSigned file key.1 key.2 := by
  unfold registrationResult
  rcases messageKey lib msg with _ | key
  · exact ⟨nofun, nofun⟩
  · have hkey : ∀ p : List Char × List Char → Prop, (∃ k, some key = some k ∧ p k) ↔ p key := by
      simp
    rw [hkey fun k => k ∉ settings.map Setting.key ∧ ¬ InFile lib charSigned file k.1 k.2,
      elim_some, mem_keys_iff]
    split_ifs with hold hfile
    · exact ⟨nofun, fun h => absurd hold h.1⟩
    · exact ⟨nofun, fun h => absurd hfile h.2⟩
    · exact ⟨fun _ => ⟨hold, hfile⟩, fun _ => rfl⟩

lemma tokens_false_eq {s : Setting} (hkey : s.key = (sectionName, name)) :
    s.tokens false = [sectionName, name, s.value] := by
  cases hkey
  rfl

/-- A registration is answered with its result exactly if the message has a section, a name and a
value, the setting is not in the list and has no value in the file, and the reply fits the buffer.
-/
theorem answersTruly_iff (lib : Libsettings) (charSigned : Bool) (file : Option (List Char))
    (settings : List Setting) (msg : Message) :
    AnswersTruly lib charSigned file settings msg ↔ ∃ sectionName name value type,
        lib.tokens msg.payload = sectionName :: name :: value :: type ∧
        (sectionName, name) ∉ settings.map Setting.key ∧
        ¬ InFile lib charSigned file sectionName name ∧
        1 + (joined [sectionName, name, value]).length ≤ lib.buflen := by
  unfold AnswersTruly
  rw [settingsRegisterCb_eq]
  constructor
  · rintro ⟨res, settings', reply, hcb, hhead, -⟩
    obtain ⟨s, hs, hout⟩ := map_eq_some_iff.mp hcb
    have hreply := congrArg (fun out => out.2.2) hout
    simp only [zeroReply] at hreply
    split at hreply
    · rename_i hfits
      -- the first byte is zero, so the result is the one that zero stands for
      have hpayload : '\x00' :: joined (s.tokens false) = reply :=
        congrArg Sent.payload (List.cons.inj hreply).1
      rw [← hpayload] at hhead
      have hok := registrationResult_eq_ok_iff.mp
        ((lib.regCode_eq_zero _).mp (some.inj hhead).symm)
      obtain ⟨⟨sectionName, name⟩, hkey, hnew, hfile⟩ := hok
      obtain ⟨value, type, htokens⟩ := tokens_of_messageKey hkey
      obtain ⟨s', hkey', rfl, hregister⟩ :=
        @registerTokens_new lib charSigned file settings sectionName name value type hnew hfile
      rw [htokens, hregister] at hs
      obtain rfl := some.inj hs
      rw [tokens_false_eq hkey'] at hfits
      exact ⟨sectionName, name, s'.value, type, htokens, hnew, hfile, hfits⟩
    · exact absurd hreply nofun
  · rintro ⟨sectionName, name, value, type, htokens, hnew, hfile, hfits⟩
    obtain ⟨s, hkey, rfl, hregister⟩ :=
      @registerTokens_new lib charSigned file settings sectionName name value type hnew hfile
    have hmessage := messageKey_of_tokens htokens
    have hok := registrationResult_eq_ok_iff.mpr ⟨_, hmessage, hnew, hfile⟩
    rw [← tokens_false_eq hkey] at hfits
    refine ⟨.ok, insertAfterBlock Setting.sectionName s settings,
      '\x00' :: joined (s.tokens false), ?_, ?_, ?_⟩
    · rw [htokens, hregister]
      simp only [map_some, zeroReply, if_pos hfits]
    · rw [hok, (lib.regCode_eq_zero .ok).mpr rfl]
      rfl
    · intro key hmem
      obtain rfl := some.inj (hmessage.symm.trans hmem)
      exact ⟨s, mem_insertAfterBlock_self s settings, hkey, rfl⟩

/-- The setting `a.b` with the value `1`. -/
def registeredSetting : Setting :=
  { sectionName := ['a'], name := ['b'], value := ['1'], type := [], dirty := false }

/-- An empty message aborts the daemon, and the registration of a setting that is in the list is
answered with the byte for a new one. -/
theorem register_failures : settingsRegisterCb splitLib false none [] ⟨[], by decide⟩ = none ∧
      settingsRegisterCb splitLib false none [registeredSetting]
          (registerMessage "a" "b" "1" (by decide)) =
        some (.registered, [registeredSetting],
          [{ msgType := .registerResp, fromHost := true,
             payload := '\x00' :: joined [['a'], ['b'], ['1']] }]) ∧
      splitLib.regCode .registered = '\x02' := by
  decide +kernel

end PiksiBuildroot.SbpSettings
