import PiksiBuildroot.Libpiksi.MinIniText
import PiksiBuildroot.SbpSettings.RegisterReply

/-!
# Lives of the settings daemon

A life starts with a file, registers some settings that differ in more than case and gets write
responses. No registration aborts it, and what is registered is decided by the file alone
(`registerAll_spec`, `restart_run`). What holds at its end is `life_run`.
-/

namespace PiksiBuildroot.SbpSettings

open Lib CText Libpiksi.MinIni List Option

/-- A setting with its default, as its owner registers it. -/
structure Registration where
  sectionName : List Char
  name : List Char
  value : List Char
  type : Option (List Char)
  sectionName_word : IsWord sectionName
  name_word : IsWord name
  value_nul : '\x00' ∉ value
  type_nul : ∀ t ∈ type, '\x00' ∉ t
  fits : (joined ([sectionName, name, value] ++ type.toList)).length ≤ 255

/-- A response to a write that the owner accepted. -/
structure WriteResponse where
  sectionName : List Char
  name : List Char
  value : List Char
  type : Option (List Char)
  sectionName_nul : '\x00' ∉ sectionName
  name_nul : '\x00' ∉ name
  value_nul : '\x00' ∉ value
  value_newline : '\n' ∉ value
  type_nul : ∀ t ∈ type, '\x00' ∉ t
  fits : ('\x00' :: joined ([sectionName, name, value] ++ type.toList)).length ≤ 255

namespace Registration

def key (r : Registration) : List Char × List Char := (r.sectionName, r.name)

def message (r : Registration) : Message := ⟨_, r.fits⟩

/-- The setting with its default. -/
def fresh (r : Registration) : Setting :=
  { sectionName := r.sectionName, name := r.name, value := r.value, type := r.type.getD [],
    dirty := false }

/-- The two differ in more than case. -/
def Distinct (r r' : Registration) : Prop :=
  ¬ (sameWord r.sectionName r'.sectionName ∧ sameWord r.name r'.name)

/-- The setting that a file makes of a registration. -/
def setting (lib : Libsettings) (charSigned : Bool) (file : Option (List Char))
    (r : Registration) : Setting :=
  if InFile lib charSigned file r.sectionName r.name then
    { r.fresh with
      value := iniGets charSigned r.sectionName r.name defaultValue lib.buflen file
      dirty := true }
  else r.fresh

/-- The result that a file makes of a registration. -/
def result (lib : Libsettings) (charSigned : Bool) (file : Option (List Char))
    (r : Registration) : RegRes :=
  if InFile lib charSigned file r.sectionName r.name then .okPerm else .ok

end Registration

def WriteResponse.message (w : WriteResponse) : Message := ⟨_, w.fits⟩

/-- The registrations of a life. -/
def registerActions (regs : List Registration) : List Action :=
  regs.map fun r => .register r.message

/-- The write responses of a life. -/
def writeActions (writes : List WriteResponse) : List Action :=
  writes.map fun w => .writeResp w.message

/-! ### Registration -/

section register

variable {lib : Libsettings} {charSigned : Bool} {file : Option (List Char)}
  {sectionName name value : List Char}

/-- The texts of a message without a null character come back. -/
lemma tokens_message {type : Option (List Char)} (hsection : '\x00' ∉ sectionName)
    (hname : '\x00' ∉ name) (hvalue : '\x00' ∉ value) (htype : ∀ t ∈ type, '\x00' ∉ t) :
    lib.tokens (joined ([sectionName, name, value] ++ type.toList)) =
      sectionName :: name :: value :: type.toList := by
  refine lib.tokens_joined ([sectionName, name, value] ++ type.toList) ?_ ?_
  · rcases type with _ | t <;> simp
  · intro t ht
    simp only [mem_append, mem_cons, not_mem_nil, or_false, mem_toList] at ht
    rcases ht with (rfl | rfl | rfl) | ht
    · exact hsection
    · exact hname
    · exact hvalue
    · exact htype t ht

lemma tokens_registration (r : Registration) :
    lib.tokens r.message.payload = r.sectionName :: r.name :: r.value :: r.type.toList :=
  tokens_message (r.sectionName_word.notMem (by decide)) (r.name_word.notMem (by decide))
    r.value_nul r.type_nul

lemma messageKey_registration (r : Registration) : messageKey lib r.message = some r.key :=
  messageKey_of_tokens (tokens_registration r)

lemma Registration.key_setting (r : Registration) :
    (r.setting lib charSigned file).key = r.key := by
  unfold setting
  split <;> rfl

/-- A setting that is not in the list is registered as the file says. -/
lemma register_step {d : Daemon} {r : Registration} (file₀ : Option (List Char))
    (hnew : r.key ∉ d.settings.map Setting.key) :
    ∃ d', (machine lib charSigned file₀).step d (.register r.message) = some d' ∧
      d'.settings = insertAfterBlock Setting.sectionName
        (r.setting lib charSigned d.file) d.settings ∧
      d'.file = d.file ∧
      d'.results = d.results ++ [(r.key, r.result lib charSigned d.file)] := by
  have hlookup : settingLookup d.settings r.sectionName r.name = none :=
    not_isSome_iff_eq_none.mp (fun hsome => hnew (mem_keys_iff.mpr hsome))
  have htype : r.type.toList.head?.getD [] = r.type.getD [] := by
    rcases r.type with _ | t <;> rfl
  have hout : registerTokens lib charSigned d.file d.settings (lib.tokens r.message.payload) =
      (r.result lib charSigned d.file, some (r.setting lib charSigned d.file),
        insertAfterBlock Setting.sectionName (r.setting lib charSigned d.file) d.settings) := by
    rw [tokens_registration]
    simp only [registerTokens, hlookup, htype, settingRegister_eq, Registration.result,
      Registration.setting]
    split <;> rfl
  have hcb := @settingsRegisterCb_eq lib charSigned d.file d.settings r.message
  simp only [hout, map_some] at hcb
  have hstep : (machine lib charSigned file₀).step d (.register r.message) = some
      { d with
        settings := insertAfterBlock Setting.sectionName
          (r.setting lib charSigned d.file) d.settings
        sent := d.sent ++ zeroReply lib (r.setting lib charSigned d.file)
        results := d.results ++ [(r.key, r.result lib charSigned d.file)] } := by
    simp only [machine, hcb, map_some, messageKey_registration]
    rfl
  exact ⟨_, hstep, rfl, rfl, rfl⟩

variable {regs : List Registration}

/-- Registrations of different settings are decided by the file. -/
theorem registerAll_spec (file₀ : Option (List Char)) {d : Daemon}
    (hnodup : (regs.map Registration.key).Nodup)
    (hnew : ∀ r ∈ regs, r.key ∉ d.settings.map Setting.key) :
    ∃ d', (registerActions regs).foldlM (machine lib charSigned file₀).step d = some d' ∧
      (∀ s, s ∈ d'.settings ↔ s ∈ d.settings ∨ ∃ r ∈ regs, s = r.setting lib charSigned d.file) ∧
      d'.results = d.results ++ regs.map fun r => (r.key, r.result lib charSigned d.file) := by
  induction regs generalizing d with
  | nil => exact ⟨d, rfl, by simp, by simp⟩
  | cons r regs ih =>
    obtain ⟨hr, hnodup⟩ := nodup_cons.mp hnodup
    obtain ⟨d₁, hstep, hsettings, hfile, hresults⟩ :=
      @register_step lib charSigned d r file₀ (hnew r mem_cons_self)
    have hmem : ∀ s, s ∈ d₁.settings ↔ s = r.setting lib charSigned d.file ∨ s ∈ d.settings := by
      intro s
      rw [hsettings, (insertAfterBlock_perm _ _).mem_iff, mem_cons]
    have hnew₁ : ∀ r' ∈ regs, r'.key ∉ d₁.settings.map Setting.key := by
      intro r' hr' hkey
      obtain ⟨s, hs, hs'⟩ := List.mem_map.mp hkey
      rcases (hmem s).mp hs with rfl | hs
      · rw [Registration.key_setting] at hs'
        exact hr (hs' ▸ List.mem_map_of_mem hr')
      · exact hnew r' (mem_cons_of_mem r hr') (hs' ▸ List.mem_map_of_mem hs)
    obtain ⟨d₂, hrun, hall, hresults₂⟩ := ih hnodup hnew₁
    rw [hfile] at hall hresults₂
    refine ⟨d₂, ?_, ?_, ?_⟩
    · unfold registerActions at hrun ⊢
      rw [map_cons, foldlM_cons, hstep]
      exact hrun
    · intro s
      rw [hall, hmem]
      simp only [mem_cons, exists_eq_or_imp]
      tauto
    · rw [hresults₂, hresults, append_assoc]
      rfl

lemma nodup_keys (h : regs.Pairwise Registration.Distinct) : (regs.map Registration.key).Nodup := by
  apply List.Pairwise.map _ _ h
  intro r r' hdistinct heq
  obtain ⟨hsection, hname⟩ := Prod.mk.inj heq
  apply hdistinct
  rw [hsection, hname]
  exact ⟨beq_self_eq_true _, beq_self_eq_true _⟩

/-! ### The first life -/

/-- A value that can be written on a line. -/
def LineValue (v : List Char) : Prop := '\n' ∉ v ∧ '\x00' ∉ v ∧ v.length < 255

/-- What is known of the settings before the save. -/
structure Life (regs : List Registration) (settings : List Setting) : Prop where
  keys : ∀ k, k ∈ settings.map Setting.key ↔ k ∈ regs.map Registration.key
  nodup : (settings.map Setting.key).Nodup
  blocks : ∃ ks, InBlocks Setting.sectionName ks settings
  values : ∀ s ∈ settings, s.dirty → LineValue s.value

lemma lineValue_setting {r : Registration} (h : (r.setting lib charSigned file).dirty) :
    LineValue (r.setting lib charSigned file).value := by
  unfold Registration.setting at h ⊢
  split at h
  · rename_i hfile
    rw [if_pos hfile]
    obtain ⟨value, hvalue, -⟩ := hfile
    have hgets : iniGets charSigned r.sectionName r.name defaultValue lib.buflen file = value := by
      unfold iniGets
      rw [hvalue]
    obtain ⟨text, -, htext⟩ := bind_eq_some_iff.mp hvalue
    rw [lib.buflen_eq] at htext
    rw [hgets]
    exact text_of_getkeystring (by decide) htext
  · cases h

lemma settingsWriteRespCb_response (w : WriteResponse) (settings : List Setting) :
    settingsWriteRespCb lib settings w.message =
      writeValue w.sectionName w.name w.value settings := by
  have htokens := @tokens_message lib _ _ _ _ w.sectionName_nul w.name_nul w.value_nul w.type_nul
  simp only [settingsWriteRespCb, WriteResponse.message, ne_eq, not_true_eq_false, if_false,
    htokens]

lemma mem_writeValue {settings : List Setting} {s : Setting}
    (h : s ∈ writeValue sectionName name value settings) : s ∈ settings ∨ s.value = value := by
  induction settings with
  | nil => exact absurd h not_mem_nil
  | cons t settings ih =>
    unfold writeValue at h
    split at h
    · rcases mem_cons.mp h with rfl | h
      · split
        · exact Or.inl mem_cons_self
        · exact Or.inr rfl
      · exact Or.inl (mem_cons_of_mem t h)
    · rcases mem_cons.mp h with rfl | h
      · exact Or.inl mem_cons_self
      · exact (ih h).imp_left (mem_cons_of_mem t)

lemma WriteResponse.length_value_lt (w : WriteResponse) : w.value.length < 255 := by
  have hfits := w.fits
  simp only [joined, flatMap_append, flatMap_cons, length_cons, length_append] at hfits
  omega

/-- Write responses keep what is written on a line. -/
lemma writeAll_spec (file₀ : Option (List Char)) {writes : List WriteResponse} {d : Daemon}
    (h : ∀ s ∈ d.settings, s.dirty → LineValue s.value) :
    ∃ d', (writeActions writes).foldlM (machine lib charSigned file₀).step d = some d' ∧
      ∀ s ∈ d'.settings, s.dirty → LineValue s.value := by
  induction writes generalizing d with
  | nil => exact ⟨d, rfl, h⟩
  | cons w writes ih =>
    have hstep : (machine lib charSigned file₀).step d (.writeResp w.message) = some
        { d with settings := writeValue w.sectionName w.name w.value d.settings } := by
      simp only [machine, settingsWriteRespCb_response]
    have hnext : ∀ s ∈ writeValue w.sectionName w.name w.value d.settings, s.dirty →
        LineValue s.value := by
      intro s hs hdirty
      rcases mem_writeValue hs with hs | hvalue
      · exact h s hs hdirty
      · exact hvalue ▸ ⟨w.value_newline, w.value_nul, w.length_value_lt⟩
    obtain ⟨d', hrun, hvalues⟩ := @ih { d with
      settings := writeValue w.sectionName w.name w.value d.settings } hnext
    refine ⟨d', ?_, hvalues⟩
    unfold writeActions at hrun ⊢
    rw [map_cons, foldlM_cons, hstep]
    exact hrun

/-- Only registrations give keys. -/
lemma registeredKeys_life (regs : List Registration) (writes : List WriteResponse) :
    registeredKeys lib (registerActions regs ++ writeActions writes) =
      regs.map Registration.key := by
  have hregs : registeredKeys lib (registerActions regs) = regs.map Registration.key := by
    unfold registeredKeys registerActions
    rw [filterMap_map]
    exact (filterMap_congr (fun r _ => messageKey_registration r)).trans (by simp)
  have hwrites : registeredKeys lib (writeActions writes) = [] := by
    unfold registeredKeys writeActions
    rw [filterMap_map]
    exact filterMap_eq_nil_iff.mpr (fun _ _ => rfl)
  unfold registeredKeys at hregs hwrites ⊢
  rw [filterMap_append, hregs, hwrites, append_nil]

/-- A life runs without an abort. -/
theorem life_run (file₀ : Option (List Char)) (hdistinct : regs.Pairwise Registration.Distinct)
    (writes : List WriteResponse) :
    ∃ d, (machine lib charSigned file₀).run (registerActions regs ++ writeActions writes) = some d ∧
      Life regs d.settings := by
  obtain ⟨d₁, hrun₁, hsettings, -⟩ := @registerAll_spec lib charSigned regs file₀
    (machine lib charSigned file₀).init (nodup_keys hdistinct) (fun r _ => not_mem_nil)
  have hvalues : ∀ s ∈ d₁.settings, s.dirty → LineValue s.value := by
    intro s hs hdirty
    rcases (hsettings s).mp hs with hs | ⟨r, -, rfl⟩
    · exact absurd hs not_mem_nil
    · exact lineValue_setting hdirty
  obtain ⟨d, hrun₂, hvalues₂⟩ := @writeAll_spec lib charSigned file₀ writes d₁ hvalues
  have hrun : (machine lib charSigned file₀).run (registerActions regs ++ writeActions writes) =
      some d := by
    unfold Machine.run
    rw [foldlM_append, hrun₁]
    exact hrun₂
  have hkeys := keys_run hrun
  rw [registeredKeys_life] at hkeys
  refine ⟨d, hrun, ?_, nodup_keys_run hrun, inBlocks_run hrun, hvalues₂⟩
  intro k
  rw [hkeys, (grouped_perm _ _).mem_iff, mem_firsts]

/-! ### A restart -/

/-- A restart with a file registers the settings as the file says. -/
theorem restart_run {regs regs' : List Registration} (file : Option (List Char))
    (hdistinct : regs.Pairwise Registration.Distinct) (hperm : regs'.Perm regs) :
    ∃ d, (machine lib charSigned file).run (registerActions regs') = some d ∧
      (∀ s, s ∈ d.settings ↔ ∃ r ∈ regs, s = r.setting lib charSigned file) ∧
      (∀ p, p ∈ d.results ↔ ∃ r ∈ regs, p = (r.key, r.result lib charSigned file)) := by
  have hnodup : (regs'.map Registration.key).Nodup :=
    (hperm.map Registration.key).nodup_iff.mpr (nodup_keys hdistinct)
  obtain ⟨d, hrun, hsettings, hresults⟩ := @registerAll_spec lib charSigned regs' file
    (machine lib charSigned file).init hnodup (fun r _ => not_mem_nil)
  refine ⟨d, hrun, ?_, ?_⟩
  · intro s
    rw [hsettings]
    simp only [machine, not_mem_nil, false_or, hperm.mem_iff]
  · intro p
    rw [hresults]
    simp only [machine, nil_append, List.mem_map, hperm.mem_iff, eq_comm]

end register

end PiksiBuildroot.SbpSettings
