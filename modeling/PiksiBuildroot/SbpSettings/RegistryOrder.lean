import PiksiBuildroot.SbpSettings.Registry

/-!
# The order of the settings

Registration puts a setting behind the block of its section, so in every run of the daemon the list
is the registered keys, each once, grouped by section (`keys_run`, `registry_of_run`). A setting
that is so long that the reply does not fit an SBP message is not returned
(`readByIndex_longSetting`).
-/

namespace PiksiBuildroot.SbpSettings

open Lib Libpiksi.MinIni List Option

variable {lib : Libsettings} {charSigned : Bool}

/-! ### Keys -/

/-- Register a key that is not there. -/
def insertNew (keys : List (List Char × List Char)) (key : List Char × List Char) :
    List (List Char × List Char) :=
  if key ∈ keys then keys else insertAfterBlock Prod.fst key keys

lemma keys_settingRegister (file : Option (List Char)) (settings : List Setting) (s : Setting) :
    (settingRegister lib charSigned file settings s).2.2.map Setting.key =
      insertAfterBlock Prod.fst s.key (settings.map Setting.key) := by
  unfold settingRegister
  simp only
  split
  · exact @map_insertAfterBlock _ _ _ _ Prod.fst Setting.key
      { s with value := _, dirty := true } settings
  · exact @map_insertAfterBlock _ _ _ _ Prod.fst Setting.key s settings

variable {settings : List Setting} {file : Option (List Char)}

lemma mem_keys_iff {sectionName name : List Char} : (sectionName, name) ∈ settings.map Setting.key ↔
      (settingLookup settings sectionName name).isSome := by
  unfold settingLookup
  rw [List.mem_map, find?_isSome]
  constructor
  · rintro ⟨s, hs, hkey⟩
    obtain ⟨hsection, hname⟩ := Prod.mk.inj hkey
    exact ⟨s, hs, decide_eq_true ⟨hsection, hname⟩⟩
  · rintro ⟨s, hs, hkey⟩
    obtain ⟨hsection, hname⟩ := of_decide_eq_true hkey
    exact ⟨s, hs, Prod.ext hsection hname⟩

/-- A registration that does not abort names a key, and registers it. -/
lemma keys_settingsRegisterCb {msg : Message} {out : RegRes × List Setting × List Sent}
    (h : settingsRegisterCb lib charSigned file settings msg = some out) :
    ∃ key, messageKey lib msg = some key ∧
      out.2.1.map Setting.key = insertNew (settings.map Setting.key) key := by
  unfold messageKey
  obtain ⟨sent, hreply, rfl⟩ := map_eq_some_iff.mp h
  generalize lib.tokens msg.payload = tokens at hreply ⊢
  unfold registerTokens insertNew at *
  split at hreply
  · rename_i sectionName name value type
    refine ⟨(sectionName, name), rfl, ?_⟩
    rcases hlookup : settingLookup settings sectionName name with _ | setting
    · have hnew : (sectionName, name) ∉ settings.map Setting.key := by
        rw [mem_keys_iff, hlookup]
        exact Bool.false_ne_true
      rw [if_neg hnew]
      exact keys_settingRegister file settings _
    · have hold : (sectionName, name) ∈ settings.map Setting.key := by
        rw [mem_keys_iff, hlookup]
        rfl
      rw [if_pos hold]
  · exact absurd hreply (some_ne_none sent).symm

lemma keys_writeValue (sectionName name value : List Char) (settings : List Setting) :
    (writeValue sectionName name value settings).map Setting.key = settings.map Setting.key := by
  induction settings with
  | nil => rfl
  | cons s settings ih =>
    unfold writeValue
    split
    · split <;> rfl
    · rw [map_cons, ih, map_cons]

lemma keys_settingsWriteRespCb (settings : List Setting) (msg : Message) :
    (settingsWriteRespCb lib settings msg).map Setting.key = settings.map Setting.key := by
  unfold settingsWriteRespCb
  split
  · rfl
  · split
    · rfl
    · split
      · exact keys_writeValue _ _ _ settings
      · rfl

/-- The key that an action registers. -/
def actionKey (lib : Libsettings) : Action → Option (List Char × List Char)
  | .register msg => messageKey lib msg
  | _ => none

/-- A message registers at most one new key. -/
lemma keys_step {d d' : Daemon} {a : Action}
    (h : (machine lib charSigned file).step d a = some d') :
    d'.settings.map Setting.key = (actionKey lib a).elim (d.settings.map Setting.key)
        (insertNew (d.settings.map Setting.key)) := by
  cases a with
  | register msg =>
    obtain ⟨out, hcb, rfl⟩ := map_eq_some_iff.mp h
    obtain ⟨key, hkey, hsettings⟩ := keys_settingsRegisterCb hcb
    rw [actionKey, hkey]
    exact hsettings
  | writeResp msg =>
    cases h
    exact keys_settingsWriteRespCb d.settings msg
  | read senderId msg | readByIndex senderId msg =>
    obtain ⟨sent, -, rfl⟩ := map_eq_some_iff.mp h
    rfl
  | write msg =>
    cases h
    rfl
  | save opens =>
    obtain ⟨file', -, rfl⟩ := map_eq_some_iff.mp h
    rfl

/-- The keys that the registrations of a run name, in order. -/
def registeredKeys (lib : Libsettings) (acts : List Action) : List (List Char × List Char) :=
  acts.filterMap (actionKey lib)

variable {acts : List Action} {d : Daemon}

/-- The settings are the keys registered, each once, grouped by section. -/
theorem keys_run (h : (machine lib charSigned file).run acts = some d) :
    d.settings.map Setting.key = grouped Prod.fst (firsts (registeredKeys lib acts)) := by
  induction acts using List.reverseRecOn generalizing d with
  | nil =>
    obtain rfl := some.inj h
    rfl
  | append_singleton acts a ih =>
    rw [Machine.run_append_singleton, bind_eq_some_iff] at h
    obtain ⟨d₁, hrun, hstep⟩ := h
    have hkeys := ih hrun
    have hnext := keys_step hstep
    unfold registeredKeys at hkeys ⊢
    rw [hnext, filterMap_append, filterMap_cons, filterMap_nil, hkeys]
    rcases actionKey lib a with _ | key
    · rw [append_nil]
      rfl
    · rw [firsts_append_singleton]
      have hmem := (grouped_perm Prod.fst (firsts (acts.filterMap (actionKey lib)))).mem_iff
        (a := key)
      show insertNew _ key = _
      unfold insertNew addNew
      by_cases hold : key ∈ firsts (acts.filterMap (actionKey lib))
      · rw [if_pos (hmem.mpr hold), if_pos hold]
      · rw [if_neg (mt hmem.mp hold), if_neg hold]
        exact insertAfterBlock_grouped _ key

lemma nodup_keys_run (h : (machine lib charSigned file).run acts = some d) :
    (d.settings.map Setting.key).Nodup := by
  rw [keys_run h]
  exact (grouped_perm _ _).nodup_iff.mpr (nodup_firsts _)

/-- The settings of a section are together. -/
lemma inBlocks_run (h : (machine lib charSigned file).run acts = some d) :
    ∃ ks, InBlocks Setting.sectionName ks d.settings := by
  have hblocks := inBlocks_grouped Prod.fst (firsts (registeredKeys lib acts))
  rw [← keys_run h] at hblocks
  exact ⟨_, hblocks.of_map⟩

/-! ### Reading by index -/

lemma settingFindByIndex_eq (settings : List Setting) (index : Nat) :
    settingFindByIndex settings index = settings[index]? := by
  induction settings generalizing index with
  | nil => rfl
  | cons s settings ih =>
    cases index with
    | zero => rfl
    | succ index => exact ih index

/-- A request for an index: its two bytes, low byte first. -/
def indexMessage (index : Nat) : Message where
  payload := [Char.ofNat (index % 256), Char.ofNat (index / 256)]
  length_le := by simp

/-- The reply to a request for an index: the setting there, unless it is too long, or the end. -/
def indexReply (lib : Libsettings) (settings : List Setting) (index : Nat) : List Sent :=
  match settings[index]? with
  | none => [{ msgType := .readByIndexDone, fromHost := false, payload := [] }]
  | some s =>
    if 2 + (joined (s.tokens true)).length ≤ lib.buflen then
      [{ msgType := .readByIndexResp, fromHost := false,
         payload := (indexMessage index).payload ++ joined (s.tokens true) }]
    else []

lemma toNat_ofNat_of_lt {n : Nat} (h : n < 256) : (Char.ofNat n).toNat = n := by
  have hvalid : n.isValidChar := Or.inl (by omega)
  rw [Char.ofNat, dif_pos hvalid]
  rfl

/-- A request for an index gets the answer of that index. -/
lemma settingsReadByIndexCb_eq (settings : List Setting) {index : Nat} (h : index < 65536) :
    settingsReadByIndexCb lib sbpSenderId settings (indexMessage index) =
      some (indexReply lib settings index) := by
  have hlow := toNat_ofNat_of_lt (Nat.mod_lt index (by decide : 0 < 256))
  have hhigh := toNat_ofNat_of_lt (show index / 256 < 256 by omega)
  have hindex :
      (Char.ofNat (index % 256)).toNat + 256 * (Char.ofNat (index / 256)).toNat = index := by
    omega
  unfold settingsReadByIndexCb indexReply
  simp only [indexMessage, hindex, settingFindByIndex_eq]
  rcases settings[index]? with _ | s
  · rfl
  · have hfits : (joined (s.tokens true)).length ≤ lib.buflen - 2 ↔
        2 + (joined (s.tokens true)).length ≤ lib.buflen := by
      have hbuflen := lib.buflen_eq
      omega
    simp only [settingsReply_some, hfits]
    rfl

/-! ### Saving -/

/-- The lines for the settings that are left, when `sec` is the section written last. -/
def saveLines : Option (List Char) → List Setting → List SaveLine
  | _, [] => []
  | sec, s :: rest =>
    if s.dirty = false then saveLines sec rest
    else newSection sec s ++ .entry s.name s.value :: saveLines (some s.sectionName) rest

variable {fuel idx : Nat}

/-- With fewer than 65536 settings the loop ends and has written the lines of all of them. -/
lemma saveLoop_eq (hlt : settings.length < 65536) (hidx : idx ≤ settings.length)
    (hfuel : settings.length - idx < fuel) (sec : Option (List Char)) :
    saveLoop settings fuel idx sec = some (saveLines sec (settings.drop idx)) := by
  induction fuel generalizing idx sec with
  | zero => exact absurd hfuel (Nat.not_lt_zero _)
  | succ fuel ih =>
    unfold saveLoop
    rw [settingFindByIndex_eq]
    by_cases hend : idx = settings.length
    · rw [hend, getElem?_eq_none (Nat.le_refl _), drop_length]
      rfl
    · have hin : idx < settings.length := by omega
      have hnext : (idx + 1) % 65536 = idx + 1 := Nat.mod_eq_of_lt (by omega)
      have hrest := fun sec => ih (show idx + 1 ≤ settings.length by omega) (by omega) sec
      rw [getElem?_eq_getElem hin, drop_eq_getElem_cons hin, hnext]
      simp only [saveLines, hrest]
      split <;> rfl

lemma saveLinesOf_eq (hlt : settings.length < 65536) :
    saveLinesOf settings = some (saveLines none settings) :=
  saveLoop_eq hlt (Nat.zero_le _) (by omega) none

/-- With more settings the index never gets past the last one. -/
lemma saveLoop_eq_none (hlength : 65536 ≤ settings.length) (hidx : idx < 65536)
    (sec : Option (List Char)) : saveLoop settings fuel idx sec = none := by
  induction fuel generalizing idx sec with
  | zero => rfl
  | succ fuel ih =>
    have hin : idx < settings.length := by omega
    have hrest := fun sec => ih (Nat.mod_lt (idx + 1) (by decide)) sec
    unfold saveLoop
    rw [settingFindByIndex_eq, getElem?_eq_getElem hin]
    simp only [hrest, map_none, ite_self]

/-- Settings that are not dirty are skipped. -/
lemma saveLines_filter (sec : Option (List Char)) (settings : List Setting) :
    saveLines sec settings = saveLines sec (settings.filter (·.dirty)) := by
  induction settings generalizing sec with
  | nil => rfl
  | cons s settings ih =>
    cases hdirty : s.dirty with
    | false =>
      rw [filter_cons_of_neg (by simp [hdirty]), saveLines, if_pos hdirty]
      exact ih sec
    | true =>
      rw [filter_cons_of_pos (by simp [hdirty]), saveLines, saveLines,
        if_neg (by simp [hdirty]), if_neg (by simp [hdirty]), ih]

/-- The line of a setting. -/
def Setting.entryLine (s : Setting) : SaveLine := .entry s.name s.value

variable {k : List Char} {b : List Setting} {ks : List (List Char)} {l : List Setting}

lemma saveLines_append (hkey : ∀ s ∈ b, s.sectionName = k) (hdirty : ∀ s ∈ b, s.dirty)
    (rest : List Setting) :
    saveLines (some k) (b ++ rest) = b.map Setting.entryLine ++ saveLines (some k) rest := by
  induction b with
  | nil => rfl
  | cons s b ih =>
    have hs := hkey s mem_cons_self
    have hd := hdirty s mem_cons_self
    have hrest := ih (fun t ht => hkey t (mem_cons_of_mem s ht))
      (fun t ht => hdirty t (mem_cons_of_mem s ht))
    rw [cons_append, saveLines, if_neg (by simp [hd]), newSection, if_pos (by rw [hs]), hs, hrest]
    rfl

/-- The header of a block is followed by its entries. -/
lemma saveLines_block (hne : b ≠ []) (hkey : ∀ s ∈ b, s.sectionName = k)
    (hdirty : ∀ s ∈ b, s.dirty) (rest : List Setting) {sec : Option (List Char)}
    (hsec : sec ≠ some k) :
    saveLines sec (b ++ rest) =
      .header k :: b.map Setting.entryLine ++ saveLines (some k) rest := by
  obtain ⟨s, b, rfl⟩ := exists_cons_of_ne_nil hne
  have hs := hkey s mem_cons_self
  have hd := hdirty s mem_cons_self
  have hrest := saveLines_append (fun t ht => hkey t (mem_cons_of_mem s ht))
    (fun t ht => hdirty t (mem_cons_of_mem s ht)) rest
  rw [cons_append, saveLines, if_neg (by simp [hd]), newSection, hs, if_neg hsec, hrest]
  rfl

/-- Blocks of dirty settings are written section by section. -/
lemma saveLines_of_inBlocks (h : InBlocks Setting.sectionName ks l) (hdirty : ∀ s ∈ l, s.dirty)
    {sec : Option (List Char)} (hsec : ∀ k ∈ ks, sec ≠ some k) :
    saveLines sec l = ks.flatMap fun k =>
        .header k :: (l.filter (·.sectionName = k)).map Setting.entryLine := by
  induction h generalizing sec with
  | nil => rfl
  | @cons k ks b rest hne hkey hk hblocks ih =>
    have hb : b.filter (·.sectionName = k) = b :=
      filter_eq_self.mpr (fun s hs => decide_eq_true (hkey s hs))
    have hrest : rest.filter (·.sectionName = k) = [] := by
      apply filter_eq_nil_iff.mpr
      intro s hs hsk
      exact hk (of_decide_eq_true hsk ▸ hblocks.key_mem hs)
    have hother : ∀ k' ∈ ks, (b ++ rest).filter (·.sectionName = k') =
        rest.filter (·.sectionName = k') := by
      intro k' hk'
      have hnone : b.filter (·.sectionName = k') = [] := by
        apply filter_eq_nil_iff.mpr
        intro s hs hsk
        exact hk ((hkey s hs).symm.trans (of_decide_eq_true hsk) ▸ hk')
      rw [filter_append, hnone, nil_append]
    have hnext := @ih (fun s hs => hdirty s (mem_append_right b hs)) (some k)
      (fun k' hk' heq => hk (some.inj heq ▸ hk'))
    rw [saveLines_block hne hkey (fun s hs => hdirty s (mem_append_left rest hs)) rest
      (hsec k mem_cons_self), hnext, flatMap_cons, filter_append, hb, hrest,
      append_nil]
    refine congrArg _ (flatMap_congr ?_)
    intro k' hk'
    rw [hother k' hk']

/-- The section that a line is the header of. -/
def SaveLine.headerOf : SaveLine → Option (List Char)
  | .header sectionName => some sectionName
  | .entry _ _ => none

lemma headers_saveLines (h : InBlocks Setting.sectionName ks l) (hdirty : ∀ s ∈ l, s.dirty) :
    (saveLines none l).filterMap SaveLine.headerOf = ks := by
  have hentries :
      ∀ m : List Setting, (m.map Setting.entryLine).filterMap SaveLine.headerOf = [] := by
    intro m
    rw [filterMap_map]
    exact filterMap_eq_nil_iff.mpr (fun s _ => rfl)
  rw [saveLines_of_inBlocks h hdirty (fun k _ => some_ne_none k |>.symm), filterMap_flatMap]
  simp [SaveLine.headerOf, hentries]

/-- In every run of the daemon: the settings are the registered keys, each once, grouped by section
in the order of registration; a request for an index is answered with the setting there, unless the
answer does not fit the buffer, and with the end exactly from the number of settings on; a save
writes no header twice. -/
theorem registry_of_run (lib : Libsettings) (charSigned : Bool) (file : Option (List Char))
    {acts : List Action} {d : Daemon} (hrun : (machine lib charSigned file).run acts = some d)
    (hlt : d.settings.length < 65536) :
    d.settings.map Setting.key = grouped Prod.fst (firsts (registeredKeys lib acts)) ∧
      (d.settings.map Setting.key).Nodup ∧
      (∀ index < 65536, settingsReadByIndexCb lib sbpSenderId d.settings (indexMessage index) =
        some (indexReply lib d.settings index)) ∧
      ∃ ls, saveLinesOf d.settings = some ls ∧ (ls.filterMap SaveLine.headerOf).Nodup := by
  refine ⟨keys_run hrun, nodup_keys_run hrun, fun index h => settingsReadByIndexCb_eq _ h, ?_⟩
  obtain ⟨ks, hblocks⟩ := inBlocks_run hrun
  obtain ⟨ks', -, hblocks'⟩ := hblocks.filter (·.dirty)
  refine ⟨_, saveLinesOf_eq hlt, ?_⟩
  rw [saveLines_filter, headers_saveLines hblocks' (fun s hs => (mem_filter.mp hs).2)]
  exact hblocks'.nodup

/-- The message that registers a setting without a type. -/
def registerMessage (sectionName name value : String)
    (h : (joined [sectionName.toList, name.toList, value.toList]).length ≤ 255) : Message :=
  ⟨joined [sectionName.toList, name.toList, value.toList], h⟩

/-- Settings of two sections in turn. -/
def threeRegistrations : List Action :=
  [.register (registerMessage "uart0" "mode" "SBP" (by decide)),
   .register (registerMessage "usb0" "mode" "SBP" (by decide)),
   .register (registerMessage "uart0" "baudrate" "115200" (by decide))]

theorem registry_of_run_threeRegistrations :
    ∃ d, (machine splitLib false none).run threeRegistrations = some d ∧ d.settings.length < 65536 ∧
      d.settings.map Setting.key =
        [("uart0".toList, "mode".toList), ("uart0".toList, "baudrate".toList),
         ("usb0".toList, "mode".toList)] := by
  have hsome : (((machine splitLib false none).run threeRegistrations).any
      fun d => d.settings.length < 65536) = true := by decide +kernel
  rcases hrun : (machine splitLib false none).run threeRegistrations with _ | d
  · rw [hrun] at hsome
    exact absurd hsome Bool.false_ne_true
  · rw [hrun] at hsome
    have hlt := of_decide_eq_true hsome
    refine ⟨d, rfl, hlt, ?_⟩
    rw [(registry_of_run splitLib false none hrun hlt).1]
    decide +kernel

/-- A setting whose reply would have 257 bytes. -/
def longRegistration : Message where
  payload := joined ["a".toList, "b".toList, List.replicate 249 'x']
  length_le := by decide +kernel

/-- It is registered, and reading it by its index gets no answer. -/
theorem readByIndex_longSetting :
    (((machine splitLib false none).run [.register longRegistration]).map fun d =>
      (d.settings.length, settingsReadByIndexCb splitLib sbpSenderId d.settings (indexMessage 0))) =
      some (1, some []) := by
  decide +kernel

end PiksiBuildroot.SbpSettings
