import Mathlib.Data.List.Pairwise
import PiksiBuildroot.SbpSettings.Lives

/-!
# Settings across a restart

The saved file is one block for each section with dirty settings (`text_saveLines`), and looking a
setting up in it finds the line of that setting or nothing (`found_eq_some`). Which settings come
back as they were is `survivesRestart_iff`; a value with a `#` is cut (`restart_cutsPassword`).
-/

namespace PiksiBuildroot.SbpSettings

open Lib CText Libpiksi.MinIni List Option

/-- What is required of a setting after the restart. -/
def Survives (before after : Daemon) (r : Registration) : Prop :=
  ∃ s ∈ before.settings, s.key = r.key ∧ ∃ s' ∈ after.settings, s'.key = r.key ∧
    (s.dirty = true → s'.value = s.value ∧ s'.dirty = true ∧ (r.key, .okPerm) ∈ after.results) ∧
    (s.dirty = false → s'.value = r.value ∧ s'.dirty = false ∧ (r.key, .ok) ∈ after.results)

/-- The dirty values are read back as they are written and are not the marker of the reader, and the
sections of dirty settings differ in more than case. -/
structure Persistable (charSigned : Bool) (settings : List Setting) : Prop where
  values : ∀ s ∈ settings, s.dirty → Plain charSigned s.value ∧ s.value ≠ defaultValue
  sections : ∀ s ∈ settings, s.dirty → ∀ t ∈ settings, t.dirty →
    sameWord s.sectionName t.sectionName → s.sectionName = t.sectionName

/-! ### The saved file -/

/-- The sections that are written for some dirty settings. -/
def sectionsOf (ks : List (List Char)) (dirty : List Setting) : List Section :=
  ks.map fun k => (k, (dirty.filter (·.sectionName = k)).map fun s => (s.name, s.value))

theorem text_saveLines {ks : List (List Char)} {settings : List Setting}
    (h : InBlocks Setting.sectionName ks (settings.filter (·.dirty))) :
    (saveLines none settings).flatMap SaveLine.text =
      iniText (sectionsOf ks (settings.filter (·.dirty))) := by
  rw [saveLines_filter, saveLines_of_inBlocks h (fun s hs => (mem_filter.mp hs).2)
    (fun k _ => some_ne_none k |>.symm)]
  unfold iniText iniLines sectionsOf
  simp only [flatMap_assoc, flatMap_map, flatMap_cons, List.map_map]
  apply flatMap_congr
  simp [SaveLine.text, headerLine, entryLine, Setting.entryLine]

lemma sameWord_iff {a b : List Char} : sameWord a b ↔ a.map Char.toLower = b.map Char.toLower :=
  beq_iff_eq

lemma sameWord_refl (a : List Char) : sameWord a a := sameWord_iff.mpr rfl

instance : Std.Symm Registration.Distinct where
  symm r r' h h' := by
    apply h
    rw [sameWord_iff, sameWord_iff] at h' ⊢
    exact ⟨h'.1.symm, h'.2.symm⟩

lemma Registration.length_lt (r : Registration) :
    r.sectionName.length < 255 ∧ r.name.length < 255 := by
  have hfits := r.fits
  simp only [joined, flatMap_append, flatMap_cons, length_append, length_singleton] at hfits
  omega

section saved

variable {lib : Libsettings} {charSigned : Bool} {regs : List Registration}
  {settings : List Setting} {ks : List (List Char)}

lemma Life.exists_registration (hlife : Life regs settings) {s : Setting} (hs : s ∈ settings) :
    ∃ r ∈ regs, s.key = r.key := by
  obtain ⟨r, hr, hkey⟩ := List.mem_map.mp ((hlife.keys s.key).mp (List.mem_map_of_mem hs))
  exact ⟨r, hr, hkey.symm⟩

lemma Life.exists_setting (hlife : Life regs settings) {r : Registration} (hr : r ∈ regs) :
    ∃ s ∈ settings, s.key = r.key :=
  List.mem_map.mp ((hlife.keys r.key).mpr (List.mem_map_of_mem hr))

lemma Life.eq_of_key (hlife : Life regs settings) {s t : Setting} (hs : s ∈ settings)
    (ht : t ∈ settings) (h : s.key = t.key) : s = t :=
  inj_on_of_nodup_map hlife.nodup hs ht h

/-- The sections can be written and read. -/
lemma iniSection_of_life (hlife : Life regs settings)
    (hblocks : InBlocks Setting.sectionName ks (settings.filter (·.dirty))) :
    ∀ s ∈ sectionsOf ks (settings.filter (·.dirty)), IniSection s := by
  intro section' hsection
  obtain ⟨k, hk, rfl⟩ := List.mem_map.mp hsection
  obtain ⟨t, ht, rfl⟩ := hblocks.exists_of_mem hk
  obtain ⟨r, -, hkey⟩ := hlife.exists_registration (mem_filter.mp ht).1
  have hname : t.sectionName = r.sectionName := (Prod.mk.inj hkey).1
  refine ⟨hname ▸ r.sectionName_word, hname ▸ r.length_lt.1, ?_, ?_⟩
  · intro e he
    obtain ⟨s, hs, rfl⟩ := List.mem_map.mp he
    have hs' := (mem_filter.mp (mem_filter.mp hs).1).1
    obtain ⟨r', -, hkey'⟩ := hlife.exists_registration hs'
    have hname' : s.name = r'.name := (Prod.mk.inj hkey').2
    exact ⟨hname' ▸ r'.name_word, hname' ▸ r'.length_lt.2⟩
  · intro e he
    obtain ⟨s, hs, rfl⟩ := List.mem_map.mp he
    obtain ⟨hs', hdirty⟩ := mem_filter.mp (mem_filter.mp hs).1
    exact hlife.values s hs' hdirty

/-- The section that a lookup finds. -/
def foundSection (sections : List Section) (sectionName : List Char) : Option Section :=
  sections.find? fun s => sameWord s.1 sectionName

/-- The entry that a lookup finds in a section. -/
def foundEntry (s : Section) (name : List Char) : Option (List Char × List Char) :=
  s.2.find? fun e => sameWord e.1 name

variable {b : Section}

lemma sameWord_of_foundSection {sections : List Section} {sectionName : List Char}
    (h : foundSection sections sectionName = some b) : sameWord b.1 sectionName := by
  have hfound := find?_some h
  exact hfound

variable {e : List Char × List Char}

lemma sameWord_of_foundEntry {name : List Char} (h : foundEntry b name = some e) :
    sameWord e.1 name := by
  have hfound := find?_some h
  exact hfound

/-- A lookup finds the line of the setting that it is for, or nothing. -/
theorem found_eq_some (hlife : Life regs settings) (hdistinct : regs.Pairwise Registration.Distinct)
    {r : Registration} (hr : r ∈ regs) {s : Setting} (hs : s ∈ settings) (hkey : s.key = r.key)
    (hb : foundSection (sectionsOf ks (settings.filter (·.dirty))) r.sectionName = some b)
    (he : foundEntry b r.name = some e) :
    s.dirty = true ∧ b.1 = s.sectionName ∧ e = (s.name, s.value) := by
  obtain ⟨k, -, hbk⟩ := List.mem_map.mp (mem_of_find?_eq_some hb)
  have hsection := sameWord_of_foundSection hb
  have hname := sameWord_of_foundEntry he
  have hmem := mem_of_find?_eq_some he
  rw [← hbk] at hmem hsection
  obtain ⟨t, ht, hte⟩ := List.mem_map.mp hmem
  obtain ⟨ht', htk⟩ := mem_filter.mp ht
  obtain ⟨htmem, htdirty⟩ := mem_filter.mp ht'
  have htk : t.sectionName = k := of_decide_eq_true htk
  obtain ⟨r', hr', htkey⟩ := hlife.exists_registration htmem
  -- the setting that was written has the key of `r` up to case, so it is the one
  have heq : r' = r := by
    by_contra hne
    apply hdistinct.forall hr' hr hne
    obtain ⟨hsection', hname'⟩ := Prod.mk.inj htkey
    rw [← hsection', ← hname', htk]
    rw [← hte] at hname
    exact ⟨hsection, hname⟩
  have hts : t = s := hlife.eq_of_key htmem hs (by rw [htkey, hkey, heq])
  subst hts
  refine ⟨htdirty, ?_, hte.symm⟩
  rw [← hbk]
  exact htk.symm

lemma getkeystring_saved (hlife : Life regs settings)
    (hblocks : InBlocks Setting.sectionName ks (settings.filter (·.dirty))) (r : Registration) :
    getkeystring charSigned r.sectionName r.name lib.buflen
        (iniText (sectionsOf ks (settings.filter (·.dirty)))) =
      ((foundSection (sectionsOf ks (settings.filter (·.dirty))) r.sectionName).bind
        fun b => foundEntry b r.name).map
          fun e => readValue charSigned (e.2 ++ ['\n']) lib.buflen :=
  getkeystring_iniText (iniSection_of_life hlife hblocks) r.sectionName_word.ne_nil r.name
    lib.buflen

/-- What a file must say about a setting that was in the list at the save. -/
def Restores (lib : Libsettings) (charSigned : Bool) (file : Option (List Char))
    (r : Registration) (s : Setting) :
    Prop :=
  (s.dirty = true → InFile lib charSigned file r.sectionName r.name ∧
    iniGets charSigned r.sectionName r.name defaultValue lib.buflen file = s.value) ∧
  (s.dirty = false → ¬ InFile lib charSigned file r.sectionName r.name)

/-- A value in the file is what the reader makes of the line of the setting. -/
lemma value_of_inFile (hlife : Life regs settings)
    (hdistinct : regs.Pairwise Registration.Distinct)
    (hblocks : InBlocks Setting.sectionName ks (settings.filter (·.dirty)))
    {r : Registration} (hr : r ∈ regs) {s : Setting} (hs : s ∈ settings) (hkey : s.key = r.key)
    (hfile : InFile lib charSigned (some (iniText (sectionsOf ks (settings.filter (·.dirty)))))
      r.sectionName r.name) :
    s.dirty = true ∧
      (∃ b, foundSection (sectionsOf ks (settings.filter (·.dirty))) r.sectionName = some b ∧
        b.1 = s.sectionName) ∧
      readValue charSigned (s.value ++ ['\n']) lib.buflen ≠ defaultValue ∧
      iniGets charSigned r.sectionName r.name defaultValue lib.buflen
          (some (iniText (sectionsOf ks (settings.filter (·.dirty))))) =
        readValue charSigned (s.value ++ ['\n']) lib.buflen := by
  obtain ⟨value, hvalue, hne⟩ := hfile
  have hlookup := hvalue
  rw [mem_def, bind_some, getkeystring_saved hlife hblocks] at hlookup
  obtain ⟨e, hfound, rfl⟩ := map_eq_some_iff.mp hlookup
  obtain ⟨b, hb, he⟩ := bind_eq_some_iff.mp hfound
  obtain ⟨hdirty, hsection, rfl⟩ := found_eq_some hlife hdistinct hr hs hkey hb he
  refine ⟨hdirty, ⟨b, hb, hsection⟩, hne, ?_⟩
  unfold iniGets
  rw [hvalue]

/-- If sections of dirty settings differ in more than case, the value of a dirty setting is found.
-/
lemma inFile_of_dirty (hlife : Life regs settings)
    (hdistinct : regs.Pairwise Registration.Distinct)
    (hblocks : InBlocks Setting.sectionName ks (settings.filter (·.dirty)))
    (hpersist : Persistable charSigned settings) {r : Registration} (hr : r ∈ regs) {s : Setting}
    (hs : s ∈ settings) (hkey : s.key = r.key) (hdirty : s.dirty = true) :
    InFile lib charSigned (some (iniText (sectionsOf ks (settings.filter (·.dirty)))))
      r.sectionName r.name := by
  obtain ⟨hsection, hname⟩ := Prod.mk.inj hkey
  obtain ⟨hplain, hne⟩ := hpersist.values s hs hdirty
  have hsdirty : s ∈ settings.filter (·.dirty) := mem_filter.mpr ⟨hs, hdirty⟩
  -- a section of the name is there, and it is the one of `s`
  have hsome : (foundSection (sectionsOf ks (settings.filter (·.dirty))) r.sectionName).isSome := by
    apply find?_isSome.mpr
    refine ⟨_, List.mem_map.mpr ⟨s.sectionName, hblocks.key_mem hsdirty, rfl⟩, ?_⟩
    exact hsection ▸ sameWord_refl _
  obtain ⟨b, hb⟩ := isSome_iff_exists.mp hsome
  obtain ⟨k, hk, hbk⟩ := List.mem_map.mp (mem_of_find?_eq_some hb)
  have hsame : sameWord k r.sectionName := by
    have hfound := sameWord_of_foundSection hb
    rwa [← hbk] at hfound
  obtain ⟨t, ht, htk⟩ := hblocks.exists_of_mem hk
  obtain ⟨ht, htdirty⟩ := mem_filter.mp ht
  have hks : k = s.sectionName := by
    rw [← htk]
    exact hpersist.sections t ht htdirty s hs hdirty (by rw [htk, hsection]; exact hsame)
  have hentry : (foundEntry b r.name).isSome := by
    apply find?_isSome.mpr
    refine ⟨(s.name, s.value), ?_, hname ▸ sameWord_refl _⟩
    rw [← hbk]
    exact List.mem_map.mpr ⟨s, mem_filter.mpr ⟨hsdirty, decide_eq_true hks.symm⟩, rfl⟩
  obtain ⟨e, he⟩ := isSome_iff_exists.mp hentry
  obtain ⟨-, -, rfl⟩ := found_eq_some hlife hdistinct hr hs hkey hb he
  have hread := hplain.readValue_eq (lib.buflen_eq ▸ (hlife.values s hs hdirty).2.2)
  refine ⟨s.value, ?_, hne⟩
  rw [mem_def, bind_some, getkeystring_saved hlife hblocks, hb, bind_some, he]
  exact congrArg some hread

/-- The saved file restores every setting exactly if the settings are persistable. -/
lemma restores_iff (hlife : Life regs settings)
    (hdistinct : regs.Pairwise Registration.Distinct)
    (hblocks : InBlocks Setting.sectionName ks (settings.filter (·.dirty))) :
    (∀ r ∈ regs, ∀ s ∈ settings, s.key = r.key →
      Restores lib charSigned (some (iniText (sectionsOf ks (settings.filter (·.dirty))))) r s) ↔
      Persistable charSigned settings := by
  constructor
  · intro hrestores
    have hvalue := fun r hr s hs hkey =>
      @value_of_inFile lib charSigned regs settings ks hlife hdistinct
      hblocks r hr s hs hkey
    refine ⟨?_, ?_⟩
    · intro s hs hdirty
      obtain ⟨r, hr, hkey⟩ := hlife.exists_registration hs
      obtain ⟨hfile, hgets⟩ := (hrestores r hr s hs hkey).1 hdirty
      obtain ⟨-, -, hne, hread⟩ := hvalue r hr s hs hkey hfile
      have hself := hread.symm.trans hgets
      exact ⟨plain_of_readValue_eq hself, hself ▸ hne⟩
    · intro s hs hsdirty t ht htdirty hsame
      obtain ⟨r, hr, hkey⟩ := hlife.exists_registration hs
      obtain ⟨r', hr', hkey'⟩ := hlife.exists_registration ht
      obtain ⟨-, ⟨b, hb, hbs⟩, -⟩ := hvalue r hr s hs hkey ((hrestores r hr s hs hkey).1 hsdirty).1
      obtain ⟨-, ⟨b', hb', hbt⟩, -⟩ :=
        hvalue r' hr' t ht hkey' ((hrestores r' hr' t ht hkey').1 htdirty).1
      -- both lookups look for the same section
      have hpred : foundSection (sectionsOf ks (settings.filter (·.dirty))) r.sectionName =
          foundSection (sectionsOf ks (settings.filter (·.dirty))) r'.sectionName := by
        unfold foundSection sameWord
        rw [← (Prod.mk.inj hkey).1, ← (Prod.mk.inj hkey').1, sameWord_iff.mp hsame]
      rw [hpred, hb'] at hb
      rw [← hbs, ← hbt, some.inj hb]
  · intro hpersist r hr s hs hkey
    constructor
    · intro hdirty
      have hfile := @inFile_of_dirty lib charSigned _ _ _ hlife hdistinct hblocks hpersist _ hr _ hs
        hkey hdirty
      obtain ⟨-, -, -, hread⟩ := value_of_inFile hlife hdistinct hblocks hr hs hkey hfile
      refine ⟨hfile, hread.trans ?_⟩
      exact (hpersist.values s hs hdirty).1.readValue_eq
        (lib.buflen_eq ▸ (hlife.values s hs hdirty).2.2)
    · intro hclean hfile
      obtain ⟨hdirty, -⟩ := value_of_inFile hlife hdistinct hblocks hr hs hkey hfile
      rw [hclean] at hdirty
      exact Bool.false_ne_true hdirty

end saved

/-! ### The second life -/

section restart

variable {lib : Libsettings} {charSigned : Bool} {regs regs' : List Registration}

lemma Registration.eq_of_key (hdistinct : regs.Pairwise Registration.Distinct)
    {r r' : Registration}
    (hr : r ∈ regs) (hr' : r' ∈ regs) (h : r.key = r'.key) : r = r' :=
  inj_on_of_nodup_map (nodup_keys hdistinct) hr hr' h

/-- After the registrations, a setting has survived exactly if the file restores it. -/
lemma survives_iff {before after : Daemon} {file : Option (List Char)}
    (hlife : Life regs before.settings) (hdistinct : regs.Pairwise Registration.Distinct)
    (hafter : ∀ s, s ∈ after.settings ↔ ∃ r ∈ regs, s = r.setting lib charSigned file)
    (hresults : ∀ p, p ∈ after.results ↔ ∃ r ∈ regs, p = (r.key, r.result lib charSigned file))
    {r : Registration} (hr : r ∈ regs) {s : Setting} (hs : s ∈ before.settings)
    (hkey : s.key = r.key) :
    Survives before after r ↔ Restores lib charSigned file r s := by
  have hsetting : ∀ s' ∈ after.settings, s'.key = r.key → s' = r.setting lib charSigned file := by
    intro s' hs' hkey'
    obtain ⟨r', hr', rfl⟩ := (hafter s').mp hs'
    rw [Registration.key_setting] at hkey'
    rw [Registration.eq_of_key hdistinct hr' hr hkey']
  have hresult : ∀ res, (r.key, res) ∈ after.results ↔ res = r.result lib charSigned file := by
    intro res
    rw [hresults]
    constructor
    · rintro ⟨r', hr', heq⟩
      obtain ⟨hkey', hres⟩ := Prod.mk.inj heq
      rw [hres, Registration.eq_of_key hdistinct hr' hr hkey'.symm]
    · rintro rfl
      exact ⟨r, hr, rfl⟩
  have hiff : Survives before after r ↔
      (s.dirty = true → (r.setting lib charSigned file).value = s.value ∧
        (r.setting lib charSigned file).dirty = true ∧ r.result lib charSigned file = .okPerm) ∧
      (s.dirty = false → (r.setting lib charSigned file).value = r.value ∧
        (r.setting lib charSigned file).dirty = false ∧ r.result lib charSigned file = .ok) := by
    constructor
    · rintro ⟨t, ht, htkey, s', hs', hkey', hdirty, hclean⟩
      obtain rfl := hlife.eq_of_key ht hs (htkey.trans hkey.symm)
      obtain rfl := hsetting s' hs' hkey'
      rw [hresult] at hdirty hclean
      exact ⟨fun h => (hdirty h).imp_right (And.imp_right Eq.symm),
        fun h => (hclean h).imp_right (And.imp_right Eq.symm)⟩
    · rintro ⟨hdirty, hclean⟩
      refine ⟨s, hs, hkey, _, (hafter _).mpr ⟨r, hr, rfl⟩, r.key_setting, ?_, ?_⟩
      · intro h
        exact (hdirty h).imp_right (And.imp_right fun heq => (hresult _).mpr heq.symm)
      · intro h
        exact (hclean h).imp_right (And.imp_right fun heq => (hresult _).mpr heq.symm)
  rw [hiff]
  unfold Restores Registration.setting Registration.result
  by_cases hfile : InFile lib charSigned file r.sectionName r.name
  · simp [hfile, Registration.fresh]
  · simp [hfile, Registration.fresh]

/-- After any first life, a save and a restart bring every setting back exactly if there are fewer
than 65536 settings and they are persistable. -/
theorem survivesRestart_iff (lib : Libsettings) (charSigned : Bool) (file : Option (List Char))
    {regs regs' : List Registration} (hdistinct : regs.Pairwise Registration.Distinct)
    (hperm : regs'.Perm regs) (writes : List WriteResponse) :
    ∃ before, (machine lib charSigned file).run (registerActions regs ++ writeActions writes) =
        some before ∧
      ((∃ saved, (machine lib charSigned file).step before (.save true) = some saved ∧
          ∃ after, (machine lib charSigned saved.file).run (registerActions regs') = some after ∧
            ∀ r ∈ regs, Survives before after r) ↔
        before.settings.length < 65536 ∧ Persistable charSigned before.settings) := by
  obtain ⟨before, hrun, hlife⟩ := @life_run lib charSigned regs file hdistinct writes
  refine ⟨before, hrun, ?_⟩
  obtain ⟨ks, hblocks⟩ := hlife.blocks
  obtain ⟨ks', -, hdirty⟩ := hblocks.filter (·.dirty)
  by_cases hlength : before.settings.length < 65536
  · have hsave : (machine lib charSigned file).step before (.save true) = some
        { before with
          file := some (iniText (sectionsOf ks' (before.settings.filter (·.dirty)))) } := by
      simp only [machine, settingsSaveCb, if_true, saveLinesOf_eq hlength, map_some,
        text_saveLines hdirty]
    obtain ⟨after, hafter, hsettings, hresults⟩ := @restart_run lib charSigned regs regs'
      (some (iniText (sectionsOf ks' (before.settings.filter (·.dirty))))) hdistinct hperm
    have hsurvives := fun r hr s hs hkey =>
      @survives_iff lib charSigned regs before after _ hlife hdistinct hsettings hresults r hr s hs
        hkey
    rw [← restores_iff hlife hdistinct hdirty]
    constructor
    · rintro ⟨saved, hsaved, after', hafter', hall⟩
      rw [hsave] at hsaved
      obtain rfl := some.inj hsaved
      obtain rfl := some.inj (hafter.symm.trans hafter')
      exact ⟨hlength, fun r hr s hs hkey => (hsurvives r hr s hs hkey).mp (hall r hr)⟩
    · rintro ⟨-, hall⟩
      refine ⟨_, hsave, after, hafter, ?_⟩
      intro r hr
      obtain ⟨s, hs, hkey⟩ := hlife.exists_setting hr
      exact (hsurvives r hr s hs hkey).mpr (hall r hr s hs hkey)
  · have hsave : (machine lib charSigned file).step before (.save true) = none := by
      simp only [machine, settingsSaveCb, if_true, saveLinesOf,
        saveLoop_eq_none (Nat.le_of_not_lt hlength) (by decide : 0 < 65536), map_none]
    constructor
    · rintro ⟨saved, hsaved, -⟩
      rw [hsave] at hsaved
      exact absurd hsaved (some_ne_none saved).symm
    · rintro ⟨hlt, -⟩
      exact absurd hlt hlength

/-- The password of a network. -/
def passwordRegistration : Registration where
  sectionName := "ntrip".toList
  name := "password".toList
  value := []
  type := none
  sectionName_word := by decide
  name_word := by decide
  value_nul := by decide
  type_nul := nofun
  fits := by decide

/-- The mode of a port. -/
def modeRegistration : Registration where
  sectionName := "uart0".toList
  name := "mode".toList
  value := "SBP".toList
  type := none
  sectionName_word := by decide
  name_word := by decide
  value_nul := by decide
  type_nul := nofun
  fits := by decide

/-- A write of a password. -/
def passwordWrite (value : String) (hnul : '\x00' ∉ value.toList) (hnewline : '\n' ∉ value.toList)
    (hfits : ('\x00' :: joined ["ntrip".toList, "password".toList, value.toList]).length ≤ 255) :
    WriteResponse where
  sectionName := "ntrip".toList
  name := "password".toList
  value := value.toList
  type := none
  sectionName_nul := by decide
  name_nul := by decide
  value_nul := hnul
  value_newline := hnewline
  type_nul := nofun
  fits := hfits

/-- The first life: the password is written, and the mode keeps its default. -/
def plainPassword : List Action := registerActions [passwordRegistration, modeRegistration] ++
    writeActions [passwordWrite "ab" (by decide) (by decide) (by decide)]

/-- After the restart the settings are registered in the other order. -/
theorem survivesRestart_iff_plainPassword :
    ∃ before, (machine splitLib false none).run plainPassword = some before ∧
      before.settings.map Setting.dirty = [true, false] ∧
      ∃ saved, (machine splitLib false none).step before (.save true) = some saved ∧
        ∃ after, (machine splitLib false saved.file).run
            (registerActions [modeRegistration, passwordRegistration]) = some after ∧
          ∀ r ∈ [passwordRegistration, modeRegistration], Survives before after r := by
  have hdistinct : [passwordRegistration, modeRegistration].Pairwise Registration.Distinct :=
    pairwise_pair.mpr (by unfold Registration.Distinct; decide)
  obtain ⟨before, hrun, hiff⟩ := survivesRestart_iff splitLib false none hdistinct
    (List.Perm.swap passwordRegistration modeRegistration [])
    [passwordWrite "ab" (by decide) (by decide) (by decide)]
  have hsettings : ((machine splitLib false none).run plainPassword).map Daemon.settings = some
      [{ passwordRegistration.fresh with value := "ab".toList, dirty := true },
        modeRegistration.fresh] := by
    decide +kernel
  rw [plainPassword, hrun] at hsettings
  have hbefore : before.settings = _ := some.inj hsettings
  refine ⟨before, hrun, by rw [hbefore]; rfl, hiff.mpr ?_⟩
  rw [hbefore]
  exact ⟨by decide, by decide +kernel, by decide +kernel⟩

/-- The password `a#b` is saved, and `a` comes back. -/
theorem restart_cutsPassword :
    (((machine splitLib false none).run (registerActions [passwordRegistration] ++
        writeActions [passwordWrite "a#b" (by decide) (by decide) (by decide)])).bind
      fun before => ((machine splitLib false none).step before (.save true)).bind
        fun saved => ((machine splitLib false saved.file).run
          (registerActions [passwordRegistration])).map
            fun after => (before.settings.map Setting.value, after.settings.map Setting.value)) =
      some (["a#b".toList], ["a".toList]) := by
  decide +kernel

end restart

end PiksiBuildroot.SbpSettings
