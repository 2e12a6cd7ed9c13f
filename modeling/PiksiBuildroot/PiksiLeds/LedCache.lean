import Mathlib.Data.Fintype.Basic
import Mathlib.Data.List.FinRange
import Mathlib.Logic.Function.Basic

/-!
# The cache of LED states

The driver of the LEDs keeps the brightness that each LED was last set to and writes only what
changes. A write over I2C that fails, after two more attempts where it timed out, sets
`flush_led_state_cache`, and the next call writes the whole cache again. The flag is cleared after
this flush whether or not it succeeded. So a register whose flush failed keeps its old value while
the flag is false, and a call that sets the LED to the cached brightness is skipped (`Repairs`,
`forall_coherent_iff`).
-/

namespace PiksiBuildroot.PiksiLeds

open Function List Option

/-- Source: `LED_ADP8866_LED_COUNT`. -/
abbrev ledCount : Nat := 9

/-- Source: `LED_I2C_WRITE_RETRY_COUNT`. -/
abbrev retryCount : Nat := 3

/-- The number of an LED. -/
abbrev Led := Fin ledCount

/-- Source: `init_reg_isc`, the entries of `isc_route`. -/
def iscRoute (isDuro : Bool) (led : Led) : Nat :=
  if isDuro then if led.val = 0 then 0x23 + 8 else 0x23 + led.val - 1
  else 0x23 + led.val

/-- No two LEDs share a register. -/
lemma iscRoute_injective (isDuro : Bool) : Function.Injective (iscRoute isDuro) := by
  intro a b h
  have ha : a.val < 9 := a.isLt
  have hb : b.val < 9 := b.isLt
  apply Fin.ext
  unfold iscRoute at h
  split_ifs at h <;> omega

/-- How an attempt to write ends. An attempt that fails may have reached the register all the
same. -/
inductive I2cOutcome where
  | success
  | timeout (stored : Bool)
  | error (stored : Bool)

/-- Source: `led_adp8866_led_state_t`. -/
structure LedState where
  led : Led
  brightness : UInt8

/-- The registers of the driver, `led_state_cache` and `flush_led_state_cache`. -/
structure Leds where
  regs : Nat → UInt8
  cache : Led → UInt8
  flush : Bool

/-- What the attempts of a write come to. -/
structure Tried where
  regs : Nat → UInt8
  success : Bool
  failed : Bool

/-- The loop of `leds_set` over the attempts of one write: it goes on after a timeout only. -/
def tryWrite (addr : Nat) (data : UInt8) : List I2cOutcome → (Nat → UInt8) → Tried
  | [], regs => ⟨regs, false, false⟩
  | .success :: _, regs => ⟨Function.update regs addr data, true, false⟩
  | .timeout stored :: rest, regs =>
    tryWrite addr data rest (if stored then Function.update regs addr data else regs)
  | .error stored :: _, regs =>
    ⟨if stored then Function.update regs addr data else regs, false, true⟩

/-- The outcomes of the attempts that a call makes for each LED. -/
abbrev Bus := Led → Fin retryCount → I2cOutcome

/-- The attempts for an LED in order. -/
def attempts (bus : Bus) (led : Led) : List I2cOutcome := List.ofFn (bus led)

section
variable (isDuro : Bool)

/-- Source: `leds_set`. -/
def ledsSet (bus : Bus) : List LedState → Leds → Bool × Leds
  | [], s => (true, s)
  | st :: states, s =>
    let tried := tryWrite (iscRoute isDuro st.led) st.brightness (attempts bus st.led) s.regs
    let r := ledsSet bus states
      { regs := tried.regs
        cache := Function.update s.cache st.led st.brightness
        flush := s.flush || !tried.success }
    (!tried.failed && r.1, r.2)

/-- The entries of `led_state_cache`, whose numbers `led_cache_init` sets. -/
def cachedStates (s : Leds) : List LedState := (List.finRange ledCount).map fun i => ⟨i, s.cache i⟩

/-- Source: `led_cache_flush`. The cache is the array that is read, and each entry is set to
itself. -/
def ledCacheFlush (bus : Bus) (s : Leds) : Bool × Leds := ledsSet isDuro bus (cachedStates s) s

/-- Source: `modified_states_get`. -/
def modifiedStatesGet (s : Leds) (states : List LedState) : List LedState :=
  states.filter fun st => st.brightness ≠ s.cache st.led

/-- Source: `led_adp8866_leds_set`. `flushBus` and `setBus` are the outcomes of the attempts for
the flush and for the states that are modified. -/
def ledAdp8866LedsSet (flushBus setBus : Bus) (states : List LedState) (s : Leds) : Bool × Leds :=
  let modified := modifiedStatesGet s states
  let s := if s.flush then { (ledCacheFlush isDuro flushBus s).2 with flush := false } else s
  if modified = [] then (true, s) else ledsSet isDuro setBus modified s

/-- The registers after `configure` has succeeded, which sets the currents to zero. -/
def configured (regs : Nat → UInt8) : Nat → UInt8 :=
  (List.finRange ledCount).foldl (fun regs i => Function.update regs (iscRoute isDuro i) 0) regs

/-- Source: `led_adp8866_init`, from `led_cache_init` on; `none` if the process exits. -/
def ledAdp8866Init (bus : Bus) (regs : Nat → UInt8) : Option Leds :=
  let r := ledCacheFlush isDuro bus ⟨configured isDuro regs, fun _ => 0, false⟩
  if r.1 then some r.2 else none

end

/-- A call of `led_adp8866_leds_set` with states for different LEDs, and what happens on the bus. -/
structure Call where
  states : List LedState
  nodup : (states.map LedState.led).Nodup
  flushBus : Bus
  setBus : Bus

section
variable (isDuro : Bool)

/-- A call. -/
def Call.apply (c : Call) (s : Leds) : Leds :=
  (ledAdp8866LedsSet isDuro c.flushBus c.setBus c.states s).2

/-- Some calls one after the other. -/
def runCalls (calls : List Call) (s : Leds) : Leds := calls.foldl (fun s c => c.apply isDuro s) s

/-- With false flag every register holds the cached brightness. -/
def Coherent (s : Leds) : Prop :=
  s.flush = false → ∀ led, s.regs (iscRoute isDuro led) = s.cache led

end

/-- Whether some attempt reaches the register. -/
def reaches : List I2cOutcome → Bool
  | [] => false
  | .success :: _ => true
  | .timeout stored :: rest => stored || reaches rest
  | .error stored :: _ => stored

/-- Whether the write succeeds. -/
def succeeds : List I2cOutcome → Bool
  | [] => false
  | .success :: _ => true
  | .timeout _ :: rest => succeeds rest
  | .error _ :: _ => false

/-- A call that flushes, and whose writes of modified states all succeed, reaches every LED whose
register differs from the cache, by the flush or because it sets the LED. -/
def Repairs (isDuro : Bool) (s : Leds) (c : Call) : Prop := s.flush = true →
    (∀ st ∈ modifiedStatesGet s c.states, succeeds (attempts c.setBus st.led) = true) →
    ∀ led, s.regs (iscRoute isDuro led) ≠ s.cache led →
      led ∈ (modifiedStatesGet s c.states).map LedState.led ∨
        reaches (attempts c.flushBus led) = true

/-! ### One write -/

section
variable (addr : Nat) (data : UInt8)

lemma regs_tryWrite (tries : List I2cOutcome) (regs : Nat → UInt8) :
    (tryWrite addr data tries regs).regs =
      if reaches tries then update regs addr data else regs := by
  induction tries generalizing regs with
  | nil => rfl
  | cons o tries ih =>
    cases o with
    | success | error stored => rfl
    | timeout stored =>
      rw [tryWrite, ih]
      cases stored with
      | false => rfl
      | true => simp [reaches]

lemma success_tryWrite (tries : List I2cOutcome) (regs : Nat → UInt8) :
    (tryWrite addr data tries regs).success = succeeds tries := by
  induction tries generalizing regs with
  | nil => rfl
  | cons o tries ih =>
    cases o with
    | success | error stored => rfl
    | timeout stored => exact ih _

end

lemma reaches_of_succeeds {tries : List I2cOutcome} (h : succeeds tries = true) :
    reaches tries = true := by
  induction tries with
  | nil => exact h
  | cons o tries ih =>
    cases o with
    | success => rfl
    | timeout stored => rw [reaches, ih h, Bool.or_true]
    | error stored => exact absurd h Bool.false_ne_true

/-! ### Writing several states -/

/-- The brightness that some states give an LED. -/
def brightnessOf (states : List LedState) (led : Led) : Option UInt8 :=
  (states.find? fun st => st.led = led).map LedState.brightness

lemma brightnessOf_cons (st : LedState) (states : List LedState) (led : Led) :
    brightnessOf (st :: states) led =
      if st.led = led then some st.brightness else brightnessOf states led := by
  unfold brightnessOf
  by_cases h : st.led = led
  · simp [h]
  · simp [h]

variable {led : Led}

lemma brightnessOf_eq_none_iff {states : List LedState} :
    brightnessOf states led = none ↔ led ∉ states.map LedState.led := by
  induction states with
  | nil => simp [brightnessOf]
  | cons st states ih =>
    rw [brightnessOf_cons, map_cons, mem_cons, not_or, ← ih]
    by_cases h : st.led = led
    · simp [h]
    · simp [h, Ne.symm h]

lemma brightnessOf_cachedStates (s : Leds) (led : Led) :
    brightnessOf (cachedStates s) led = some (s.cache led) := by
  have hmem : (⟨led, s.cache led⟩ : LedState) ∈ cachedStates s :=
    List.mem_map_of_mem (mem_finRange led)
  cases h : brightnessOf (cachedStates s) led with
  | none => exact absurd (List.mem_map_of_mem hmem) (brightnessOf_eq_none_iff.mp h)
  | some b =>
    obtain ⟨st, hfind, rfl⟩ := map_eq_some_iff.mp h
    obtain ⟨i, -, rfl⟩ := List.mem_map.mp (mem_of_find?_eq_some hfind)
    have hi : i = led := by simpa using find?_some hfind
    rw [hi]

lemma nodup_cachedStates (s : Leds) : ((cachedStates s).map LedState.led).Nodup := by
  rw [cachedStates, List.map_map]
  exact (List.map_id _).symm ▸ nodup_finRange ledCount

section
variable (isDuro : Bool) (bus : Bus)

/-- What several writes leave in the cache and in the register of an LED. -/
lemma ledsSet_spec {states : List LedState} (hnodup : (states.map LedState.led).Nodup)
    (s : Leds) (led : Led) :
    (ledsSet isDuro bus states s).2.cache led = (brightnessOf states led).getD (s.cache led) ∧
      (ledsSet isDuro bus states s).2.regs (iscRoute isDuro led) =
        if reaches (attempts bus led) then
          (brightnessOf states led).getD (s.regs (iscRoute isDuro led))
        else s.regs (iscRoute isDuro led) := by
  induction states generalizing s with
  | nil => simp [ledsSet, brightnessOf]
  | cons st states ih =>
    rw [map_cons, nodup_cons] at hnodup
    rw [ledsSet]
    rw [(ih hnodup.2 _).1, (ih hnodup.2 _).2, brightnessOf_cons, regs_tryWrite]
    by_cases hled : st.led = led
    · -- the LED is not among the other states
      have hnone : brightnessOf states led = none := brightnessOf_eq_none_iff.mpr (hled ▸ hnodup.1)
      simp only [hnone, hled, if_true, getD_none, getD_some, update_self]
      by_cases hreach : reaches (attempts bus led) = true
      · simp [hreach]
      · simp [hreach]
    · have hroute : iscRoute isDuro led ≠ iscRoute isDuro st.led := fun h =>
        hled (iscRoute_injective isDuro h).symm
      simp only [hled, if_false, update_of_ne (Ne.symm hled)]
      by_cases hreach : reaches (attempts bus st.led) = true
      · simp [hreach, update_of_ne hroute]
      · simp [hreach]

/-- The flag stays false if all writes succeed. -/
lemma flush_ledsSet (states : List LedState) (s : Leds) :
    (ledsSet isDuro bus states s).2.flush = false ↔
      s.flush = false ∧ ∀ st ∈ states, succeeds (attempts bus st.led) = true := by
  induction states generalizing s with
  | nil => simp [ledsSet]
  | cons st states ih =>
    rw [ledsSet]
    rw [ih, success_tryWrite, forall_mem_cons, Bool.or_eq_false_iff, Bool.not_eq_false', and_assoc]

/-! ### Calls -/

/-- The cache is as before a flush, and each register that the flush reaches holds it. -/
lemma ledCacheFlush_spec (s : Leds) (led : Led) :
    (ledCacheFlush isDuro bus s).2.cache led = s.cache led ∧
      (ledCacheFlush isDuro bus s).2.regs (iscRoute isDuro led) =
        if reaches (attempts bus led) then s.cache led else s.regs (iscRoute isDuro led) := by
  have hspec := ledsSet_spec isDuro bus (nodup_cachedStates s) s led
  rw [brightnessOf_cachedStates, getD_some, getD_some] at hspec
  exact hspec

end

/-- The state in which the modified states are written. -/
def Call.flushed (isDuro : Bool) (c : Call) (s : Leds) : Leds :=
  if s.flush then { (ledCacheFlush isDuro c.flushBus s).2 with flush := false } else s

section
variable {isDuro : Bool} {c : Call} {s : Leds}

lemma apply_eq (isDuro : Bool) (c : Call) (s : Leds) : c.apply isDuro s =
      (ledsSet isDuro c.setBus (modifiedStatesGet s c.states) (c.flushed isDuro s)).2 := by
  unfold Call.apply ledAdp8866LedsSet Call.flushed
  dsimp only
  split_ifs with hmodified hflush
  · rw [hmodified, ledsSet]
  · rw [hmodified, ledsSet]
  · rfl
  · rfl

lemma cache_flushed (led : Led) : (c.flushed isDuro s).cache led = s.cache led := by
  unfold Call.flushed
  split_ifs
  · exact (ledCacheFlush_spec _ _ s led).1
  · rfl

lemma regs_flushed (hflush : s.flush = true) (led : Led) :
    (c.flushed isDuro s).regs (iscRoute isDuro led) =
      if reaches (attempts c.flushBus led) then s.cache led else s.regs (iscRoute isDuro led) := by
  rw [Call.flushed, if_pos hflush]
  exact (ledCacheFlush_spec _ _ s led).2

lemma nodup_modifiedStatesGet (c : Call) (s : Leds) :
    ((modifiedStatesGet s c.states).map LedState.led).Nodup :=
  c.nodup.sublist (filter_sublist.map _)

/-- The flag is false after a call whose writes of modified states succeed. -/
lemma flush_apply_iff : (c.apply isDuro s).flush = false ↔
    ∀ st ∈ modifiedStatesGet s c.states, succeeds (attempts c.setBus st.led) = true := by
  have hflushed : (c.flushed isDuro s).flush = false := by
    unfold Call.flushed
    split_ifs with h
    · rfl
    · exact Bool.eq_false_iff.mpr h
  rw [apply_eq, flush_ledsSet]
  exact and_iff_right hflushed

/-- An LED that a call with false flag at its end sets holds its new brightness. -/
lemma regs_apply_of_mem (hflush : (c.apply isDuro s).flush = false)
    (hled : led ∈ (modifiedStatesGet s c.states).map LedState.led) :
    (c.apply isDuro s).regs (iscRoute isDuro led) = (c.apply isDuro s).cache led := by
  rw [apply_eq]
  obtain ⟨st, hst, rfl⟩ := List.mem_map.mp hled
  have hreach := reaches_of_succeeds (flush_apply_iff.mp hflush st hst)
  obtain ⟨hcache, hregs⟩ := ledsSet_spec isDuro c.setBus
    (nodup_modifiedStatesGet c s) (c.flushed isDuro s) st.led
  obtain ⟨b, hb⟩ := ne_none_iff_exists'.mp fun hnone =>
    brightnessOf_eq_none_iff.mp hnone hled
  rw [hcache, hregs, if_pos hreach, hb, getD_some, getD_some]

/-- Any other LED is left as the flush leaves it. -/
lemma apply_of_not_mem (isDuro : Bool)
    (hled : led ∉ (modifiedStatesGet s c.states).map LedState.led) :
    (c.apply isDuro s).regs (iscRoute isDuro led) =
        (c.flushed isDuro s).regs (iscRoute isDuro led) ∧
      (c.apply isDuro s).cache led = s.cache led := by
  obtain ⟨hcache, hregs⟩ := ledsSet_spec isDuro c.setBus
    (nodup_modifiedStatesGet c s) (c.flushed isDuro s) led
  rw [brightnessOf_eq_none_iff.mpr hled, getD_none] at hcache hregs
  rw [apply_eq]
  refine ⟨?_, hcache.trans (cache_flushed led)⟩
  rw [hregs, ite_self]

/-- A call keeps the registers coherent exactly if it repairs them. -/
lemma coherent_apply_iff (h : Coherent isDuro s) (c : Call) :
    Coherent isDuro (c.apply isDuro s) ↔ Repairs isDuro s c := by
  constructor
  · intro hafter hflush hwrites led hne
    by_cases hled : led ∈ (modifiedStatesGet s c.states).map LedState.led
    · exact .inl hled
    · refine .inr ?_
      obtain ⟨hregs, hcache⟩ := apply_of_not_mem isDuro hled
      have hcoherent := hafter (flush_apply_iff.mpr hwrites) led
      rw [hregs, hcache, regs_flushed hflush] at hcoherent
      by_contra hreach
      rw [if_neg hreach] at hcoherent
      exact hne hcoherent
  · intro hrepairs hfalse led
    by_cases hled : led ∈ (modifiedStatesGet s c.states).map LedState.led
    · exact regs_apply_of_mem hfalse hled
    · obtain ⟨hregs, hcache⟩ := apply_of_not_mem isDuro hled
      rw [hregs, hcache]
      cases hflush : s.flush with
      | false =>
        rw [Call.flushed, if_neg (by simp [hflush])]
        exact h hflush led
      | true =>
        rw [regs_flushed hflush]
        by_cases heq : s.regs (iscRoute isDuro led) = s.cache led
        · rw [heq, ite_self]
        · have hwrites := flush_apply_iff.mp hfalse
          rw [if_pos ((hrepairs hflush hwrites led heq).resolve_left hled)]

/-! ### Runs -/

/-- `configure` sets the current of each LED to zero. -/
lemma configured_iscRoute (regs : Nat → UInt8) (led : Led) :
    configured isDuro regs (iscRoute isDuro led) = 0 := by
  suffices hfold : ∀ (leds : List Led) (regs : Nat → UInt8),
      led ∈ leds ∨ regs (iscRoute isDuro led) = 0 →
      leds.foldl (fun regs i => update regs (iscRoute isDuro i) 0) regs
        (iscRoute isDuro led) = 0 from hfold _ regs (.inl (mem_finRange led))
  intro leds
  induction leds with
  | nil => exact fun regs h => h.resolve_left not_mem_nil
  | cons i leds ih =>
    intro regs h
    refine ih _ ?_
    by_cases hi : led = i
    · subst hi
      exact .inr (update_self ..)
    · rcases h with h | h
      · exact .inl ((mem_cons.mp h).resolve_left hi)
      · have hroute : iscRoute isDuro led ≠ iscRoute isDuro i :=
          fun heq => hi (iscRoute_injective isDuro heq)
        exact .inr ((update_of_ne hroute ..).trans h)

/-- The registers are coherent after the initialisation. -/
lemma coherent_init {bus : Bus} {regs : Nat → UInt8}
    (h : ledAdp8866Init isDuro bus regs = some s) : Coherent isDuro s := by
  intro _ led
  unfold ledAdp8866Init at h
  dsimp only at h
  split_ifs at h
  cases h
  obtain ⟨hcache, hregs⟩ := ledCacheFlush_spec isDuro bus
    ⟨configured isDuro regs, fun _ => 0, false⟩ led
  rw [hregs, hcache]
  dsimp only
  rw [configured_iscRoute, ite_self]

lemma runCalls_take_succ {calls : List Call} {n : Nat} (hc : calls[n]? = some c) :
    runCalls isDuro (calls.take (n + 1)) s = c.apply isDuro (runCalls isDuro (calls.take n) s) := by
  rw [take_add_one, hc, runCalls, foldl_append]
  rfl

end

/-- Between all calls the registers hold the cached brightness while the flag is false, exactly if
every call repairs what the flag stood for. -/
theorem forall_coherent_iff {isDuro : Bool} {bus : Bus} {regs : Nat → UInt8} {s : Leds}
    (hs : ledAdp8866Init isDuro bus regs = some s) (calls : List Call) :
    (∀ n ≤ calls.length, Coherent isDuro (runCalls isDuro (calls.take n) s)) ↔
      ∀ n c, calls[n]? = some c → Repairs isDuro (runCalls isDuro (calls.take n) s) c := by
  constructor
  · intro h n c hc
    obtain ⟨hn, -⟩ := List.getElem?_eq_some_iff.mp hc
    have hafter := h (n + 1) hn
    rw [runCalls_take_succ hc] at hafter
    exact (coherent_apply_iff (h n (Nat.le_of_lt hn)) c).mp hafter
  · intro h n
    induction n with
    | zero => exact fun _ => coherent_init hs
    | succ n ih =>
      intro hn
      have hc := getElem?_eq_getElem (Nat.lt_of_succ_le hn)
      rw [runCalls_take_succ hc]
      exact (coherent_apply_iff (ih (Nat.le_of_succ_le hn)) _).mpr (h n _ hc)

/-- Every write succeeds. -/
def okBus : Bus := fun _ _ => .success

/-- Every attempt times out. -/
def deadBus : Bus := fun _ _ => .timeout false

/-- The driver after an initialisation without failures. -/
def initial : Leds := (ledCacheFlush false okBus ⟨configured false fun _ => 0, fun _ => 0, false⟩).2

/-- The first LED is set while the bus does not answer. -/
def setFirst : Call where
  states := [⟨0, 5⟩]
  nodup := by decide
  flushBus := deadBus
  setBus := deadBus

lemma init_okBus : ledAdp8866Init false okBus (fun _ => 0) = some initial := rfl

/-- The same while the bus answers again. -/
def setAgain : Call := { setFirst with flushBus := okBus }

/-- The second call writes what the first one could not. -/
theorem forall_coherent_iff_setFirst : ledAdp8866Init false okBus (fun _ => 0) = some initial ∧
      (setFirst.apply false initial).flush = true ∧
      ∀ n ≤ 2, Coherent false (runCalls false ([setFirst, setAgain].take n) initial) := by
  refine ⟨init_okBus, rfl, (forall_coherent_iff init_okBus [setFirst, setAgain]).mpr ?_⟩
  intro n c hc
  match n with
  | 0 => exact fun hflush => absurd hflush (by decide)
  | 1 =>
    cases hc
    exact fun _ _ _ _ => .inr rfl
  | n + 2 => cases hc

/-- The flush of the second call fails as well, and clears the flag. -/
theorem not_coherent_setFirst_twice : ledAdp8866Init false okBus (fun _ => 0) = some initial ∧
      ¬Coherent false (runCalls false [setFirst, setFirst] initial) := by
  refine ⟨init_okBus, fun h => ?_⟩
  have hfirst := h (by decide) 0
  exact absurd hfirst (by decide)

end PiksiBuildroot.PiksiLeds
