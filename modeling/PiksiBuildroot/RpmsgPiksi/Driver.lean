import Mathlib.Data.List.FinRange
import PiksiBuildroot.Lib.Machine

/-!
# The rpmsg driver: probing and removing a channel

`drv_probe` attaches a channel by setting up one rpmsg endpoint for each character device, and
`drv_remove` takes them down again. `probed` refuses a second channel; it is set before the
endpoints are set up and only cleared by `drv_remove`, so that a probe that fails in a setup leaves
a driver that refuses every later channel.

Endpoints are numbered as the rpmsg bus creates them. `Owned` says which of them are destroyed: the
ones that no ready device holds, once each. It holds in every run, the rest in runs in which every
setup that is tried succeeds (`SetUp`).
-/

namespace PiksiBuildroot.RpmsgPiksi

open Lib List Option

/-- Source: `NUM_ENDPOINTS`. -/
abbrev numEndpoints : Nat := 3

/-- A channel of the rpmsg bus (`struct rpmsg_channel *`). -/
abbrev Channel := Nat

/-- Source: `struct ept_params`, the rpmsg parameters. An endpoint is the number under which the bus
created it. -/
structure EptParams where
  rpmsgChnl : Option Channel
  rpmsgEpt : Option Nat
  rpmsgReady : Bool
  deriving DecidableEq, Repr

/-- Source: `probed` and `dev_params`. `created` counts the endpoints the bus has created and
`destroyed` lists those that were given to `rpmsg_destroy_ept`. -/
structure Driver where
  probed : Bool
  epts : Fin numEndpoints → EptParams
  created : Nat
  destroyed : List Nat

/-- How `ept_rpmsg_setup` goes: the lock is interrupted, the bus has no endpoint, or it creates
one. -/
inductive Setup
  | interrupted
  | noEndpoint
  | created
  deriving DecidableEq, Repr

/-- Source: `ENODEV`. -/
def enodev : Int := 19

/-- Source: `EINTR`, from `mutex_lock_interruptible`. -/
def eintr : Int := 4

/-- Source: `ept_rpmsg_setup`. -/
def eptRpmsgSetup (d : Driver) (i : Fin numEndpoints) (rpdev : Channel) : Setup → Int × Driver
  | .interrupted => (-eintr, d)
  | .noEndpoint =>
    (-enodev, { d with
      epts := Function.update d.epts i
        { d.epts i with rpmsgChnl := some rpdev, rpmsgEpt := none } })
  | .created =>
    (0, { d with
      epts := Function.update d.epts i
        { rpmsgChnl := some rpdev, rpmsgEpt := some d.created, rpmsgReady := true }
      created := d.created + 1 })

/-- Source: `ept_rpmsg_remove`. -/
def eptRpmsgRemove (d : Driver) (i : Fin numEndpoints) : Driver := { d with
    epts := Function.update d.epts i { d.epts i with rpmsgReady := false }
    destroyed := (d.epts i).rpmsgEpt.toList ++ d.destroyed }

/-- Source: the loop of `drv_probe` over the indices that are left. `done` are the indices before
them, from the last one down: the order in which `while (--i >= 0)` removes them. -/
def probeLoop (rpdev : Channel) (setup : Fin numEndpoints → Setup) :
    List (Fin numEndpoints) → List (Fin numEndpoints) → Driver → Int × Driver
  | [], _, d => (0, d)
  | i :: rest, done, d =>
    let (status, d) := eptRpmsgSetup d i rpdev (setup i)
    if status ≠ 0 then (-enodev, done.foldl eptRpmsgRemove d)
    else probeLoop rpdev setup rest (i :: done) d

/-- Source: `drv_probe`. -/
def drvProbe (d : Driver) (rpdev : Channel) (setup : Fin numEndpoints → Setup) : Int × Driver :=
  if d.probed then (-enodev, d)
  else probeLoop rpdev setup (List.finRange numEndpoints) [] { d with probed := true }

/-- Source: `drv_remove`. -/
def drvRemove (d : Driver) : Driver :=
  { (List.finRange numEndpoints).foldl eptRpmsgRemove d with probed := false }

/-! ### Which endpoints are destroyed -/

/-- The device is ready. -/
def Driver.Ready (d : Driver) (i : Fin numEndpoints) : Prop := (d.epts i).rpmsgReady = true

instance (d : Driver) (i : Fin numEndpoints) : Decidable (d.Ready i) := by
  unfold Driver.Ready
  infer_instance

/-- A device that is ready holds the endpoint. -/
def Driver.Holds (d : Driver) (e : Nat) : Prop := ∃ i, d.Ready i ∧ (d.epts i).rpmsgEpt = some e

/-- The endpoints that were created and that no ready device holds are destroyed, once each. -/
structure Owned (d : Driver) : Prop where
  holds : ∀ i, d.Ready i → ∃ e, (d.epts i).rpmsgEpt = some e ∧ e < d.created
  apart : ∀ i j, d.Ready i → d.Ready j → (d.epts i).rpmsgEpt = (d.epts j).rpmsgEpt → i = j
  once : d.destroyed.Nodup
  mem_destroyed : ∀ e, e ∈ d.destroyed ↔ e < d.created ∧ ¬ d.Holds e

variable {d : Driver} {i : Fin numEndpoints} (rpdev : Channel)

@[simp] lemma eptRpmsgRemove_ready (j : Fin numEndpoints) :
    (eptRpmsgRemove d i).Ready j ↔ d.Ready j ∧ j ≠ i := by
  by_cases hj : j = i
  · simp [Driver.Ready, eptRpmsgRemove, hj]
  · simp [Driver.Ready, eptRpmsgRemove, hj]

lemma eptRpmsgRemove_ept (j : Fin numEndpoints) :
    ((eptRpmsgRemove d i).epts j).rpmsgEpt = (d.epts j).rpmsgEpt := by
  by_cases hj : j = i
  · simp [eptRpmsgRemove, hj]
  · simp [eptRpmsgRemove, hj]

/-- Taking down a device that is ready destroys the endpoint it holds, which no other holds. -/
lemma owned_eptRpmsgRemove (h : Owned d) (hi : d.Ready i) : Owned (eptRpmsgRemove d i) := by
  obtain ⟨e, hept, hcreated⟩ := h.holds i hi
  have hdestroyed : (eptRpmsgRemove d i).destroyed = e :: d.destroyed := by
    simp [eptRpmsgRemove, hept]
  have hheld : d.Holds e := ⟨i, hi, hept⟩
  refine ⟨fun j hj => ?_, fun j k hj hk heq => ?_, ?_, fun e' => ?_⟩
  · rw [eptRpmsgRemove_ept]
    exact h.holds j ((eptRpmsgRemove_ready j).mp hj).1
  · rw [eptRpmsgRemove_ept, eptRpmsgRemove_ept] at heq
    exact h.apart j k ((eptRpmsgRemove_ready j).mp hj).1 ((eptRpmsgRemove_ready k).mp hk).1 heq
  · rw [hdestroyed]
    exact nodup_cons.mpr ⟨fun hmem => ((h.mem_destroyed e).mp hmem).2 hheld, h.once⟩
  · have hholds : (eptRpmsgRemove d i).Holds e' ↔ d.Holds e' ∧ e' ≠ e := by
      simp only [Driver.Holds, eptRpmsgRemove_ready, eptRpmsgRemove_ept]
      constructor
      · rintro ⟨j, ⟨hj, hne⟩, hj'⟩
        refine ⟨⟨j, hj, hj'⟩, ?_⟩
        rintro rfl
        exact hne (h.apart j i hj hi (hj'.trans hept.symm))
      · rintro ⟨⟨j, hj, hj'⟩, hne⟩
        refine ⟨j, ⟨hj, ?_⟩, hj'⟩
        rintro rfl
        exact hne (some.inj (hj'.symm.trans hept))
    rw [hdestroyed, mem_cons, h.mem_destroyed, hholds]
    constructor
    · rintro (rfl | ⟨hlt, hnot⟩)
      · exact ⟨hcreated, fun hh => hh.2 rfl⟩
      · exact ⟨hlt, fun hh => hnot hh.1⟩
    · rintro ⟨hlt, hnot⟩
      by_cases heq : e' = e
      · exact .inl heq
      · exact .inr ⟨hlt, fun hh => hnot ⟨hh, heq⟩⟩

/-- Taking down distinct devices that are ready. -/
lemma owned_foldl_eptRpmsgRemove {done : List (Fin numEndpoints)} (hnodup : done.Nodup)
    (h : Owned d) (hready : ∀ i ∈ done, d.Ready i) :
    Owned (done.foldl eptRpmsgRemove d) ∧
      ∀ j, (done.foldl eptRpmsgRemove d).Ready j ↔ d.Ready j ∧ j ∉ done := by
  induction done generalizing d with
  | nil => exact ⟨h, fun j => by simp⟩
  | cons i done ih =>
    obtain ⟨hi, hnodup⟩ := nodup_cons.mp hnodup
    have hrest : ∀ j ∈ done, (eptRpmsgRemove d i).Ready j := by
      intro j hj
      refine (eptRpmsgRemove_ready j).mpr ⟨hready j (mem_cons_of_mem _ hj), ?_⟩
      rintro rfl
      exact hi hj
    obtain ⟨howned, hiff⟩ := ih hnodup (owned_eptRpmsgRemove h (hready i mem_cons_self)) hrest
    refine ⟨howned, fun j => ?_⟩
    rw [foldl_cons, hiff, eptRpmsgRemove_ready, mem_cons, not_or]
    exact and_assoc

lemma foldl_eptRpmsgRemove_probed (done : List (Fin numEndpoints)) (d : Driver) :
    (done.foldl eptRpmsgRemove d).probed = d.probed := by
  induction done generalizing d with
  | nil => rfl
  | cons i done ih => exact ih _

/-- A setup that succeeds makes the device ready with a new endpoint. -/
lemma eptRpmsgSetup_created_ready (j : Fin numEndpoints) :
    (eptRpmsgSetup d i rpdev .created).2.Ready j ↔ j = i ∨ d.Ready j := by
  by_cases hj : j = i
  · simp [Driver.Ready, eptRpmsgSetup, hj]
  · simp [Driver.Ready, eptRpmsgSetup, hj]

/-- A setup that creates an endpoint gives it to the device. -/
lemma owned_eptRpmsgSetup_created (h : Owned d) (hi : ¬ d.Ready i) :
    Owned (eptRpmsgSetup d i rpdev .created).2 := by
  have hself : ((eptRpmsgSetup d i rpdev .created).2.epts i).rpmsgEpt = some d.created := by
    simp [eptRpmsgSetup]
  have hother : ∀ j, j ≠ i → (eptRpmsgSetup d i rpdev .created).2.epts j = d.epts j := by
    intro j hj
    simp [eptRpmsgSetup, hj]
  have hready : ∀ j, (eptRpmsgSetup d i rpdev .created).2.Ready j → j ≠ i → d.Ready j :=
    fun j hj hne => ((eptRpmsgSetup_created_ready rpdev j).mp hj).resolve_left hne
  -- the endpoints that were held before are older than the new one
  have hold : ∀ j, d.Ready j → (d.epts j).rpmsgEpt ≠ some d.created := by
    intro j hj heq
    obtain ⟨e, hept, hlt⟩ := h.holds j hj
    rw [heq] at hept
    have := some.inj hept
    omega
  refine ⟨fun j hj => ?_, fun j k hj hk heq => ?_, h.once, fun e => ?_⟩
  · by_cases hji : j = i
    · exact ⟨d.created, hji ▸ hself, Nat.lt_succ_self _⟩
    · obtain ⟨e, hept, hlt⟩ := h.holds j (hready j hj hji)
      exact ⟨e, by rw [hother j hji, hept], Nat.lt_succ_of_lt hlt⟩
  · by_cases hji : j = i <;> by_cases hki : k = i
    · rw [hji, hki]
    · rw [hji, hself, hother k hki] at heq
      exact absurd heq.symm (hold k (hready k hk hki))
    · rw [hki, hself, hother j hji] at heq
      exact absurd heq (hold j (hready j hj hji))
    · rw [hother j hji, hother k hki] at heq
      exact h.apart j k (hready j hj hji) (hready k hk hki) heq
  · have hholds : (eptRpmsgSetup d i rpdev .created).2.Holds e ↔ d.Holds e ∨ e = d.created := by
      constructor
      · rintro ⟨j, hj, hept⟩
        by_cases hji : j = i
        · rw [hji, hself] at hept
          exact .inr (some.inj hept).symm
        · rw [hother j hji] at hept
          exact .inl ⟨j, hready j hj hji, hept⟩
      · rintro (⟨j, hj, hept⟩ | rfl)
        · have hji : j ≠ i := fun heq => hi (heq ▸ hj)
          exact ⟨j, (eptRpmsgSetup_created_ready rpdev j).mpr (.inr hj), by rw [hother j hji, hept]⟩
        · exact ⟨i, (eptRpmsgSetup_created_ready rpdev i).mpr (.inl rfl), hself⟩
    have hdestroyed : (eptRpmsgSetup d i rpdev .created).2.destroyed = d.destroyed := rfl
    have hcreated : (eptRpmsgSetup d i rpdev .created).2.created = d.created + 1 := rfl
    rw [hdestroyed, h.mem_destroyed, hholds, hcreated]
    constructor
    · rintro ⟨hlt, hnot⟩
      exact ⟨by omega, by rintro (hh | rfl); exacts [hnot hh, Nat.lt_irrefl _ hlt]⟩
    · rintro ⟨hlt, hnot⟩
      refine ⟨?_, fun hh => hnot (.inl hh)⟩
      omega

/-! ### Probing and removing -/

lemma eptRpmsgSetup_probed (setup : Setup) :
    (eptRpmsgSetup d i rpdev setup).2.probed = d.probed := by
  cases setup <;> rfl

/-- A setup that fails leaves every device that is ready as it was. -/
lemma owned_eptRpmsgSetup_failed (h : Owned d) (hi : ¬ d.Ready i) {setup : Setup}
    (hsetup : setup ≠ .created) :
    (eptRpmsgSetup d i rpdev setup).1 ≠ 0 ∧ Owned (eptRpmsgSetup d i rpdev setup).2 ∧
      ∀ j, (eptRpmsgSetup d i rpdev setup).2.Ready j ↔ d.Ready j := by
  cases setup with
  | created => exact absurd rfl hsetup
  | interrupted => exact ⟨by simp [eptRpmsgSetup, eintr], h, fun j => Iff.rfl⟩
  | noEndpoint =>
    have hready : ∀ j, (eptRpmsgSetup d i rpdev .noEndpoint).2.Ready j ↔ d.Ready j := by
      intro j
      by_cases hj : j = i <;> simp [Driver.Ready, eptRpmsgSetup, hj]
    have hept : ∀ j, d.Ready j → (eptRpmsgSetup d i rpdev .noEndpoint).2.epts j = d.epts j := by
      intro j hj
      have hne : j ≠ i := fun heq => hi (heq ▸ hj)
      simp [eptRpmsgSetup, hne]
    have hholds : ∀ e, (eptRpmsgSetup d i rpdev .noEndpoint).2.Holds e ↔ d.Holds e := by
      intro e
      refine exists_congr fun j => ?_
      rw [hready]
      refine and_congr_right fun hj => ?_
      rw [hept j hj]
    refine ⟨by simp [eptRpmsgSetup, enodev],
      ⟨fun j hj => ?_, fun j k hj hk heq => ?_, h.once, fun e => ?_⟩, hready⟩
    · rw [hept j ((hready j).mp hj)]
      exact h.holds j ((hready j).mp hj)
    · rw [hept j ((hready j).mp hj), hept k ((hready k).mp hk)] at heq
      exact h.apart j k ((hready j).mp hj) ((hready k).mp hk) heq
    · rw [hholds]
      exact h.mem_destroyed e

/-- How the loop of a probe ends: every device is ready, or none is. -/
lemma probeLoop_spec (setup : Fin numEndpoints → Setup) {rest done : List (Fin numEndpoints)}
    (hnodup : (rest ++ done).Nodup) (h : Owned d) (hready : ∀ j, d.Ready j ↔ j ∈ done) :
    Owned (probeLoop rpdev setup rest done d).2 ∧
      (probeLoop rpdev setup rest done d).2.probed = d.probed ∧
      (((∀ i ∈ rest, setup i = .created) ∧ (probeLoop rpdev setup rest done d).1 = 0 ∧
          ∀ j, (probeLoop rpdev setup rest done d).2.Ready j ↔ j ∈ rest ∨ j ∈ done) ∨
        (¬ (∀ i ∈ rest, setup i = .created) ∧ (probeLoop rpdev setup rest done d).1 = -enodev ∧
          ∀ j, ¬ (probeLoop rpdev setup rest done d).2.Ready j)) := by
  induction rest generalizing done d with
  | nil => exact ⟨h, rfl, .inl ⟨by simp, rfl, fun j => by simp [probeLoop, hready]⟩⟩
  | cons i rest ih =>
    obtain ⟨hi, hnodup'⟩ := nodup_cons.mp hnodup
    have hnot : ¬ d.Ready i := fun hi' => hi (mem_append_right _ ((hready i).mp hi'))
    by_cases hsetup : setup i = .created
    · have hloop : probeLoop rpdev setup (i :: rest) done d =
          probeLoop rpdev setup rest (i :: done) (eptRpmsgSetup d i rpdev .created).2 := by
        rw [probeLoop, hsetup]
        rfl
      have hnodup₁ : (rest ++ i :: done).Nodup :=
        (perm_middle.nodup_iff).mpr (nodup_cons.mpr ⟨hi, hnodup'⟩)
      have hready₁ : ∀ j, (eptRpmsgSetup d i rpdev .created).2.Ready j ↔ j ∈ i :: done := by
        intro j
        rw [eptRpmsgSetup_created_ready, hready, mem_cons]
      obtain ⟨howned, hprobed, hend⟩ :=
        ih hnodup₁ (owned_eptRpmsgSetup_created rpdev h hnot) hready₁
      rw [hloop]
      refine ⟨howned, hprobed.trans (eptRpmsgSetup_probed rpdev _), ?_⟩
      rcases hend with ⟨hall, hstatus, hend⟩ | ⟨hall, hstatus, hend⟩
      · refine .inl ⟨forall_mem_cons.mpr ⟨hsetup, hall⟩, hstatus, fun j => ?_⟩
        rw [hend, mem_cons, mem_cons]
        tauto
      · exact .inr ⟨fun hh => hall (forall_mem_cons.mp hh).2, hstatus, hend⟩
    · obtain ⟨hstatus, howned, hready₁⟩ := owned_eptRpmsgSetup_failed rpdev h hnot hsetup
      have hloop : probeLoop rpdev setup (i :: rest) done d =
          (-enodev, done.foldl eptRpmsgRemove (eptRpmsgSetup d i rpdev (setup i)).2) := by
        exact if_pos hstatus
      have hdone : ∀ j ∈ done, (eptRpmsgSetup d i rpdev (setup i)).2.Ready j :=
        fun j hj => (hready₁ j).mpr ((hready j).mpr hj)
      obtain ⟨hremoved, hnone⟩ :=
        owned_foldl_eptRpmsgRemove (List.Nodup.of_append_right hnodup') howned hdone
      rw [hloop]
      refine ⟨hremoved, ?_, .inr ⟨fun hh => hsetup (hh i mem_cons_self), rfl, fun j hj => ?_⟩⟩
      · exact (foldl_eptRpmsgRemove_probed _ _).trans (eptRpmsgSetup_probed rpdev _)
      · obtain ⟨hj, hnotdone⟩ := (hnone j).mp hj
        exact hnotdone ((hready j).mp ((hready₁ j).mp hj))

/-- A probe of a driver without a ready device that is not refused. -/
lemma drvProbe_spec (setup : Fin numEndpoints → Setup) (hprobed : d.probed = false)
    (h : Owned d) (hnone : ∀ j, ¬ d.Ready j) :
    Owned (drvProbe d rpdev setup).2 ∧ (drvProbe d rpdev setup).2.probed = true ∧
      (((∀ i, setup i = .created) ∧ (drvProbe d rpdev setup).1 = 0 ∧
          ∀ j, (drvProbe d rpdev setup).2.Ready j) ∨
        (¬ (∀ i, setup i = .created) ∧ (drvProbe d rpdev setup).1 = -enodev ∧
          ∀ j, ¬ (drvProbe d rpdev setup).2.Ready j)) := by
  have hloop : drvProbe d rpdev setup =
      probeLoop rpdev setup (List.finRange numEndpoints) [] { d with probed := true } := by
    simp [drvProbe, hprobed]
  have howned : Owned { d with probed := true } := ⟨h.holds, h.apart, h.once, h.mem_destroyed⟩
  have hempty : ∀ j, ({ d with probed := true } : Driver).Ready j ↔
      j ∈ ([] : List (Fin numEndpoints)) := by
    exact fun j => iff_of_false (hnone j) not_mem_nil
  have hnodup : (List.finRange numEndpoints ++ []).Nodup := by decide
  have hspec := probeLoop_spec rpdev setup hnodup howned hempty
  rw [← hloop] at hspec
  simpa using hspec

lemma drvRemove_spec (h : Owned d) (hall : ∀ j, d.Ready j) :
    Owned (drvRemove d) ∧ ∀ j, ¬ (drvRemove d).Ready j := by
  obtain ⟨howned, hnone⟩ :=
    owned_foldl_eptRpmsgRemove (nodup_finRange numEndpoints) h fun i _ => hall i
  refine ⟨⟨howned.holds, howned.apart, howned.once, howned.mem_destroyed⟩, fun j hj => ?_⟩
  exact ((hnone j).mp hj).2 (mem_finRange j)

/-! ### Runs -/

/-- The driver and the channel the bus has attached: the one whose probe returned zero and that has
not been removed since. -/
structure Bus where
  driver : Driver
  attached : Option Channel

/-- The calls the bus makes. -/
inductive Call
  | probe (rpdev : Channel) (setup : Fin numEndpoints → Setup)
  | remove

/-- A channel is removed only after its probe succeeded. -/
def busStep (s : Bus) : Call → Option Bus
  | .probe rpdev setup =>
    let probe := drvProbe s.driver rpdev setup
    some { driver := probe.2, attached := if probe.1 = 0 then some rpdev else s.attached }
  | .remove =>
    if s.attached.isSome then some { driver := drvRemove s.driver, attached := none } else none

/-- The driver after `init`. -/
def bus : Machine Bus Call where
  init := { driver := { probed := false, epts := fun _ => ⟨none, none, false⟩, created := 0,
                        destroyed := [] },
            attached := none }
  step := busStep

/-- Every setup that the call tries succeeds. -/
def SetUp (s : Bus) : Call → Prop
  | .probe _ setup => s.driver.probed = false → ∀ i, setup i = .created
  | .remove => True

instance (s : Bus) (c : Call) : Decidable (SetUp s c) := by
  cases c <;> unfold SetUp <;> infer_instance

/-- The devices are ready while a channel is attached, and only then. -/
structure Attached (s : Bus) : Prop where
  owned : Owned s.driver
  ready : s.attached.isSome → ∀ j, s.driver.Ready j
  idle : s.attached.isSome = false → ∀ j, ¬ s.driver.Ready j
  probed : s.attached.isSome → s.driver.probed = true

lemma attached_init : Attached bus.init where
  owned := ⟨fun j hj => by simp [bus, Driver.Ready] at hj, fun j k hj => by
    simp [bus, Driver.Ready] at hj, nodup_nil, fun e => by simp [bus]⟩
  ready hs := by simp [bus] at hs
  idle _ j := by simp [bus, Driver.Ready]
  probed hs := by simp [bus] at hs

lemma drvProbe_refused (setup : Fin numEndpoints → Setup) (hprobed : d.probed = true) :
    drvProbe d rpdev setup = (-enodev, d) := by
  simp [drvProbe, hprobed]

/-- A driver that is not probed has no channel attached. -/
lemma Attached.idle_of_not_probed {s : Bus} (h : Attached s) (hprobed : s.driver.probed = false) :
    s.attached.isSome = false := by
  by_contra hs
  rw [Bool.not_eq_false] at hs
  simp [h.probed hs] at hprobed

variable {s s' : Bus} {c : Call}

/-- What a call can do: refuse, attach a channel, fail in a setup, remove a channel. -/
lemma bus_step_cases (h : Attached s) (hstep : bus.step s c = some s') : s' = s ∨
    (Owned s'.driver ∧ s'.attached.isSome ∧ s'.driver.probed = true ∧ ∀ j, s'.driver.Ready j) ∨
    (¬ SetUp s c ∧ Owned s'.driver ∧ s'.attached.isSome = false ∧ ∀ j, ¬ s'.driver.Ready j) ∨
    (Owned s'.driver ∧ s'.attached.isSome = false ∧ s'.driver.probed = false ∧
      ∀ j, ¬ s'.driver.Ready j) := by
  cases c with
  | probe rpdev setup =>
    simp only [bus, busStep, some.injEq] at hstep
    subst hstep
    cases hprobed : s.driver.probed with
    | true =>
      refine .inl ?_
      rw [drvProbe_refused rpdev setup hprobed]
      rfl
    | false =>
      have hnone := h.idle_of_not_probed hprobed
      obtain ⟨howned, hp, hend⟩ := drvProbe_spec rpdev setup hprobed h.owned (h.idle hnone)
      rcases hend with ⟨-, hstatus, hready⟩ | ⟨hfailed, hstatus, hready⟩
      · exact .inr (.inl ⟨howned, by simp [hstatus], hp, hready⟩)
      · refine .inr (.inr (.inl ⟨fun hsetup => hfailed (hsetup hprobed), howned, ?_, hready⟩))
        simp [hstatus, enodev, hnone]
  | remove =>
    simp only [bus, busStep] at hstep
    split at hstep
    · next hs =>
        cases hstep
        obtain ⟨howned, hnone⟩ := drvRemove_spec h.owned (h.ready hs)
        exact .inr (.inr (.inr ⟨howned, rfl, rfl, hnone⟩))
    · cases hstep

lemma attached_step (h : Attached s) (hstep : bus.step s c = some s') : Attached s' := by
  rcases bus_step_cases h hstep with rfl | ⟨howned, hs, hp, hready⟩ | ⟨-, howned, hs, hready⟩ |
    ⟨howned, hs, -, hready⟩
  · exact h
  · exact ⟨howned, fun _ => hready, fun hs' => by simp [hs] at hs', fun _ => hp⟩
  · exact ⟨howned, fun hs' => by simp [hs] at hs', fun _ => hready, fun hs' => by simp [hs] at hs'⟩
  · exact ⟨howned, fun hs' => by simp [hs] at hs', fun _ => hready, fun hs' => by simp [hs] at hs'⟩

/-- Where every setup succeeds, a driver without an attached channel is not probed. -/
lemma probed_step (h : Attached s) (hp : s.attached.isSome = false → s.driver.probed = false)
    (hsetup : SetUp s c) (hstep : bus.step s c = some s') :
    s'.attached.isSome = false → s'.driver.probed = false := by
  rcases bus_step_cases h hstep with rfl | ⟨-, hs, -⟩ | ⟨hfailed, -⟩ | ⟨-, -, hp', -⟩
  · exact hp
  · intro hs'
    simp [hs] at hs'
  · exact absurd hsetup hfailed
  · exact fun _ => hp'

/-- In every run the endpoints that no ready device holds are destroyed, once each, and these are
all of them when no channel is attached. In runs in which every setup that is tried succeeds,
`probed` tells whether all devices are ready, a probe that fails changes nothing, and a probe
without an attached channel whose setups succeed returns zero. -/
theorem probed_iff_of_reaches (s : Bus) : (bus.Reaches s → s.driver.destroyed.Nodup ∧
      (∀ e, e ∈ s.driver.destroyed ↔ e < s.driver.created ∧ ¬ s.driver.Holds e) ∧
      (s.attached = none → ∀ e, e < s.driver.created → e ∈ s.driver.destroyed)) ∧
    ((bus.restrict SetUp).Reaches s → (s.driver.probed = true ↔ ∀ i, s.driver.Ready i) ∧
      (∀ rpdev setup, SetUp s (.probe rpdev setup) → (drvProbe s.driver rpdev setup).1 ≠ 0 →
        (drvProbe s.driver rpdev setup).2 = s.driver) ∧
      (s.attached = none → ∀ rpdev, (drvProbe s.driver rpdev fun _ => .created).1 = 0)) := by
  have hattached : bus.Reaches s → Attached s := by
    intro hs
    exact @Machine.Reaches.invariant _ _ _ Attached attached_init
      (fun _ _ _ h hstep => attached_step h hstep) s hs
  refine ⟨fun hs => ?_, fun hs => ?_⟩
  · have h := hattached hs
    refine ⟨h.owned.once, h.owned.mem_destroyed, fun hnone e he => ?_⟩
    refine (h.owned.mem_destroyed e).mpr ⟨he, ?_⟩
    rintro ⟨i, hi, -⟩
    exact h.idle (by simp [hnone]) i hi
  · have h := hattached hs.of_restrict
    have hidle : s.attached.isSome = false → s.driver.probed = false := by
      refine (hs.invariant_restrict (fun s => Attached s ∧
        (s.attached.isSome = false → s.driver.probed = false)) ⟨attached_init, fun _ => rfl⟩ ?_).2
      rintro s c s' ⟨h, hp⟩ hsetup hstep
      exact ⟨attached_step h hstep, probed_step h hp hsetup hstep⟩
    refine ⟨⟨fun hprobed => ?_, fun hall => ?_⟩, fun rpdev setup hsetup hstatus => ?_,
      fun hnone rpdev => ?_⟩
    · cases hs : s.attached.isSome with
      | true => exact h.ready hs
      | false => simp [hidle hs] at hprobed
    · cases hs : s.attached.isSome with
      | true => exact h.probed hs
      | false => exact absurd (hall 0) (h.idle hs 0)
    · cases hprobed : s.driver.probed with
      | true => rw [drvProbe_refused rpdev setup hprobed]
      | false =>
        obtain ⟨-, -, hend⟩ := drvProbe_spec rpdev setup hprobed h.owned
          (h.idle (h.idle_of_not_probed hprobed))
        rcases hend with ⟨-, hzero, -⟩ | ⟨hfailed, -, -⟩
        · exact absurd hzero hstatus
        · exact absurd (hsetup hprobed) hfailed
    · have hs : s.attached.isSome = false := by simp [hnone]
      obtain ⟨-, -, hend⟩ := drvProbe_spec rpdev (fun _ => Setup.created) (hidle hs)
        h.owned (h.idle hs)
      rcases hend with ⟨-, hzero, -⟩ | ⟨hfailed, -, -⟩
      · exact hzero
      · exact absurd (fun _ => rfl) hfailed

/-- A channel is attached, another one refused, and the first removed and attached again. -/
theorem probed_iff_of_reaches_twice :
    ∃ s, (bus.restrict SetUp).Reaches s ∧ s.attached = some 7 ∧ s.driver.created = 6 ∧
      s.driver.destroyed = [2, 1, 0] ∧ s.driver.destroyed.Nodup ∧
      (s.driver.probed = true ↔ ∀ i, s.driver.Ready i) := by
  obtain ⟨s, hs, hattached, hcreated, hdestroyed⟩ : ∃ s, (bus.restrict SetUp).Reaches s ∧
      s.attached = some 7 ∧ s.driver.created = 6 ∧ s.driver.destroyed = [2, 1, 0] :=
    Machine.exists_reaches_of_run [.probe 7 fun _ => .created, .probe 8 fun _ => .noEndpoint,
      .remove, .probe 7 fun _ => .created] (by decide +kernel)
  exact ⟨s, hs, hattached, hcreated, hdestroyed, ((probed_iff_of_reaches s).1 hs.of_restrict).1,
    ((probed_iff_of_reaches s).2 hs).1⟩

/-- The setup of the second device fails: `probed` stays set without a ready device, and a probe
whose setups all succeed is refused. -/
theorem probed_afterFailedSetup :
    ∃ s, bus.Reaches s ∧ s.attached = none ∧ s.driver.probed = true ∧ ¬ s.driver.Ready 0 ∧
      (drvProbe s.driver 7 fun _ => .created).1 = -enodev := by
  obtain ⟨s, hs, hnone, hprobed, hready⟩ : ∃ s, bus.Reaches s ∧ s.attached = none ∧
      s.driver.probed = true ∧ (s.driver.epts 0).rpmsgReady = false :=
    Machine.exists_reaches_of_run [.probe 7 fun i => if i = 1 then .noEndpoint else .created]
      (by decide +kernel)
  exact ⟨s, hs, hnone, hprobed, by simp [Driver.Ready, hready],
    by rw [drvProbe_refused 7 _ hprobed]⟩

end PiksiBuildroot.RpmsgPiksi
