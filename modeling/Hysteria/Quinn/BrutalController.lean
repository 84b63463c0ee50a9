import Hysteria.Quinn.BbrModes
import Hysteria.Quinn.BrutalPacing

/-! The controller of every connection, `brutal.rs`: it runs BBR until a bandwidth target is set, and from
then on paces by the target. The target is shared with the task that authenticates, so that every
call may find another one. -/
namespace Hysteria.Quinn
open Lib

def initialWindowNoRtt : Nat := 10240

structure BrutalController where
  brutal : Brutal
  fallback : Bbr
  currentMtu : Nat
  hasRttSample : Bool := false
  smoothedRtt : Nat := 0

/-- A call of the controller with the target it finds, and with the estimate of the round trip that an
acknowledgement comes with. -/
structure ControllerCall where
  target : UInt64
  call : Bbr.Call
  hasSample : Bool := false
  rtt : Nat := 0

def asSecsF64 (rounding : Rounding) (nanos : Nat) : Rat :=
  rounding.double (rounding.double (nanos / 1000000000 : Nat) + rounding.double ((nanos % 1000000000 : Nat) / 1000000000))

namespace BrutalController

def new (rounding : Rounding) (tuning : BbrTuning) (config : BbrConfig) (now : Nat) (currentMtu : UInt16) :
    BrutalController where
  brutal := .new now
  fallback := .new rounding tuning config currentMtu
  currentMtu := currentMtu.toNat

def doubledProduct (rounding : Rounding) (target : UInt64) (rtt : Nat) : Rat :=
  rounding.double (rounding.double (rounding.double target.toNat * asSecsF64 rounding rtt) * 2)

section
variable (controller : BrutalController)

def callFallback (profile : Profile) (rounding : Rounding) (tuning : BbrTuning) (call : Bbr.Call) :
    Exec Empty BrutalController := do
  let fallback ← controller.fallback.step profile rounding tuning call
  return { controller with fallback }

def onAckEvent (profile : Profile) (rounding : Rounding) (tuning : BbrTuning) (target : UInt64) (now : Nat)
    (event : Bbr.AckEvent) (draw : Fin 7) (hasSample : Bool) (rtt : Nat) : Exec Empty BrutalController :=
  let controller := { controller with hasRttSample := hasSample, smoothedRtt := rtt }
  if target ≠ 0 then
    .ok { controller with
      brutal := controller.brutal.updateAckRate now event.ackedPackets.length event.lostPackets.length }
  else controller.callFallback profile rounding tuning (.ackEvent now event draw)

def onMtuUpdate (profile : Profile) (rounding : Rounding) (tuning : BbrTuning) (newMtu : UInt16) :
    Exec Empty BrutalController :=
  { controller with currentMtu := newMtu.toNat }.callFallback profile rounding tuning (.mtuUpdate newMtu)

def brutalWindow (rounding : Rounding) (target : UInt64) : Nat :=
  if !controller.hasRttSample || controller.smoothedRtt == 0 then max initialWindowNoRtt controller.currentMtu
  else
    let cwnd := truncU64 (rounding.double
      (doubledProduct rounding target controller.smoothedRtt / max controller.brutal.ackRate minAckRate))
    max cwnd controller.currentMtu

def window (rounding : Rounding) (target : UInt64) : Nat :=
  if target = 0 then controller.fallback.window else controller.brutalWindow rounding target

def initialWindow (target : UInt64) : Nat :=
  if target = 0 then controller.fallback.config.initialWindow else max initialWindowNoRtt controller.currentMtu

/-- The window and the pacing rate of `metrics`. `window` loads the target once more and may find another. -/
def metrics (profile : Profile) (rounding : Rounding) (target reloaded : UInt64) : Exec Empty (Nat × Option Nat) :=
  if target = 0 then .ok (controller.fallback.window, controller.fallback.pacingRateMetric)
  else do
    let pacingRate ← controller.brutal.pacingRateBps profile target
    return (controller.window rounding reloaded, some pacingRate)

end

/-- BBR is only called while there is no target, apart from the size of the datagrams. -/
def step (profile : Profile) (rounding : Rounding) (tuning : BbrTuning) (controller : BrutalController)
    (call : ControllerCall) : Exec Empty BrutalController :=
  match call.call with
  | .ackEvent now event draw =>
    controller.onAckEvent profile rounding tuning call.target now event draw call.hasSample call.rtt
  | .mtuUpdate newMtu => controller.onMtuUpdate profile rounding tuning newMtu
  | other => if call.target = 0 then controller.callFallback profile rounding tuning other else .ok controller

def run (profile : Profile) (rounding : Rounding) (tuning : BbrTuning) (config : BbrConfig) (now : Nat)
    (currentMtu : UInt16) (calls : List ControllerCall) : Exec Empty BrutalController :=
  calls.foldlM (step profile rounding tuning) (new rounding tuning config now currentMtu)

end BrutalController

def ControllerCall.forFallback (call : ControllerCall) : Option Bbr.Call :=
  match call.call with
  | .mtuUpdate newMtu => some (.mtuUpdate newMtu)
  | other => if call.target = 0 then some other else none

def ControllerCall.forAckRate (call : ControllerCall) : Option AckCall :=
  match call.call with
  | .ackEvent now event _ =>
    if call.target ≠ 0 then some ⟨now, event.ackedPackets.length, event.lostPackets.length⟩ else none
  | _ => none

namespace BrutalController

section
variable {profile : Profile} {rounding : Rounding} {tuning : BbrTuning} {controller controller' : BrutalController}

theorem callFallback_eq_ok {call : Bbr.Call} :
    controller.callFallback profile rounding tuning call = .ok controller' ↔
      ∃ fallback, controller.fallback.step profile rounding tuning call = .ok fallback ∧
        controller' = { controller with fallback } := by
  unfold callFallback
  rw [bind_eq_ok]
  constructor
  · rintro ⟨fallback, hstep, h⟩
    cases h
    exact ⟨fallback, hstep, rfl⟩
  · rintro ⟨fallback, hstep, rfl⟩
    exact ⟨fallback, hstep, rfl⟩

/-- A call in its two halves: what BBR makes of it, and what the acknowledgement rate does. -/
theorem step_parts {call : ControllerCall} (h : controller.step profile rounding tuning call = .ok controller') :
    call.forFallback.toList.foldlM (Bbr.step profile rounding tuning) controller.fallback = .ok controller'.fallback ∧
      controller'.brutal = call.forAckRate.toList.foldl Brutal.call controller.brutal := by
  obtain ⟨target, call, hasSample, rtt⟩ := call
  unfold ControllerCall.forFallback ControllerCall.forAckRate
  cases call with
  | mtuUpdate newMtu =>
    obtain ⟨fallback, hstep, rfl⟩ := callFallback_eq_ok.mp h
    exact ⟨by simpa using hstep, rfl⟩
  | ackEvent now event draw =>
    unfold step onAckEvent at h
    dsimp only at h ⊢
    split at h
    next hset =>
      cases h
      rw [if_neg hset, if_pos hset]
      exact ⟨rfl, rfl⟩
    next hzero =>
      obtain ⟨fallback, hstep, rfl⟩ := callFallback_eq_ok.mp h
      rw [if_pos (not_not.mp hzero), if_neg hzero]
      exact ⟨by simpa using hstep, rfl⟩
  | _ =>
    unfold step at h
    dsimp only at h ⊢
    split at h
    next hzero =>
      obtain ⟨fallback, hstep, rfl⟩ := callFallback_eq_ok.mp h
      rw [if_pos hzero]
      exact ⟨by simpa using hstep, rfl⟩
    next hset =>
      cases h
      rw [if_neg hset]
      exact ⟨rfl, rfl⟩

theorem step_mtu {call : ControllerCall} {mtu : Nat} (hmtu : mtu ≤ controller.currentMtu)
    (hcall : call.call.MtuAtLeast mtu) (h : controller.step profile rounding tuning call = .ok controller') :
    mtu ≤ controller'.currentMtu := by
  obtain ⟨target, call, hasSample, rtt⟩ := call
  cases call with
  | mtuUpdate newMtu =>
    obtain ⟨fallback, hstep, rfl⟩ := callFallback_eq_ok.mp h
    exact hcall
  | ackEvent now event draw =>
    unfold step onAckEvent at h
    dsimp only at h
    split at h
    · cases h
      exact hmtu
    · obtain ⟨fallback, hstep, rfl⟩ := callFallback_eq_ok.mp h
      exact hmtu
  | _ =>
    unfold step at h
    dsimp only at h
    split at h
    · obtain ⟨fallback, hstep, rfl⟩ := callFallback_eq_ok.mp h
      exact hmtu
    · cases h
      exact hmtu

variable {config : BbrConfig} {now : Nat} {currentMtu : UInt16} {calls : List ControllerCall}

theorem fallback_of_run (h : run profile rounding tuning config now currentMtu calls = .ok controller) :
    Bbr.run profile rounding tuning config currentMtu (calls.filterMap ControllerCall.forFallback) =
      .ok controller.fallback :=
  foldlM_part (f := step profile rounding tuning) (p := fallback) (fun _ _ _ hstep => (step_parts hstep).1) h

theorem ackRate_of_run (h : run profile rounding tuning config now currentMtu calls = .ok controller) :
    minAckRate ≤ controller.brutal.ackRate ∧ controller.brutal.ackRate ≤ 1 := by
  refine foldlM_induction (I := fun controller => minAckRate ≤ controller.brutal.ackRate ∧ controller.brutal.ackRate ≤ 1)
    (fun call _ _ _ hbounds hstep => ?_) ⟨show minAckRate ≤ 1 by decide +kernel, le_refl 1⟩ h
  rw [(step_parts hstep).2]
  cases call.forAckRate with
  | none => exact hbounds
  | some last => exact Brutal.ackRate_call_bounds _ last

theorem mtuAtLeast_forFallback {mtu : Nat} (hcalls : ∀ call ∈ calls, call.call.MtuAtLeast mtu) :
    ∀ call ∈ calls.filterMap ControllerCall.forFallback, call.MtuAtLeast mtu := by
  intro call hmem
  obtain ⟨origin, horigin, hcall⟩ := List.mem_filterMap.mp hmem
  have hle := hcalls origin horigin
  unfold ControllerCall.forFallback at hcall
  split at hcall
  next heq =>
    cases hcall
    rwa [heq] at hle
  next heq =>
    rw [Option.ite_none_right_eq_some] at hcall
    obtain ⟨-, hcall⟩ := hcall
    cases hcall
    exact hle

theorem doubledProduct_nonneg (hrounding : rounding.Ordered) (target : UInt64) (rtt : Nat) :
    0 ≤ doubledProduct rounding target rtt := by
  have hwhole := hrounding.double_nonneg (Nat.cast_nonneg (rtt / 1000000000))
  have hpart : 0 ≤ rounding.double ((rtt % 1000000000 : Nat) / 1000000000) := hrounding.double_nonneg (by positivity)
  have hsecs : 0 ≤ asSecsF64 rounding rtt := hrounding.double_nonneg (add_nonneg hwhole hpart)
  have htarget := hrounding.double_nonneg (Nat.cast_nonneg target.toNat)
  have hproduct := hrounding.double_nonneg (mul_nonneg htarget hsecs)
  exact hrounding.double_nonneg (mul_nonneg hproduct (by norm_num))

/-- The rate of acknowledgements widens the window by a quarter at most. -/
theorem brutalWindow_bounds (hrounding : rounding.Ordered) (hlow : minAckRate ≤ controller.brutal.ackRate)
    (hhigh : controller.brutal.ackRate ≤ 1) (hsample : controller.hasRttSample) (hrtt : controller.smoothedRtt ≠ 0)
    (target : UInt64) :
    let product := doubledProduct rounding target controller.smoothedRtt
    truncU64 (rounding.double product) ≤ controller.brutalWindow rounding target ∧
      controller.brutalWindow rounding target ≤
        max (truncU64 (rounding.double (product * (5 / 4)))) controller.currentMtu := by
  have hnonneg := doubledProduct_nonneg hrounding target controller.smoothedRtt
  have hpos : 0 < controller.brutal.ackRate := lt_of_lt_of_le (by decide +kernel) hlow
  have hfloor : (0 : Rat) < minAckRate := by decide +kernel
  have hquarter : minAckRate = 4 / 5 := rfl
  unfold brutalWindow
  rw [if_neg (by simp [hsample, hrtt]), max_eq_left hlow]
  dsimp only
  generalize doubledProduct rounding target controller.smoothedRtt = product at hnonneg ⊢
  have hge : product ≤ product / controller.brutal.ackRate := le_div_self hnonneg hpos hhigh
  have hle : product / controller.brutal.ackRate ≤ product * (5 / 4) := by
    calc product / controller.brutal.ackRate ≤ product / minAckRate := div_le_div_of_nonneg_left hnonneg hfloor hlow
      _ = product * (5 / 4) := by rw [hquarter]; ring
  exact ⟨Nat.le_trans (truncU64_mono (hrounding.mono hge)) (Nat.le_max_left _ _),
    max_le_max_right _ (truncU64_mono (hrounding.mono hle))⟩

theorem currentMtu_le_brutalWindow (target : UInt64) :
    controller.currentMtu ≤ controller.brutalWindow rounding target := by
  unfold brutalWindow
  split
  all_goals exact Nat.le_max_right _ _

/-- Whatever is lost and whenever the target changes: the window without a target leaves room for four datagrams of
the smallest size that the path has had, or for the initial window if that is less; the one for a target leaves room
for a datagram and, once the round trip is known, is between two and two and a half times what the target sends in it. -/
theorem window_of_run {mtu : Nat} (hrounding : rounding.Ordered) (hmtu : mtu ≤ currentMtu.toNat)
    (hcalls : ∀ call ∈ calls, call.call.MtuAtLeast mtu)
    (h : run profile rounding tuning config now currentMtu calls = .ok controller) (target : UInt64) :
    (target = 0 → min config.initialWindow (4 * mtu) ≤ controller.window rounding target) ∧
      (target ≠ 0 → mtu ≤ controller.window rounding target ∧
        (controller.hasRttSample → controller.smoothedRtt ≠ 0 →
          let product := doubledProduct rounding target controller.smoothedRtt
          truncU64 (rounding.double product) ≤ controller.window rounding target ∧
            controller.window rounding target ≤
              max (truncU64 (rounding.double (product * (5 / 4)))) controller.currentMtu)) := by
  refine ⟨fun hzero => ?_, fun hset => ?_⟩
  · rw [window, if_pos hzero]
    exact Bbr.floor_le_window hmtu (mtuAtLeast_forFallback hcalls) (fallback_of_run h)
  · rw [window, if_neg hset]
    obtain ⟨hlow, hhigh⟩ := ackRate_of_run h
    have hcurrent : mtu ≤ controller.currentMtu :=
      foldlM_induction (I := fun controller => mtu ≤ controller.currentMtu)
        (fun call hmem _ _ hle hstep => step_mtu hle (hcalls call hmem) hstep) hmtu h
    refine ⟨Nat.le_trans hcurrent (currentMtu_le_brutalWindow target), fun hsample hrtt => ?_⟩
    exact brutalWindow_bounds hrounding hlow hhigh hsample hrtt target

end

def sampleLoss : List Bbr.Call :=
  Bbr.sampleTrips ++ Bbr.sampleTrip 7 600 ++
    [.sent 700000000 1452 8 6000, .sent 700000000 1452 9 6000, .sent 700000000 1452 10 6000,
      .sent 700000000 1452 11 6000, .congestionEvent true 4356,
      .ackEvent 800000000 ⟨5808, [⟨11, 1452⟩], [⟨8, 1452⟩, ⟨9, 1452⟩, ⟨10, 1452⟩], false⟩ Bbr.sampleDraw,
      .mtuUpdate 1200]

def sampleSwitch : List ControllerCall :=
  sampleLoss.map (fun call => ⟨0, call, true, 100000000⟩) ++
    [⟨1000000, .ackEvent 900000000 ⟨60000, List.replicate 45 ⟨12, 1200⟩, List.replicate 5 ⟨13, 1200⟩, false⟩
      Bbr.sampleDraw, true, 100000000⟩]

theorem window_of_run_switched : ∃ controller, run ⟨true⟩ {} {} {} 0 1452 sampleSwitch = .ok controller ∧
    controller.fallback.recoveryState.inRecovery ∧ controller.brutal.ackRate = 9 / 10 ∧
    4800 ≤ controller.window {} 0 ∧ 200000 ≤ controller.window {} 1000000 ∧
    controller.window {} 1000000 ≤ 250000 := by
  have hrun : (run ⟨true⟩ {} {} {} 0 1452 sampleSwitch).toOption.map (fun controller =>
      (controller.fallback.recoveryState.inRecovery, controller.brutal.ackRate, controller.hasRttSample,
        controller.smoothedRtt, controller.currentMtu)) = some (true, 9 / 10, true, 100000000, 1200) := by
    decide +kernel
  obtain ⟨controller, hrun, hstate⟩ := ok_of_toOption hrun
  simp only [Prod.mk.injEq] at hstate
  obtain ⟨hin, hrate, hsample, hrtt, hcurrent⟩ := hstate
  have hcalls : ∀ call ∈ sampleSwitch, call.call.MtuAtLeast 1200 := by
    simp [sampleSwitch, sampleLoss, Bbr.sampleTrips, Bbr.sampleTrip, Bbr.Call.MtuAtLeast]
  have hwindow := window_of_run Rounding.ordered_exact (by decide) hcalls hrun
  have hbounds := ((hwindow 1000000).2 (by decide)).2 hsample (by omega)
  have hproduct : doubledProduct {} 1000000 100000000 = 200000 := by decide +kernel
  have htrunc : truncU64 200000 = 200000 ∧ truncU64 (200000 * (5 / 4)) = 250000 := by decide +kernel
  simp only [hrtt, hcurrent, hproduct, id, htrunc] at hbounds
  exact ⟨controller, hrun, hin, hrate, (hwindow 0).1 rfl, hbounds.1, hbounds.2⟩

end BrutalController
end Hysteria.Quinn
