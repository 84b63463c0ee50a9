import Hysteria.Core.Handshake
import Hysteria.Quinn.Brutal
import Mathlib.Data.Rat.Floor

/-! The bit rate that Brutal hands to the pacer, for the target that the server negotiates with a
client. -/
namespace Hysteria.Quinn
open Lib Hysteria.Core

namespace Brutal

def bytesPerSec (brutal : Brutal) (targetBytesPerSec : UInt64) : Nat :=
  ((targetBytesPerSec.toNat : Rat) / max brutal.ackRate minAckRate).floor.toNat

/-- The conversion to a `u64` saturates, the product does not. -/
def pacingRateBps (profile : Profile) (brutal : Brutal) (targetBytesPerSec : UInt64) : Exec Empty Nat :=
  mulUsize profile (min (brutal.bytesPerSec targetBytesPerSec) u64Max) 8

theorem slotSums_le (slots : Fin slotCount → PacketSlot) (minSecond : Nat) :
    (slotSums slots minSecond).1 ≤ u64Max := by
  unfold slotSums
  rw [foldl_saturatingAdd _ (Nat.zero_le _) (Nat.zero_le _)]
  exact Nat.min_le_right _ _

/-- Every call leaves a rate from four fifths to 1, also where the sums saturate. -/
theorem ackRate_call_bounds (brutal : Brutal) (last : AckCall) :
    minAckRate ≤ (brutal.call last).ackRate ∧ (brutal.call last).ackRate ≤ 1 := by
  unfold call updateAckRate
  dsimp only
  generalize hsums : slotSums _ _ = sums
  have hacked : sums.1 ≤ u64Max := by
    rw [← hsums]
    exact slotSums_le _ _
  have hle : sums.1 ≤ saturatingAdd sums.1 sums.2 := by
    unfold saturatingAdd
    omega
  split
  · exact ⟨by decide +kernel, le_refl 1⟩
  · refine ⟨le_max_right _ _, max_le ?_ (by decide +kernel)⟩
    apply div_le_one_of_le₀
    · exact_mod_cast hle
    · exact Nat.cast_nonneg _

theorem ackRate_bounds (epoch : Nat) (calls : List AckCall) :
    minAckRate ≤ (calls.foldl call (new epoch)).ackRate ∧ (calls.foldl call (new epoch)).ackRate ≤ 1 := by
  induction calls using List.reverseRecOn with
  | nil => exact ⟨show minAckRate ≤ 1 by decide +kernel, le_refl 1⟩
  | append_singleton calls last ih =>
    rw [List.foldl_concat]
    exact ackRate_call_bounds _ last

section
variable {brutal : Brutal}

theorem bytesPerSec_eq (h : minAckRate ≤ brutal.ackRate) (target : UInt64) :
    brutal.bytesPerSec target = ((target.toNat : Rat) / brutal.ackRate).floor.toNat := by
  rw [bytesPerSec, max_eq_left h]

theorem target_le_bytesPerSec (hlow : minAckRate ≤ brutal.ackRate) (hhigh : brutal.ackRate ≤ 1) (target : UInt64) :
    target.toNat ≤ brutal.bytesPerSec target := by
  have hpos : 0 < brutal.ackRate := lt_of_lt_of_le (by decide +kernel) hlow
  have hle : (target.toNat : Rat) ≤ (target.toNat : Rat) / brutal.ackRate :=
    le_div_self (Nat.cast_nonneg _) hpos hhigh
  have hfloor : (target.toNat : Int) ≤ ((target.toNat : Rat) / brutal.ackRate).floor := by
    rw [Rat.le_floor_iff]
    exact_mod_cast hle
  rw [bytesPerSec_eq hlow]
  omega

theorem pacingRateBps_eq_iff (profile : Profile) (target : UInt64) :
    brutal.pacingRateBps profile target = .ok (brutal.bytesPerSec target * 8) ↔ brutal.bytesPerSec target < 2 ^ 61 := by
  have hmax : u64Max = 2 ^ 64 - 1 := rfl
  have hsize : usizeSize = 2 ^ 64 := rfl
  unfold pacingRateBps
  by_cases hfits : brutal.bytesPerSec target < 2 ^ 61
  · rw [Nat.min_eq_left (by omega), mulUsize_ok profile (by omega)]
    exact iff_of_true rfl hfits
  · refine iff_of_false ?_ hfits
    unfold mulUsize overflow
    rw [if_neg (by omega)]
    split
    · rintro ⟨⟩
    · intro heq
      have hwrapped := Except.ok.inj heq
      rw [hsize] at hwrapped
      omega

theorem floor_div_minAckRate (target : Nat) : ((target : Rat) / minAckRate).floor.toNat = 5 * target / 4 := by
  have hquotient : (target : Rat) / minAckRate = ((5 * target : Nat) : Rat) / (4 : Nat) := by
    rw [minAckRate]
    push_cast
    ring
  have hfloor := Rat.floor_intCast_div_natCast (5 * target : Nat) 4
  rw [Int.cast_natCast] at hfloor
  rw [hquotient]
  exact congrArg Int.toNat hfloor

theorem bytesPerSec_le (h : minAckRate ≤ brutal.ackRate) (target : UInt64) :
    brutal.bytesPerSec target ≤ 5 * target.toNat / 4 := by
  have hpos : (0 : Rat) < minAckRate := by decide +kernel
  have hle : (target.toNat : Rat) / brutal.ackRate ≤ (target.toNat : Rat) / minAckRate :=
    div_le_div_of_nonneg_left (Nat.cast_nonneg _) hpos h
  rw [bytesPerSec_eq h, ← floor_div_minAckRate]
  exact Int.toNat_le_toNat (Rat.floor_monotone hle)

end

def lossyCall : AckCall := ⟨0, 40, 10⟩

theorem ackRate_lossyCall : ([lossyCall].foldl call (new 0)).ackRate = minAckRate := by decide +kernel

/-- For every limit a client advertises and every limit of the server: whatever is acknowledged and lost, the bit rate is
eight times the whole bytes a second of the target over the acknowledgement rate, fits and is at least eight times
the target, exactly if five quarters of the negotiated target are below `2 ^ 61`. -/
theorem pacing_exact_iff (bandwidthMaxTx rx : UInt64) (profile : Profile) :
    let target := negotiatedLimit bandwidthMaxTx rx
    let brutal (epoch : Nat) (calls : List AckCall) := calls.foldl call (new epoch)
    let bytesPerSec (brutal : Brutal) := ((target.toNat : Rat) / brutal.ackRate).floor.toNat
    (∀ epoch calls, 4 / 5 ≤ (brutal epoch calls).ackRate ∧ (brutal epoch calls).ackRate ≤ 1) ∧
      ((∀ epoch calls,
          (brutal epoch calls).pacingRateBps profile target = .ok (bytesPerSec (brutal epoch calls) * 8) ∧
          bytesPerSec (brutal epoch calls) * 8 < 2 ^ 64 ∧ 8 * target.toNat ≤ bytesPerSec (brutal epoch calls) * 8) ↔
        5 * target.toNat / 4 < 2 ^ 61) := by
  dsimp only
  generalize negotiatedLimit bandwidthMaxTx rx = target
  refine ⟨ackRate_bounds, ?_, ?_⟩
  · intro hall
    obtain ⟨-, hfits, -⟩ := hall 0 [lossyCall]
    rw [ackRate_lossyCall, floor_div_minAckRate] at hfits
    omega
  · intro hfits epoch calls
    obtain ⟨hlow, hhigh⟩ := ackRate_bounds epoch calls
    have htarget := target_le_bytesPerSec hlow hhigh target
    have hle := bytesPerSec_le hlow target
    have hrate := (pacingRateBps_eq_iff profile target).mpr (lt_of_le_of_lt hle hfits)
    rw [bytesPerSec_eq hlow] at htarget hle hrate
    exact ⟨hrate, by omega, by omega⟩

def hugeLimit : UInt64 := 2305843009213693952

/-- A client without a send limit that advertises this limit, and a server without limits. -/
theorem pacing_overflows :
    (∃ info, handshake HeaderBytes.crate ⟨"secret".toList, 0, hugeLimit⟩
        ⟨0, 0, false, false, fun auth _ => some auth⟩ samplePadding samplePadding = .ok (info, some hugeLimit)) ∧
      (new 0).pacingRateBps ⟨true⟩ hugeLimit = .error (.panic .arithmeticOverflow) ∧
      (new 0).pacingRateBps ⟨false⟩ hugeLimit = .ok 0 := by
  refine ⟨?_, by decide +kernel, by decide +kernel⟩
  have hplain := plain_of_isAlphanumeric samplePadding_samples.2.2
  obtain ⟨written, hwritten⟩ := @HttpCrate.Lawful.exists_authRequestToHeaders _ HeaderBytes.lawful samplePadding hplain
    HeaderBytes.crate.new ⟨"secret".toList, hugeLimit⟩ (by decide)
  have hrequest : ClientConfig.request HeaderBytes.crate ⟨"secret".toList, 0, hugeLimit⟩ samplePadding =
      .ok ⟨true, urlPath, some urlHost, written⟩ := by
    rw [ClientConfig.request, hwritten]
    rfl
  have htarget : negotiatedLimit 0 hugeLimit = hugeLimit := by decide +kernel
  rw [handshake_eq HeaderBytes.lawful _ hplain hrequest]
  simp [htarget]

end Brutal
end Hysteria.Quinn
