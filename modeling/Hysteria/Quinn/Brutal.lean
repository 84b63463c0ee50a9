import Hysteria.Lib.SlotRing
import Hysteria.Quinn.Pacer
import Mathlib.Algebra.BigOperators.Pi

/-! The acknowledgement rate of the Brutal congestion control, `brutal.rs`: acknowledged and lost
packets are counted in one slot for each of the last five seconds. Rates are exact, instants in
nanoseconds. -/
namespace Hysteria.Quinn
open Lib

def slotCount : Nat := 5
def minSampleCount : Nat := 50
def minAckRate : Rat := 4 / 5

instance : NeZero slotCount := ⟨by decide⟩

structure PacketSlot where
  second : Nat
  ackedPackets : Nat
  lostPackets : Nat
deriving DecidableEq, Repr

structure Brutal where
  ackRate : Rat
  sampleEpoch : Nat
  slots : Fin slotCount → PacketSlot

namespace Brutal

def new (now : Nat) : Brutal := ⟨1, now, fun _ => ⟨0, 0, 0⟩⟩

def secondsSince (epoch now : Nat) : Nat := (now - epoch) / 1000000000

def slotSums (slots : Fin slotCount → PacketSlot) (minSecond : Nat) : Nat × Nat :=
  ((List.ofFn slots).filter fun slot => slot.second ≥ minSecond).foldl
    (fun sums slot => (saturatingAdd sums.1 slot.ackedPackets, saturatingAdd sums.2 slot.lostPackets)) (0, 0)

def updateAckRate (brutal : Brutal) (now ackedPackets lostPackets : Nat) : Brutal :=
  let currentSecond := secondsSince brutal.sampleEpoch now
  let slot := brutal.slots (Fin.ofNat slotCount currentSecond)
  let slot :=
    if slot.second = currentSecond then
      { slot with
        ackedPackets := saturatingAdd slot.ackedPackets ackedPackets
        lostPackets := saturatingAdd slot.lostPackets lostPackets }
    else ⟨currentSecond, ackedPackets, lostPackets⟩
  let slots := Function.update brutal.slots (Fin.ofNat slotCount currentSecond) slot
  let minSecond := currentSecond - slotCount
  let sums := slotSums slots minSecond
  let total := saturatingAdd sums.1 sums.2
  { brutal with
    slots
    ackRate := if total < minSampleCount then 1 else max ((sums.1 : Rat) / total) minAckRate }

end Brutal

structure AckCall where
  now : Nat
  ackedPackets : Nat
  lostPackets : Nat
deriving DecidableEq, Repr

namespace Brutal

def call (brutal : Brutal) (call : AckCall) : Brutal :=
  brutal.updateAckRate call.now call.ackedPackets call.lostPackets

def ring (brutal : Brutal) : SlotRing slotCount (Nat × Nat) := fun i =>
  ⟨(brutal.slots i).second, ((brutal.slots i).ackedPackets, (brutal.slots i).lostPackets)⟩

def sample (epoch : Nat) (call : AckCall) : Sample (Nat × Nat) :=
  ⟨secondsSince epoch call.now, (call.ackedPackets, call.lostPackets)⟩

def packets (calls : List AckCall) : Nat := (calls.map fun call => call.ackedPackets + call.lostPackets).sum

def rateOf (sums : Nat × Nat) : Rat :=
  if sums.1 + sums.2 < minSampleCount then 1 else max minAckRate ((sums.1 : Rat) / (sums.1 + sums.2 : Nat))

theorem saturatingAdd_eq {a b : Nat} (h : a + b ≤ u64Max) : saturatingAdd a b = a + b := Nat.min_eq_left h

theorem foldl_saturatingAdd (slots : List PacketSlot) {sums : Nat × Nat} (hacked : sums.1 ≤ u64Max)
    (hlost : sums.2 ≤ u64Max) :
    slots.foldl (fun sums slot => (saturatingAdd sums.1 slot.ackedPackets, saturatingAdd sums.2 slot.lostPackets)) sums =
      (saturatingAdd sums.1 (slots.map PacketSlot.ackedPackets).sum,
        saturatingAdd sums.2 (slots.map PacketSlot.lostPackets).sum) := by
  induction slots generalizing sums with
  | nil => simp [saturatingAdd, hacked, hlost]
  | cons slot slots ih =>
    rw [List.foldl_cons, ih (Nat.min_le_right _ _) (Nat.min_le_right _ _)]
    simp only [saturatingAdd, List.map_cons, List.sum_cons, Prod.mk.injEq]
    omega

theorem sum_filter_ofFn (slots : Fin slotCount → PacketSlot) (p : PacketSlot → Bool) (f : PacketSlot → Nat) :
    (((List.ofFn slots).filter p).map f).sum = ∑ i, if p (slots i) then f (slots i) else 0 := by
  have hfilter (l : List PacketSlot) : ((l.filter p).map f).sum = (l.map fun slot => if p slot then f slot else 0).sum := by
    induction l with
    | nil => rfl
    | cons slot l ih => by_cases h : p slot <;> simp [h, ih]
  rw [hfilter, List.map_ofFn, List.sum_ofFn]
  rfl

theorem slotSums_eq {brutal : Brutal} {minSecond : Nat}
    (hfits : (brutal.ring.total minSecond).1 + (brutal.ring.total minSecond).2 ≤ u64Max) :
    slotSums brutal.slots minSecond = brutal.ring.total minSecond := by
  have hacked : (brutal.ring.total minSecond).1 =
      ∑ i, if minSecond ≤ (brutal.slots i).second then (brutal.slots i).ackedPackets else 0 := by
    rw [SlotRing.total, Prod.fst_sum]
    exact Finset.sum_congr rfl fun i _ => apply_ite Prod.fst _ _ _
  have hlost : (brutal.ring.total minSecond).2 =
      ∑ i, if minSecond ≤ (brutal.slots i).second then (brutal.slots i).lostPackets else 0 := by
    rw [SlotRing.total, Prod.snd_sum]
    exact Finset.sum_congr rfl fun i _ => apply_ite Prod.snd _ _ _
  unfold slotSums
  rw [foldl_saturatingAdd _ (Nat.zero_le _) (Nat.zero_le _), sum_filter_ofFn, sum_filter_ofFn]
  simp only [ge_iff_le, decide_eq_true_eq, ← hacked, ← hlost]
  rw [saturatingAdd_eq (by omega), saturatingAdd_eq (by omega), Nat.zero_add, Nat.zero_add]

theorem ring_updateAckRate {brutal : Brutal} {now ackedPackets lostPackets : Nat}
    (hacked : ∀ i, (brutal.slots i).ackedPackets + ackedPackets ≤ u64Max)
    (hlost : ∀ i, (brutal.slots i).lostPackets + lostPackets ≤ u64Max) :
    (brutal.updateAckRate now ackedPackets lostPackets).ring =
      brutal.ring.record (secondsSince brutal.sampleEpoch now) (ackedPackets, lostPackets) := by
  funext i
  unfold updateAckRate SlotRing.record SlotRing.slotOf
  dsimp only
  generalize Fin.ofNat slotCount (secondsSince brutal.sampleEpoch now) = current
  by_cases hi : i = current
  · subst hi
    by_cases hsecond : (brutal.slots i).second = secondsSince brutal.sampleEpoch now
    · simp [ring, hsecond, saturatingAdd_eq (hacked i), saturatingAdd_eq (hlost i)]
    · simp [ring, hsecond]
  · simp [ring, hi]

theorem ackRate_updateAckRate {brutal : Brutal} {now ackedPackets lostPackets : Nat} {sums : Nat × Nat}
    (htotal : (brutal.updateAckRate now ackedPackets lostPackets).ring.total
      (secondsSince brutal.sampleEpoch now - slotCount) = sums) (hfits : sums.1 + sums.2 ≤ u64Max) :
    (brutal.updateAckRate now ackedPackets lostPackets).ackRate = rateOf sums := by
  subst htotal
  have hsums := slotSums_eq hfits
  have htotal := saturatingAdd_eq hfits
  rw [← hsums] at htotal ⊢
  unfold rateOf
  rw [max_comm, ← htotal]
  rfl

theorem recordedWhere_le (epoch : Nat) (p : Nat → Bool) (calls : List AckCall) :
    (recordedWhere p (calls.map (sample epoch))).1 + (recordedWhere p (calls.map (sample epoch))).2 ≤ packets calls := by
  induction calls with
  | nil => exact Nat.le_refl 0
  | cons call calls ih =>
    simp only [List.map_cons, recordedWhere_cons, packets, List.sum_cons, Prod.fst_add, Prod.snd_add] at ih ⊢
    split
    · simp only [sample]
      omega
    · simp only [Prod.fst_zero, Prod.snd_zero]
      omega

/-- The state after these calls, the last of which was not later than `now`. -/
structure After (epoch now : Nat) (calls : List AckCall) (brutal : Brutal) : Prop where
  sampleEpoch : brutal.sampleEpoch = epoch
  tracks : brutal.ring.Tracks (secondsSince epoch now) (calls.map (sample epoch))

theorem secondsSince_mono (epoch : Nat) {now later : Nat} (h : now ≤ later) :
    secondsSince epoch now ≤ secondsSince epoch later := by
  unfold secondsSince
  omega

theorem new_after (epoch : Nat) : (new epoch).After epoch 0 [] :=
  ⟨rfl, SlotRing.empty_tracks _⟩

theorem After.ring_call {epoch now : Nat} {calls : List AckCall} {brutal : Brutal} (h : brutal.After epoch now calls)
    {call : AckCall} (htotal : packets (calls ++ [call]) ≤ u64Max) :
    (brutal.call call).ring = brutal.ring.record (secondsSince epoch call.now) (call.ackedPackets, call.lostPackets) := by
  have hslot (i : Fin slotCount) : (brutal.slots i).ackedPackets + (brutal.slots i).lostPackets ≤ packets calls := by
    have hsum := h.tracks.sum i
    have hle := recordedWhere_le epoch (fun t => decide (SlotRing.slotOf slotCount t = i) &&
      decide (t = (brutal.ring i).time)) calls
    rw [← hsum] at hle
    exact hle
  rw [← h.sampleEpoch]
  simp only [packets, List.map_append, List.sum_append, List.map_cons, List.map_nil, List.sum_cons, List.sum_nil] at htotal
  have hfits (i : Fin slotCount) : (brutal.slots i).ackedPackets + call.ackedPackets ≤ u64Max ∧
      (brutal.slots i).lostPackets + call.lostPackets ≤ u64Max := by
    have hle := hslot i
    unfold packets at hle
    omega
  exact ring_updateAckRate (fun i => (hfits i).1) (fun i => (hfits i).2)

theorem After.call {epoch now : Nat} {calls : List AckCall} {brutal : Brutal} (h : brutal.After epoch now calls)
    {call : AckCall} (hnow : now ≤ call.now) (htotal : packets (calls ++ [call]) ≤ u64Max) :
    (brutal.call call).After epoch call.now (calls ++ [call]) := by
  refine ⟨h.sampleEpoch, ?_⟩
  rw [h.ring_call htotal, List.map_append]
  exact h.tracks.record (secondsSince_mono epoch hnow) _

theorem After.ackRate_call {epoch now : Nat} {calls : List AckCall} {brutal : Brutal} (h : brutal.After epoch now calls)
    {call : AckCall} (hnow : now ≤ call.now) (htotal : packets (calls ++ [call]) ≤ u64Max) :
    (brutal.call call).ackRate = rateOf (recordedWhere (fun t => decide (secondsSince epoch call.now < t + slotCount))
      ((calls ++ [call]).map (sample epoch))) := by
  have htracks := (h.call hnow htotal).tracks
  have hself : ((brutal.call call).ring (SlotRing.slotOf slotCount (secondsSince epoch call.now))).time =
      secondsSince epoch call.now := by
    rw [h.ring_call htotal]
    exact SlotRing.record_self _ _ _
  apply ackRate_updateAckRate
  · rw [h.sampleEpoch]
    exact htracks.total_eq hself
  · exact (recordedWhere_le epoch _ _).trans htotal

theorem after_calls (epoch : Nat) {calls : List AckCall} (hordered : calls.Pairwise fun a b => a.now ≤ b.now)
    (htotal : packets calls ≤ u64Max) {later : Nat} (hlater : ∀ call ∈ calls, call.now ≤ later) :
    ∃ now, now ≤ later ∧ (calls.foldl call (new epoch)).After epoch now calls := by
  induction calls using List.reverseRecOn generalizing later with
  | nil => exact ⟨0, Nat.zero_le _, new_after epoch⟩
  | append_singleton calls call ih =>
    obtain ⟨hordered, -, hbefore⟩ := List.pairwise_append.mp hordered
    have hpart : packets calls ≤ packets (calls ++ [call]) := by simp [packets]
    obtain ⟨now, hnow, hafter⟩ := ih hordered (hpart.trans htotal) fun c hc => hbefore c hc call (by simp)
    rw [List.foldl_concat]
    exact ⟨call.now, hlater call (by simp), hafter.call hnow htotal⟩

def recent (epoch current : Nat) (calls : List AckCall) : List AckCall :=
  calls.filter fun call => current - 4 ≤ secondsSince epoch call.now ∧ secondsSince epoch call.now ≤ current

theorem recordedWhere_recent {epoch current : Nat} {calls : List AckCall}
    (hpast : ∀ call ∈ calls, secondsSince epoch call.now ≤ current) :
    recordedWhere (fun t => decide (current < t + slotCount)) (calls.map (sample epoch)) =
      (((recent epoch current calls).map AckCall.ackedPackets).sum,
        ((recent epoch current calls).map AckCall.lostPackets).sum) := by
  induction calls with
  | nil => rfl
  | cons call calls ih =>
    obtain ⟨hcall, hpast⟩ := List.forall_mem_cons.mp hpast
    have hwindow : (current - 4 ≤ secondsSince epoch call.now ∧ secondsSince epoch call.now ≤ current) ↔
        current < secondsSince epoch call.now + slotCount := by
      unfold slotCount
      omega
    have hrecent : recent epoch current (call :: calls) =
        if current < secondsSince epoch call.now + slotCount then call :: recent epoch current calls
        else recent epoch current calls := by
      simp only [recent, List.filter_cons, hwindow, decide_eq_true_eq]
    rw [List.map_cons, recordedWhere_cons, ih hpast, hrecent]
    by_cases h : current < secondsSince epoch call.now + slotCount
    · simp [sample, h]
    · simp [sample, h]

/-- After every call of a history in order, the rate is 1 if fewer than 50 packets were acknowledged or lost
in the last five seconds, and else their rate, but not below four fifths. -/
theorem ackRate_eq (epoch : Nat) (calls : List AckCall) (last : AckCall)
    (hordered : (calls ++ [last]).Pairwise fun a b => a.now ≤ b.now) (htotal : packets (calls ++ [last]) < 2 ^ 64) :
    let window := recent epoch (secondsSince epoch last.now) (calls ++ [last])
    let acked := (window.map AckCall.ackedPackets).sum
    let lost := (window.map AckCall.lostPackets).sum
    ((calls ++ [last]).foldl call (new epoch)).ackRate =
      if acked + lost < 50 then 1 else max (4 / 5) ((acked : Rat) / (acked + lost)) := by
  dsimp only
  have htotal : packets (calls ++ [last]) ≤ u64Max := Nat.le_sub_one_of_lt htotal
  obtain ⟨hbefore, -, hlast⟩ := List.pairwise_append.mp hordered
  have hpart : packets calls ≤ packets (calls ++ [last]) := by simp [packets]
  obtain ⟨now, hnow, hafter⟩ := after_calls epoch hbefore (hpart.trans htotal) fun c hc => hlast c hc last (by simp)
  have hpast : ∀ c ∈ calls ++ [last], secondsSince epoch c.now ≤ secondsSince epoch last.now := by
    intro c hc
    rw [List.mem_append, List.mem_singleton] at hc
    rcases hc with hc | rfl
    · exact secondsSince_mono epoch (hlast c hc last (by simp))
    · exact Nat.le_refl _
  rw [List.foldl_concat, hafter.ackRate_call hnow htotal, recordedWhere_recent hpast, rateOf]
  push_cast
  rfl

theorem ackRate_eq_rollover :
    packets [⟨0, 20, 0⟩, ⟨6000000000, 45, 10⟩] = 75 ∧
      ([⟨0, 20, 0⟩, ⟨6000000000, 45, 10⟩].foldl call (new 0)).ackRate = 9 / 11 := by
  constructor
  · rfl
  · have hrate := ackRate_eq 0 [⟨0, 20, 0⟩] ⟨6000000000, 45, 10⟩ (by simp) (by decide)
    rw [List.singleton_append] at hrate
    rw [hrate]
    decide +kernel

end Brutal
end Hysteria.Quinn
