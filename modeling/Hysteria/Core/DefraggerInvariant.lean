import Hysteria.Core.Defragger

/-! What a `Defragger` looks like after any sequence of messages, hostile ones
included. `FeedStep` says once what a call of `feed` can do; the invariant, the
absence of panics and the origin of every reassembled message follow from it. -/
namespace Hysteria.Core
open Lib

/-- A fragment that `feed` does not pass through or reject. -/
def UDPMessage.IsFragment (message : UDPMessage) : Prop :=
  1 < message.fragCount ∧ message.fragId < message.fragCount

namespace PacketState

def Matches (state : PacketState) (message : UDPMessage) : Prop :=
  state.sessionId = message.sessionId ∧ state.addr = message.addr ∧
    state.fragments.length = message.fragCount.toNat

def first (message : UDPMessage) : PacketState where
  sessionId := message.sessionId
  addr := message.addr
  fragments := (List.replicate message.fragCount.toNat none).set message.fragId.toNat (some message)
  count := 1
  size := message.data.length

def fill (state : PacketState) (message : UDPMessage) : PacketState :=
  { state with
    fragments := state.fragments.set message.fragId.toNat (some message)
    count := state.count + 1
    size := state.size + message.data.length }

/-- The counters of an entry agree with its slots, at least one slot is free, and
each slot holds the fragment it is for. -/
structure WellFormed (state : PacketState) (packetId : UInt16) : Prop where
  two_le : 2 ≤ state.fragments.length
  le_255 : state.fragments.length ≤ 255
  count_eq : state.count.toNat = filled state.fragments
  incomplete : filled state.fragments < state.fragments.length
  size_eq : state.size = filledSum (fun fragment => fragment.data.length) state.fragments
  slot : ∀ (i : Nat) (fragment : UDPMessage), state.fragments[i]? = some (some fragment) →
    fragment.fragId.toNat = i ∧ fragment.packetId = packetId ∧ state.Matches fragment

end PacketState

namespace Defragger

/-- The queue lists the keys of the map, each once. -/
structure Indexed (packets : PartialMap UInt16 PacketState) (order : List UInt16) : Prop where
  nodup : order.Nodup
  keys : ∀ id, id ∈ order ↔ (packets.get id).isSome

structure Inv (d : Defragger) : Prop where
  indexed : Indexed d.packets d.order
  bounded : d.order.length ≤ maxInFlightPackets
  entry : ∀ id state, d.packets.get id = some state → state.WellFormed id

/-- The defragger after a fragment that starts a packet, or restarts one. -/
def started (self : Defragger) (message : UDPMessage) : Defragger :=
  let room := evict (self.packets.remove message.packetId) (self.order.erase message.packetId)
  ⟨room.packets.insert message.packetId (.first message), room.order ++ [message.packetId]⟩

def reassembled (state : PacketState) (message : UDPMessage) : UDPMessage :=
  { message with
    data := ((state.fragments.filterMap id).map UDPMessage.data).flatten
    fragId := 0
    fragCount := 1 }

inductive FeedStep (self : Defragger) (message : UDPMessage) :
    Option UDPMessage → Defragger → Prop where
  | passThrough : message.fragCount ≤ 1 → FeedStep self message (some message) self
  | reject : 1 < message.fragCount → message.fragCount ≤ message.fragId →
      FeedStep self message none self
  | start : message.IsFragment →
      (∀ state, self.packets.get message.packetId = some state → ¬ state.Matches message) →
      FeedStep self message none (self.started message)
  | duplicate {state : PacketState} {stored : UDPMessage} : message.IsFragment →
      self.packets.get message.packetId = some state → state.Matches message →
      state.fragments[message.fragId.toNat]? = some (some stored) →
      FeedStep self message none self
  | fill {state : PacketState} : message.IsFragment →
      self.packets.get message.packetId = some state → state.Matches message →
      state.fragments[message.fragId.toNat]? = some none →
      filled state.fragments + 1 < state.fragments.length →
      FeedStep self message none
        { self with packets := self.packets.insert message.packetId (state.fill message) }
  | complete {state : PacketState} : message.IsFragment →
      self.packets.get message.packetId = some state → state.Matches message →
      state.fragments[message.fragId.toNat]? = some none →
      filled state.fragments + 1 = state.fragments.length →
      FeedStep self message (some (reassembled (state.fill message) message))
        (self.removePacket message.packetId)

theorem resetPacket_iff (self : Defragger) (message : UDPMessage) :
    self.resetPacket message = true ↔
      ∀ state, self.packets.get message.packetId = some state → ¬ state.Matches message := by
  unfold resetPacket
  cases h : self.packets.get message.packetId with
  | none => simp
  | some state =>
    simp only [Option.some.injEq, forall_eq', PacketState.Matches, Bool.or_eq_true, bne_iff_ne]
    tauto

theorem insertPacket_eq (self : Defragger) {message : UDPMessage} (h : message.IsFragment) :
    (self.insertPacket message.packetId message.fragCount.toNat message : Exec ε Defragger) =
      .ok (self.started message) := by
  have hindex : message.fragId.toNat <
      (List.replicate message.fragCount.toNat (none : Option UDPMessage)).length := by
    rw [List.length_replicate]
    exact h.2
  unfold insertPacket
  dsimp only
  rw [setIndex_ok hindex]
  rfl

theorem assemble_eq (values : List UDPMessage) :
    (assemble (values.map some) : Exec ε (List UInt8)) =
      .ok (values.map UDPMessage.data).flatten := by
  have hloop := foldlM_append_ok (ε := ε) (l := values.map some)
    (f := fun data fragment => return data ++ (← expect fragment).data)
    (g := fun fragment => fragment.elim [] UDPMessage.data) ?_ []
  · simpa [assemble, Function.comp_def] using hloop
  · intro data fragment hfragment
    obtain ⟨value, _, rfl⟩ := List.mem_map.mp hfragment
    rfl

theorem toNat_count_succ {state : PacketState} {packetId : UInt16}
    (h : state.WellFormed packetId) : (state.count + 1).toNat = filled state.fragments + 1 := by
  have hcount := h.count_eq
  have hfull := h.incomplete
  have hmax := h.le_255
  rw [UInt8.toNat_add, hcount]
  simp only [UInt8.reduceToNat]
  omega

/-- The reassembly branch of `feed`, for an entry the message belongs to. -/
theorem feed_matching {self : Defragger} {message : UDPMessage} {state : PacketState}
    (profile : Profile) (hfrag : message.IsFragment)
    (hstate : self.packets.get message.packetId = some state) (hmatch : state.Matches message)
    (hwf : state.WellFormed message.packetId) :
    ∃ out after, (self.feed profile message : Exec ε _) = .ok (out, after) ∧
      FeedStep self message out after := by
  have hreset : self.resetPacket message = false := by
    rw [Bool.eq_false_iff, Ne, resetPacket_iff]
    exact fun h => h state hstate hmatch
  have hindex : message.fragId.toNat < state.fragments.length := by
    rw [hmatch.2.2]
    exact hfrag.2
  have hcount := hwf.count_eq
  have hincomplete := hwf.incomplete
  have hmax := hwf.le_255
  obtain ⟨slot, hslot⟩ : ∃ slot, state.fragments[message.fragId.toNat]? = some slot :=
    ⟨_, List.getElem?_eq_getElem hindex⟩
  unfold feed
  rw [if_neg (by simpa using hfrag.1), if_neg (by simpa using hfrag.2)]
  simp only [hreset, Bool.false_eq_true, if_false, hstate, index_ok hslot, ok_bind]
  cases slot with
  | some stored =>
    have hpending : ¬ state.count.toNat = state.fragments.length := by omega
    refine ⟨none, self, ?_, .duplicate hfrag hstate hmatch hslot⟩
    simp only [Option.isNone_some, Bool.false_eq_true, if_false, pure_bind_ok, hpending,
      PartialMap.insert_of_get hstate]
    rfl
  | none =>
    have hadd : (addU8 profile state.count 1 : Exec ε UInt8) = .ok (state.count + 1) :=
      addU8_ok profile (by simp only [UInt8.reduceToNat]; omega)
    have hsucc := toNat_count_succ hwf
    have hfill : filled (state.fill message).fragments = filled state.fragments + 1 :=
      filled_set hslot message
    have hlength : (state.fill message).fragments.length = state.fragments.length :=
      List.length_set
    simp only [Option.isNone_none, if_true, hadd, ok_bind, setIndex_ok hindex, pure_bind_ok]
    change ∃ out after, (if (state.fill message).count.toNat = (state.fill message).fragments.length
      then _ else _ : Exec ε _) = _ ∧ _
    by_cases hlast : filled state.fragments + 1 = state.fragments.length
    · obtain ⟨values, hvalues⟩ := exists_values (hfill.trans (hlast.trans hlength.symm))
      have hassemble : (assemble (state.fill message).fragments : Exec ε (List UInt8)) =
          .ok (reassembled (state.fill message) message).data := by
        rw [reassembled, hvalues, assemble_eq]
        simp
      refine ⟨_, _, ?_, .complete hfrag hstate hmatch hslot hlast⟩
      rw [if_pos (by rw [hlength]; exact hsucc.trans hlast)]
      refine bind_eq_ok.mpr ⟨_, hassemble, ?_⟩
      rw [removePacket, PartialMap.remove_insert]
      rfl
    · refine ⟨_, _, ?_, .fill hfrag hstate hmatch hslot (by omega)⟩
      rw [if_neg (by rw [hlength]; exact fun h => hlast (hsucc.symm.trans h))]
      rfl

/-- Every call of `feed` returns, by one of its five paths. -/
theorem feed_step {self : Defragger} (hinv : self.Inv) (profile : Profile) (message : UDPMessage) :
    ∃ out after, (self.feed profile message : Exec ε _) = .ok (out, after) ∧
      FeedStep self message out after := by
  by_cases hone : message.fragCount ≤ 1
  · refine ⟨_, _, ?_, .passThrough hone⟩
    rw [feed, if_pos hone]
    rfl
  by_cases hid : message.fragCount ≤ message.fragId
  · refine ⟨_, _, ?_, .reject (by simpa using hone) hid⟩
    rw [feed, if_neg hone, if_pos hid]
    rfl
  have hfrag : message.IsFragment := ⟨by simpa using hone, by simpa using hid⟩
  by_cases hreset : self.resetPacket message = true
  · refine ⟨_, _, ?_, .start hfrag ((resetPacket_iff self message).mp hreset)⟩
    rw [feed, if_neg hone, if_neg hid, if_pos hreset, insertPacket_eq self hfrag]
    rfl
  · rw [resetPacket_iff] at hreset
    push Not at hreset
    obtain ⟨state, hstate, hmatch⟩ := hreset
    exact feed_matching profile hfrag hstate hmatch (hinv.entry _ _ hstate)

theorem Indexed.remove {packets : PartialMap UInt16 PacketState} {order : List UInt16}
    (h : Indexed packets order) (packetId : UInt16) :
    Indexed (packets.remove packetId) (order.erase packetId) where
  nodup := h.nodup.erase packetId
  keys := by
    intro id
    rw [h.nodup.mem_erase_iff, h.keys, PartialMap.get_remove]
    split <;> simp_all

theorem Indexed.insert_new {packets : PartialMap UInt16 PacketState} {order : List UInt16}
    (h : Indexed packets order) {packetId : UInt16} (hnew : packetId ∉ order)
    (state : PacketState) : Indexed (packets.insert packetId state) (order ++ [packetId]) where
  nodup := by
    rw [List.nodup_append]
    refine ⟨h.nodup, by simp, ?_⟩
    intro id hid other hother
    rw [List.mem_singleton.mp hother]
    rintro rfl
    exact hnew hid
  keys := by
    intro id
    rw [List.mem_append, h.keys, PartialMap.get_insert]
    split <;> simp_all

theorem Indexed.insert_existing {packets : PartialMap UInt16 PacketState} {order : List UInt16}
    (h : Indexed packets order) {packetId : UInt16} {old : PacketState}
    (hold : packets.get packetId = some old) (state : PacketState) :
    Indexed (packets.insert packetId state) order where
  nodup := h.nodup
  keys := by
    intro id
    rw [h.keys, PartialMap.get_insert]
    split <;> simp_all

theorem get_of_get_evict {packets : PartialMap UInt16 PacketState} {order : List UInt16}
    {id : UInt16} {state : PacketState}
    (h : (evict packets order).packets.get id = some state) : packets.get id = some state := by
  induction order generalizing packets with
  | nil => exact h
  | cons oldest order ih =>
    rw [evict] at h
    split at h
    · exact (PartialMap.get_of_get_remove (ih h)).2
    · exact h

theorem evict_spec {packets : PartialMap UInt16 PacketState} {order : List UInt16}
    (h : Indexed packets order) :
    Indexed (evict packets order).packets (evict packets order).order ∧
      (evict packets order).order.length < maxInFlightPackets ∧
      ∀ id ∈ (evict packets order).order, id ∈ order := by
  induction order generalizing packets with
  | nil => exact ⟨h, Nat.zero_lt_succ 63, fun _ hid => hid⟩
  | cons oldest order ih =>
    rw [evict]
    split
    · have hrest := h.remove oldest
      rw [List.erase_cons_head] at hrest
      obtain ⟨hindexed, hlength, hmem⟩ := ih hrest
      refine ⟨hindexed, hlength, ?_⟩
      intro id hid
      exact List.mem_cons_of_mem _ (hmem id hid)
    · next hroom => exact ⟨h, Nat.lt_of_not_le hroom, fun _ hid => hid⟩

theorem evict_of_lt (packets : PartialMap UInt16 PacketState) {order : List UInt16}
    (h : order.length < maxInFlightPackets) : evict packets order = ⟨packets, order⟩ := by
  cases order with
  | nil => rfl
  | cons oldest order => rw [evict, if_neg (by omega)]

end Defragger

namespace PacketState

theorem first_wellFormed {message : UDPMessage} (h : message.IsFragment) :
    (first message).WellFormed message.packetId := by
  have hone : 1 < message.fragCount.toNat := h.1
  have hid : message.fragId.toNat < message.fragCount.toNat := h.2
  have hmax : message.fragCount.toNat < 256 := message.fragCount.toNat_lt
  have hfree : (List.replicate message.fragCount.toNat (none : Option UDPMessage))[message.fragId.toNat]? =
      some none := by
    simp [hid]
  have hlength : (first message).fragments.length = message.fragCount.toNat := by
    simp [first]
  have hfilled : filled (first message).fragments = 1 := by
    rw [first, filled_set hfree, filled_replicate]
  constructor
  · omega
  · omega
  · rw [hfilled]
    rfl
  · omega
  · rw [first, filledSum_set _ hfree, filledSum_replicate, Nat.zero_add]
  · intro i fragment hslot
    rcases getElem?_set_some hslot with ⟨rfl, rfl⟩ | ⟨_, hnone⟩
    · exact ⟨rfl, rfl, rfl, rfl, hlength⟩
    · rw [List.getElem?_replicate] at hnone
      split at hnone
      · cases hnone
      · cases hnone

theorem fill_wellFormed {state : PacketState} {message : UDPMessage}
    (hwf : state.WellFormed message.packetId) (hmatch : state.Matches message)
    (hslot : state.fragments[message.fragId.toNat]? = some none)
    (hmore : filled state.fragments + 1 < state.fragments.length) :
    (state.fill message).WellFormed message.packetId := by
  have hlength : (state.fill message).fragments.length = state.fragments.length :=
    List.length_set
  have hfilled : filled (state.fill message).fragments = filled state.fragments + 1 :=
    filled_set hslot message
  constructor
  · rw [hlength]
    exact hwf.two_le
  · rw [hlength]
    exact hwf.le_255
  · rw [hfilled]
    exact Defragger.toNat_count_succ hwf
  · rw [hfilled, hlength]
    exact hmore
  · rw [fill, filledSum_set _ hslot, ← hwf.size_eq]
  · intro i fragment hi
    rcases getElem?_set_some hi with ⟨rfl, rfl⟩ | ⟨_, hold⟩
    · exact ⟨rfl, rfl, hmatch.1, hmatch.2.1, hlength.trans hmatch.2.2⟩
    · obtain ⟨hid, hpacket, hsession, haddr, hcount⟩ := hwf.slot i fragment hold
      exact ⟨hid, hpacket, hsession, haddr, hlength.trans hcount⟩

end PacketState

namespace Defragger

theorem empty_inv : empty.Inv where
  indexed := ⟨List.nodup_nil, by simp [empty]⟩
  bounded := by simp [empty]
  entry := by simp [empty]

theorem started_inv {self : Defragger} (hinv : self.Inv) {message : UDPMessage}
    (h : message.IsFragment) : (self.started message).Inv := by
  obtain ⟨hindexed, hlength, hmem⟩ := evict_spec (hinv.indexed.remove message.packetId)
  have hnew : message.packetId ∉ (evict (self.packets.remove message.packetId)
      (self.order.erase message.packetId)).order := by
    intro hin
    exact hinv.indexed.nodup.not_mem_erase (hmem _ hin)
  constructor
  · exact hindexed.insert_new hnew _
  · rw [started, List.length_append, List.length_singleton]
    omega
  · intro id state hstate
    rcases PartialMap.get_of_get_insert hstate with ⟨rfl, rfl⟩ | ⟨_, hold⟩
    · exact PacketState.first_wellFormed h
    · exact hinv.entry id state (PartialMap.get_of_get_remove (get_of_get_evict hold)).2

theorem removePacket_inv {self : Defragger} (hinv : self.Inv) (packetId : UInt16) :
    (self.removePacket packetId).Inv where
  indexed := hinv.indexed.remove packetId
  bounded := List.length_erase_le.trans hinv.bounded
  entry := by
    intro id state hstate
    exact hinv.entry id state (PartialMap.get_of_get_remove hstate).2

theorem FeedStep.inv {self after : Defragger} {message : UDPMessage} {out : Option UDPMessage}
    (hstep : FeedStep self message out after) (hinv : self.Inv) : after.Inv := by
  cases hstep with
  | passThrough => exact hinv
  | reject => exact hinv
  | start hfrag _ => exact started_inv hinv hfrag
  | duplicate => exact hinv
  | fill hfrag hstate hmatch hslot hmore =>
    constructor
    · exact hinv.indexed.insert_existing hstate _
    · exact hinv.bounded
    · intro id entry hentry
      rcases PartialMap.get_of_get_insert hentry with ⟨rfl, rfl⟩ | ⟨_, hold⟩
      · exact PacketState.fill_wellFormed (hinv.entry _ _ hstate) hmatch hslot hmore
      · exact hinv.entry id entry hold
  | complete => exact removePacket_inv hinv _

end Defragger
end Hysteria.Core
