import Hysteria.Core.DefraggerRun
import Hysteria.Core.Frag
import Mathlib.Data.List.Perm.Subperm

/-! Fragmenting and reassembling against each other. `Tracks` relates the state
of a `Defragger` to the set of fragments received so far; every arrival of a
fragment keeps the relation, and the last one of a message returns it. -/
namespace Hysteria.Core
open Lib

namespace Split

variable {profile : Profile} (split : Split profile)

def packetId : UInt16 := split.message.packetId

def whole : UDPMessage := { split.message with fragId := 0, fragCount := 1 }

def Complete (received : List UDPMessage) : Prop :=
  ∀ fragment ∈ split.fragments, fragment ∈ received

def PartiallyReceived (received : List UDPMessage) : Prop :=
  (∃ fragment ∈ split.fragments, fragment ∈ received) ∧ ¬ split.Complete received

instance (received : List UDPMessage) : Decidable (split.Complete received) :=
  inferInstanceAs (Decidable (∀ fragment ∈ split.fragments, fragment ∈ received))

instance (received : List UDPMessage) : Decidable (split.PartiallyReceived received) :=
  inferInstanceAs (Decidable (_ ∧ _))

theorem exists_index {fragment : UDPMessage} (h : fragment ∈ split.fragments) :
    ∃ i : Nat, split.fragments[i]? = some fragment := by
  obtain ⟨i, hi, hget⟩ := List.getElem_of_mem h
  exact ⟨i, List.getElem?_eq_some_iff.mpr ⟨hi, hget⟩⟩

theorem toNat_fragId {i : Nat} {fragment : UDPMessage}
    (h : split.fragments[i]? = some fragment) : fragment.fragId.toNat = i := by
  have hlt : i < split.fragments.length := (List.getElem?_eq_some_iff.mp h).1
  have hmax := split.le_255
  rw [split.getElem?_eq h]
  simp only [UDPMessage.fragment, UInt8.toNat_ofNat']
  omega

theorem header_eq {fragment : UDPMessage} (h : fragment ∈ split.fragments) :
    fragment.packetId = split.packetId ∧ fragment.sessionId = split.message.sessionId ∧
      fragment.addr = split.message.addr ∧ fragment.fragCount = split.fragCount := by
  obtain ⟨i, hi⟩ := split.exists_index h
  rw [split.getElem?_eq hi]
  exact ⟨rfl, rfl, rfl, rfl⟩

theorem isFragment {fragment : UDPMessage} (h : fragment ∈ split.fragments) :
    fragment.IsFragment := by
  obtain ⟨i, hi⟩ := split.exists_index h
  have hlt : i < split.fragments.length := (List.getElem?_eq_some_iff.mp hi).1
  have htwo := split.two_le
  have hcount := split.toNat_fragCount
  have hid := split.toNat_fragId hi
  rw [UDPMessage.IsFragment, (split.header_eq h).2.2.2, UInt8.lt_iff_toNat_lt, UInt8.lt_iff_toNat_lt]
  constructor
  · rw [hcount]
    exact htwo
  · omega

theorem nodup_fragments : split.fragments.Nodup := by
  rw [List.nodup_iff_getElem?_ne_getElem?]
  intro i j hij hj heq
  have hi : i < split.fragments.length := by omega
  have h₁ := split.toNat_fragId (List.getElem?_eq_getElem hi)
  have h₂ := split.toNat_fragId (heq.symm.trans (List.getElem?_eq_getElem hi))
  omega

theorem join_fragments {fragment : UDPMessage} (h : fragment ∈ split.fragments) :
    { fragment with
      data := (split.fragments.map UDPMessage.data).flatten
      fragId := 0
      fragCount := 1 } = split.whole := by
  obtain ⟨hpacket, hsession, haddr, _⟩ := split.header_eq h
  rw [split.flatten_data, whole, hpacket, hsession, haddr, packetId]

theorem complete_concat_iff {received : List UDPMessage} {fragment : UDPMessage}
    (h : fragment ∉ split.fragments) :
    split.Complete (received ++ [fragment]) ↔ split.Complete received := by
  have hmem : ∀ other ∈ split.fragments, (other ∈ received ++ [fragment] ↔ other ∈ received) := by
    intro other hother
    have hne : other ≠ fragment := fun heq => h (heq ▸ hother)
    simp [hne]
  constructor
  · intro hall other hother
    exact (hmem other hother).mp (hall other hother)
  · intro hall other hother
    exact (hmem other hother).mpr (hall other hother)

theorem partiallyReceived_concat_iff {received : List UDPMessage} {fragment : UDPMessage}
    (h : fragment ∉ split.fragments) :
    split.PartiallyReceived (received ++ [fragment]) ↔ split.PartiallyReceived received := by
  have hsome : (∃ other ∈ split.fragments, other ∈ received ++ [fragment]) ↔
      ∃ other ∈ split.fragments, other ∈ received := by
    constructor
    · rintro ⟨other, hother, hmem⟩
      have hne : other ≠ fragment := fun heq => h (heq ▸ hother)
      exact ⟨other, hother, by simpa [hne] using hmem⟩
    · rintro ⟨other, hother, hmem⟩
      exact ⟨other, hother, List.mem_append_left _ hmem⟩
  rw [PartiallyReceived, PartiallyReceived, hsome, split.complete_concat_iff h]

theorem none_received {received : List UDPMessage} {fragment : UDPMessage}
    (hfragment : fragment ∈ split.fragments) (hnew : fragment ∉ received)
    (h : ¬ split.PartiallyReceived received) : ∀ other ∈ split.fragments, other ∉ received := by
  intro other hother hmem
  exact h ⟨⟨other, hother, hmem⟩, fun hall => hnew (hall fragment hfragment)⟩

end Split

/-- An entry holds exactly the fragments of a split message received so far. -/
def PacketState.Holds {profile : Profile} (state : PacketState) (split : Split profile)
    (received : List UDPMessage) : Prop :=
  state.sessionId = split.message.sessionId ∧ state.addr = split.message.addr ∧
    state.fragments = slotsOf split.fragments received

structure Tracks {profile : Profile} (sends : List (Split profile)) (received : List UDPMessage)
    (d : Defragger) : Prop where
  inv : d.Inv
  entry : ∀ split ∈ sends, split.PartiallyReceived received →
    ∃ state, d.packets.get split.packetId = some state ∧ state.Holds split received
  only : ∀ id state, d.packets.get id = some state →
    ∃ split ∈ sends, split.packetId = id ∧ split.PartiallyReceived received

namespace Tracks

variable {profile : Profile} {sends : List (Split profile)} {received : List UDPMessage}
  {d after : Defragger}

theorem eq_of_packetId (hids : (sends.map Split.packetId).Nodup) {split other : Split profile}
    (hsplit : split ∈ sends) (hother : other ∈ sends) (h : other.packetId = split.packetId) :
    other = split :=
  List.inj_on_of_nodup_map hids hother hsplit h

theorem not_mem_of_ne (hids : (sends.map Split.packetId).Nodup) {split other : Split profile}
    (hsplit : split ∈ sends) (hother : other ∈ sends) {fragment : UDPMessage}
    (hfragment : fragment ∈ split.fragments) (hne : other ≠ split) :
    fragment ∉ other.fragments := by
  intro hmem
  exact hne (eq_of_packetId hids hsplit hother
    ((other.header_eq hmem).1.symm.trans (split.header_eq hfragment).1))

theorem update (htracks : Tracks sends received d) (hids : (sends.map Split.packetId).Nodup)
    {split : Split profile} (hsplit : split ∈ sends) {fragment : UDPMessage}
    (hfragment : fragment ∈ split.fragments) (hinv : after.Inv)
    (hframe : ∀ id, id ≠ split.packetId → after.packets.get id = d.packets.get id)
    (hown : (∃ state, after.packets.get split.packetId = some state ∧
        state.Holds split (received ++ [fragment])) ∨
      after.packets.get split.packetId = none ∧ split.Complete (received ++ [fragment])) :
    Tracks sends (received ++ [fragment]) after where
  inv := hinv
  entry := by
    intro other hother hpending
    by_cases heq : other = split
    · subst heq
      rcases hown with hstate | ⟨_, hcomplete⟩
      · exact hstate
      · exact absurd hcomplete hpending.2
    · have hnot := not_mem_of_ne hids hsplit hother hfragment heq
      rw [other.partiallyReceived_concat_iff hnot] at hpending
      obtain ⟨state, hstate, hsession, haddr, hslots⟩ := htracks.entry other hother hpending
      refine ⟨state, ?_, hsession, haddr, ?_⟩
      · rw [hframe _ fun h => heq (eq_of_packetId hids hsplit hother h), hstate]
      · rw [slotsOf_concat_of_not_mem _ hnot, hslots]
  only := by
    intro id state hstate
    by_cases hid : id = split.packetId
    · subst hid
      rcases hown with ⟨state', hstate', hholds⟩ | ⟨hnone, _⟩
      · have hincomplete := (hinv.entry _ _ hstate').incomplete
        refine ⟨split, hsplit, rfl, ⟨fragment, hfragment, by simp⟩, ?_⟩
        intro hall
        rw [hholds.2.2, length_slotsOf, filled_slotsOf_eq_length.mpr hall] at hincomplete
        omega
      · rw [hnone] at hstate
        cases hstate
    · rw [hframe id hid] at hstate
      obtain ⟨other, hother, hpacket, hpending⟩ := htracks.only id state hstate
      refine ⟨other, hother, hpacket, ?_⟩
      have hne : other ≠ split := fun h => hid (hpacket.symm.trans (congrArg _ h))
      rwa [other.partiallyReceived_concat_iff (not_mem_of_ne hids hsplit hother hfragment hne)]

theorem get_eq_none (htracks : Tracks sends received d) (hids : (sends.map Split.packetId).Nodup)
    {split : Split profile} (hsplit : split ∈ sends) (h : ¬ split.PartiallyReceived received) :
    d.packets.get split.packetId = none := by
  cases hget : d.packets.get split.packetId with
  | none => rfl
  | some state =>
    obtain ⟨other, hother, hpacket, hpending⟩ := htracks.only _ _ hget
    rw [eq_of_packetId hids hsplit hother hpacket] at hpending
    exact absurd hpending h

theorem order_length_lt (htracks : Tracks sends received d)
    (hids : (sends.map Split.packetId).Nodup) {split : Split profile} (hsplit : split ∈ sends)
    {fragment : UDPMessage} (hfragment : fragment ∈ split.fragments)
    (hidle : ¬ split.PartiallyReceived received)
    (hstarted : split.PartiallyReceived (received ++ [fragment]))
    (hroom : (sends.filter fun split => split.PartiallyReceived (received ++ [fragment])).length ≤
      maxInFlightPackets) : d.order.length < maxInFlightPackets := by
  have hnew : split.packetId ∉ d.order := by
    rw [htracks.inv.indexed.keys, htracks.get_eq_none hids hsplit hidle]
    simp
  have hnodup : (split.packetId :: d.order).Nodup := List.nodup_cons.mpr ⟨hnew, htracks.inv.indexed.nodup⟩
  have hsubset : split.packetId :: d.order ⊆ (sends.filter fun split =>
      split.PartiallyReceived (received ++ [fragment])).map Split.packetId := by
    intro id hid
    rcases List.mem_cons.mp hid with rfl | hid
    · exact List.mem_map_of_mem (List.mem_filter.mpr ⟨hsplit, by simpa using hstarted⟩)
    · obtain ⟨state, hstate⟩ := Option.isSome_iff_exists.mp ((htracks.inv.indexed.keys id).mp hid)
      obtain ⟨other, hother, rfl, hpending⟩ := htracks.only id state hstate
      have hne : other ≠ split := by
        rintro rfl
        exact hidle hpending
      have hnot := not_mem_of_ne hids hsplit hother hfragment hne
      refine List.mem_map_of_mem (List.mem_filter.mpr ⟨hother, ?_⟩)
      simpa [other.partiallyReceived_concat_iff hnot] using hpending
  have hlength := (List.subperm_of_subset hnodup hsubset).length_le
  rw [List.length_map, List.length_cons] at hlength
  omega

theorem start (htracks : Tracks sends received d) (hids : (sends.map Split.packetId).Nodup)
    {split : Split profile} (hsplit : split ∈ sends) {fragment : UDPMessage}
    (hfragment : fragment ∈ split.fragments) (hnew : fragment ∉ received)
    (hidle : ¬ split.PartiallyReceived received)
    (hroom : (sends.filter fun split => split.PartiallyReceived (received ++ [fragment])).length ≤
      maxInFlightPackets) :
    Tracks sends (received ++ [fragment]) (d.started fragment) ∧
      ¬ split.Complete (received ++ [fragment]) := by
  obtain ⟨hpacket, hsession, haddr, hcount⟩ := split.header_eq hfragment
  obtain ⟨i, hi⟩ := split.exists_index hfragment
  have hfree := split.none_received hfragment hnew hidle
  have hslots : (PacketState.first fragment).fragments =
      slotsOf split.fragments (received ++ [fragment]) := by
    rw [slotsOf_concat split.nodup_fragments _ hi, slotsOf_disjoint hfree, ← split.toNat_fragId hi,
      ← split.toNat_fragCount, ← hcount]
    rfl
  have hincomplete : ¬ split.Complete (received ++ [fragment]) := by
    intro hall
    have hlt := (PacketState.first_wellFormed (split.isFragment hfragment)).incomplete
    rw [hslots, length_slotsOf, filled_slotsOf_eq_length.mpr hall] at hlt
    exact Nat.lt_irrefl _ hlt
  have hstarted : split.PartiallyReceived (received ++ [fragment]) :=
    ⟨⟨fragment, hfragment, by simp⟩, hincomplete⟩
  have hlength := htracks.order_length_lt hids hsplit hfragment hidle hstarted hroom
  have hevict : Defragger.evict (d.packets.remove fragment.packetId)
      (d.order.erase fragment.packetId) = d.removePacket fragment.packetId :=
    Defragger.evict_of_lt _ (List.length_erase_le.trans_lt hlength)
  have hpackets : (d.started fragment).packets =
      (d.packets.remove fragment.packetId).insert fragment.packetId (.first fragment) := by
    rw [Defragger.started, hevict]
    rfl
  refine ⟨?_, hincomplete⟩
  apply htracks.update hids hsplit hfragment
  · exact Defragger.started_inv htracks.inv (split.isFragment hfragment)
  · intro id hid
    rw [← hpacket] at hid
    rw [hpackets, PartialMap.get_insert_of_ne _ hid, PartialMap.get_remove_of_ne _ hid]
  · refine .inl ⟨.first fragment, ?_, hsession, haddr, hslots⟩
    rw [hpackets, ← hpacket, PartialMap.get_insert_self]

theorem later (htracks : Tracks sends received d) (hids : (sends.map Split.packetId).Nodup)
    {split : Split profile} (hsplit : split ∈ sends) {fragment : UDPMessage}
    (hfragment : fragment ∈ split.fragments) (hnew : fragment ∉ received)
    (hpending : split.PartiallyReceived received) {out : Option UDPMessage}
    (hstep : Defragger.FeedStep d fragment out after) :
    Tracks sends (received ++ [fragment]) after ∧
      out = if split.Complete (received ++ [fragment]) then some split.whole else none := by
  obtain ⟨hpacket, hsession, haddr, hcount⟩ := split.header_eq hfragment
  obtain ⟨i, hi⟩ := split.exists_index hfragment
  obtain ⟨state, hget, hstate⟩ := htracks.entry split hsplit hpending
  rw [← hpacket] at hget
  have hlength : state.fragments.length = split.fragments.length := by
    rw [hstate.2.2, length_slotsOf]
  have hmatch : state.Matches fragment := by
    refine ⟨hstate.1.trans hsession.symm, hstate.2.1.trans haddr.symm, ?_⟩
    rw [hlength, hcount, split.toNat_fragCount]
  have hfree : state.fragments[fragment.fragId.toNat]? = some none := by
    rw [hstate.2.2, split.toNat_fragId hi]
    exact getElem?_slotsOf_absent hi hnew
  have hslots : (state.fill fragment).fragments =
      slotsOf split.fragments (received ++ [fragment]) := by
    rw [slotsOf_concat split.nodup_fragments _ hi, ← hstate.2.2, ← split.toNat_fragId hi]
    rfl
  have hcomplete : split.Complete (received ++ [fragment]) ↔
      filled state.fragments + 1 = state.fragments.length := by
    rw [← filled_set hfree fragment, hlength, Split.Complete, ← filled_slotsOf_eq_length, ← hslots]
    rfl
  have hinv := hstep.inv htracks.inv
  cases hstep with
  | passThrough hone => exact absurd (split.isFragment hfragment).1 (UInt8.not_lt.mpr hone)
  | reject _ hle => exact absurd (split.isFragment hfragment).2 (UInt8.not_lt.mpr hle)
  | start _ hnone => exact absurd hmatch (hnone state hget)
  | duplicate _ hget' _ hfilled =>
    cases hget.symm.trans hget'
    cases hfree.symm.trans hfilled
  | fill _ hget' _ _ hmore =>
    cases hget.symm.trans hget'
    rw [if_neg (by rw [hcomplete]; omega)]
    refine ⟨htracks.update hids hsplit hfragment hinv ?_ ?_, rfl⟩
    · intro id hid
      rw [← hpacket] at hid
      exact PartialMap.get_insert_of_ne _ hid _
    · refine .inl ⟨state.fill fragment, ?_, hstate.1, hstate.2.1, hslots⟩
      rw [← hpacket]
      exact PartialMap.get_insert_self _ _ _
  | complete _ hget' _ _ hlast =>
    cases hget.symm.trans hget'
    have hall := hcomplete.mpr hlast
    rw [if_pos hall]
    refine ⟨htracks.update hids hsplit hfragment hinv ?_ ?_, ?_⟩
    · intro id hid
      rw [← hpacket] at hid
      exact PartialMap.get_remove_of_ne _ hid
    · refine .inr ⟨?_, hall⟩
      rw [← hpacket]
      exact PartialMap.get_remove_self _ _
    · rw [Defragger.reassembled, hslots, slotsOf_all hall, List.filterMap_map]
      simpa using split.join_fragments hfragment

/-- One arrival keeps the relation and returns a message exactly when it was the
last fragment of it. -/
theorem step (htracks : Tracks sends received d) (hids : (sends.map Split.packetId).Nodup)
    {split : Split profile} (hsplit : split ∈ sends) {fragment : UDPMessage}
    (hfragment : fragment ∈ split.fragments) (hnew : fragment ∉ received)
    (hroom : (sends.filter fun split => split.PartiallyReceived (received ++ [fragment])).length ≤
      maxInFlightPackets) {out : Option UDPMessage}
    (hstep : Defragger.FeedStep d fragment out after) :
    Tracks sends (received ++ [fragment]) after ∧
      out = if split.Complete (received ++ [fragment]) then some split.whole else none := by
  by_cases hpending : split.PartiallyReceived received
  · exact htracks.later hids hsplit hfragment hnew hpending hstep
  · obtain ⟨hstarted, hincomplete⟩ := htracks.start hids hsplit hfragment hnew hpending hroom
    have hnone := htracks.get_eq_none hids hsplit hpending
    rw [← (split.header_eq hfragment).1] at hnone
    rw [if_neg hincomplete]
    cases hstep with
    | passThrough hone => exact absurd (split.isFragment hfragment).1 (UInt8.not_lt.mpr hone)
    | reject _ hle => exact absurd (split.isFragment hfragment).2 (UInt8.not_lt.mpr hle)
    | start => exact ⟨hstarted, rfl⟩
    | duplicate _ hget => cases hnone.symm.trans hget
    | fill _ hget => cases hnone.symm.trans hget
    | complete _ hget => cases hnone.symm.trans hget

theorem empty_nil : Tracks sends [] Defragger.empty where
  inv := Defragger.empty_inv
  entry := by
    rintro split _ ⟨⟨fragment, _, hmem⟩, _⟩
    cases hmem
  only := by
    intro id state hstate
    cases hstate

theorem eq_empty (htracks : Tracks sends received d)
    (hall : ∀ split ∈ sends, split.Complete received) : d = Defragger.empty := by
  have hget (id : UInt16) : d.packets.get id = none := by
    cases hget : d.packets.get id with
    | none => rfl
    | some state =>
      obtain ⟨split, hsplit, _, hpending⟩ := htracks.only _ _ hget
      exact absurd (hall split hsplit) hpending.2
  have hpackets : d.packets = .empty := PartialMap.ext hget
  have horder : d.order = [] := by
    apply List.eq_nil_iff_forall_not_mem.mpr
    intro id
    rw [htracks.inv.indexed.keys, hget]
    simp
  cases d
  cases hpackets
  cases horder
  rfl

theorem run (receiver : Profile) (hids : (sends.map Split.packetId).Nodup)
    (hmem : ∀ fragment ∈ received, ∃ split ∈ sends, fragment ∈ split.fragments)
    (hnodup : received.Nodup)
    (hroom : ∀ pre, pre <+: received →
      (sends.filter fun split => split.PartiallyReceived pre).length ≤ maxInFlightPackets) :
    ∃ outs d, (Defragger.empty.feedAll receiver received : Exec ε _) = .ok (outs, d) ∧
      Tracks sends received d ∧ outs.length = received.length ∧
      ∀ (k : Nat) (fragment : UDPMessage) (split : Split profile), received[k]? = some fragment →
        split ∈ sends → fragment ∈ split.fragments →
        outs[k]? = some (if split.Complete (received.take (k + 1)) then some split.whole else none) := by
  induction received using List.reverseRecOn with
  | nil => exact ⟨[], .empty, rfl, empty_nil, rfl, by simp⟩
  | append_singleton received fragment ih =>
    have hnew : fragment ∉ received := by
      intro hin
      exact (List.nodup_append.mp hnodup).2.2 fragment hin fragment (by simp) rfl
    obtain ⟨outs, d, hall, htracks, hlength, houts⟩ := ih
      (fun fragment hfragment => hmem fragment (by simp [hfragment]))
      (List.nodup_append.mp hnodup).1
      (fun pre hpre => hroom pre (hpre.trans (List.prefix_append _ _)))
    obtain ⟨split, hsplit, hfragment⟩ := hmem fragment (by simp)
    obtain ⟨out, after, hfeed, hstep⟩ := Defragger.feed_step (ε := ε) htracks.inv receiver fragment
    obtain ⟨htracks', hout⟩ := htracks.step hids hsplit hfragment hnew
      (hroom _ (List.prefix_refl _)) hstep
    refine ⟨outs ++ [out], after, Defragger.feedAll_concat hall hfeed, htracks', by simp [hlength], ?_⟩
    intro k other split' hk hsplit' hother
    rcases Nat.lt_or_ge k received.length with hlt | hge
    · rw [List.getElem?_append_left hlt] at hk
      rw [List.getElem?_append_left (by omega), houts k other split' hk hsplit' hother,
        List.take_append_of_le_length hlt]
    · rw [List.getElem?_append_right hge] at hk
      obtain ⟨hzero, rfl⟩ : k - received.length = 0 ∧ fragment = other := by
        simpa using List.getElem?_eq_some_iff.mp hk
      obtain rfl : split' = split := by
        by_contra hne
        exact not_mem_of_ne hids hsplit hsplit' hfragment hne hother
      rw [List.getElem?_append_right (by omega), hlength, hzero, hout, List.take_of_length_le]
      · rfl
      · simp only [List.length_append, List.length_singleton]
        omega

end Tracks

namespace Split

variable {profile : Profile}

/-- No fragment of the message arrives after the position `k`. -/
def LastAt (split : Split profile) (arrivals : List UDPMessage) (k : Nat) : Prop :=
  ∀ fragment ∈ arrivals.drop (k + 1), fragment ∉ split.fragments

instance (split : Split profile) (arrivals : List UDPMessage) (k : Nat) :
    Decidable (split.LastAt arrivals k) :=
  inferInstanceAs (Decidable (∀ fragment ∈ arrivals.drop (k + 1), fragment ∉ split.fragments))

theorem complete_take_iff {split : Split profile} {arrivals : List UDPMessage}
    (hnodup : arrivals.Nodup) (hall : split.Complete arrivals) (k : Nat) :
    split.Complete (arrivals.take (k + 1)) ↔ split.LastAt arrivals k := by
  have hcut := List.take_append_drop (k + 1) arrivals
  have hdisjoint := (List.nodup_append.mp (hcut.symm ▸ hnodup)).2.2
  constructor
  · intro htake fragment hdrop hfragment
    exact hdisjoint fragment (htake fragment hfragment) fragment hdrop rfl
  · intro hlast fragment hfragment
    have hmem := hall fragment hfragment
    rw [← hcut, List.mem_append] at hmem
    rcases hmem with htake | hdrop
    · exact htake
    · exact absurd hfragment (hlast fragment hdrop)

theorem LastAt.le {split : Split profile} {arrivals : List UDPMessage} {k l : Nat}
    {fragment : UDPMessage} (h : split.LastAt arrivals k) (hl : arrivals[l]? = some fragment)
    (hfragment : fragment ∈ split.fragments) : l ≤ k := by
  by_contra hlt
  have hdrop : (arrivals.drop (k + 1))[l - (k + 1)]? = some fragment := by
    rw [List.getElem?_drop, ← hl]
    congr 1
    omega
  exact h fragment (List.mem_of_getElem? hdrop) hfragment

theorem exists_lastAt {split : Split profile} {arrivals : List UDPMessage}
    (hall : split.Complete arrivals) :
    ∃ (k : Nat) (fragment : UDPMessage), arrivals[k]? = some fragment ∧
      fragment ∈ split.fragments ∧ split.LastAt arrivals k := by
  obtain ⟨first, hfirst⟩ : ∃ first, first ∈ split.fragments :=
    List.exists_mem_of_length_pos (by have := split.two_le; omega)
  obtain ⟨before, fragment, after, rfl, hfragment, hafter⟩ :=
    exists_last (p := (· ∈ split.fragments)) ⟨first, hall first hfirst, hfirst⟩
  refine ⟨before.length, fragment, by simp, hfragment, ?_⟩
  intro other hother
  exact hafter other (by simpa using hother)

end Split

theorem feedAll_arrivals {sender : Profile} (receiver : Profile) (sends : List (Split sender))
    (arrivals : List UDPMessage) (hids : (sends.map Split.packetId).Nodup)
    (hperm : arrivals.Perm (sends.flatMap Split.fragments))
    (hroom : ∀ received, received <+: arrivals →
      (sends.filter fun split => split.PartiallyReceived received).length ≤ maxInFlightPackets) :
    ∃ outs, (Defragger.empty.feedAll receiver arrivals : Exec ε _) = .ok (outs, .empty) ∧
      outs.length = arrivals.length ∧
      ∀ (k : Nat) (fragment : UDPMessage) (split : Split sender), arrivals[k]? = some fragment →
        split ∈ sends → fragment ∈ split.fragments →
        outs[k]? = some (if split.LastAt arrivals k then some split.whole else none) := by
  have hmem : ∀ fragment ∈ arrivals, ∃ split ∈ sends, fragment ∈ split.fragments := by
    intro fragment hfragment
    exact List.mem_flatMap.mp (hperm.mem_iff.mp hfragment)
  have hcomplete : ∀ split ∈ sends, split.Complete arrivals := by
    intro split hsplit fragment hfragment
    exact hperm.mem_iff.mpr (List.mem_flatMap.mpr ⟨split, hsplit, hfragment⟩)
  have hnodup : arrivals.Nodup := by
    rw [hperm.nodup_iff, List.nodup_flatMap]
    refine ⟨fun split _ => split.nodup_fragments, ?_⟩
    rw [List.Nodup, List.pairwise_map] at hids
    apply hids.imp
    intro split other hne fragment hfragment hother
    exact hne ((split.header_eq hfragment).1.symm.trans (other.header_eq hother).1)
  obtain ⟨outs, d, hall, htracks, hlength, houts⟩ :=
    Tracks.run (ε := ε) receiver hids hmem hnodup hroom
  refine ⟨outs, ?_, hlength, ?_⟩
  · rw [hall, htracks.eq_empty hcomplete]
  · intro k fragment split hk hsplit hfragment
    rw [houts k fragment split hk hsplit hfragment]
    simp only [Split.complete_take_iff hnodup (hcomplete split hsplit)]

/-- Interleaved messages with distinct packet ids are all reassembled, each once
and at the arrival of its last fragment. -/
theorem feedAll_interleaved (sender receiver : Profile) (sends : List (Split sender))
    (arrivals : List UDPMessage) (hids : (sends.map Split.packetId).Nodup)
    (hperm : arrivals.Perm (sends.flatMap Split.fragments))
    (hroom : ∀ received, received <+: arrivals →
      (sends.filter fun split => split.PartiallyReceived received).length ≤ maxInFlightPackets) :
    ∃ outs, (Defragger.empty.feedAll receiver arrivals : Exec Empty _) = .ok (outs, .empty) ∧
      (∀ (k : Nat) (fragment : UDPMessage) (split : Split sender), arrivals[k]? = some fragment →
        split ∈ sends → fragment ∈ split.fragments →
        outs[k]? = some (if split.LastAt arrivals k then some split.whole else none)) ∧
      ∀ split ∈ sends, (∃! k : Nat, outs[k]? = some (some split.whole)) ∧
        (split.message.fragId = 0 → split.message.fragCount = 1 → split.whole = split.message) := by
  obtain ⟨outs, hall, hlength, houts⟩ := feedAll_arrivals (ε := Empty) receiver sends arrivals hids
    hperm hroom
  refine ⟨outs, hall, houts, ?_⟩
  intro split hsplit
  refine ⟨?_, ?_⟩
  · have hlast (k : Nat) (hk : outs[k]? = some (some split.whole)) : split.LastAt arrivals k ∧
        ∃ fragment ∈ split.fragments, arrivals[k]? = some fragment := by
      have hlt : k < arrivals.length := by
        rw [← hlength]
        exact (List.getElem?_eq_some_iff.mp hk).1
      have hget : arrivals[k]? = some arrivals[k] := List.getElem?_eq_getElem hlt
      obtain ⟨other, hother, hfragment⟩ := List.mem_flatMap.mp
        (hperm.mem_iff.mp (List.getElem_mem hlt))
      rw [houts k _ other hget hother hfragment] at hk
      split at hk
      · next h =>
        have hwhole : other.whole = split.whole := Option.some.inj (Option.some.inj hk)
        have hpacket : other.whole.packetId = split.whole.packetId :=
          congrArg UDPMessage.packetId hwhole
        obtain rfl := Tracks.eq_of_packetId hids hsplit hother hpacket
        exact ⟨h, _, hfragment, hget⟩
      · cases hk
    have hcomplete : split.Complete arrivals := by
      intro fragment hfragment
      exact hperm.mem_iff.mpr (List.mem_flatMap.mpr ⟨split, hsplit, hfragment⟩)
    obtain ⟨k, fragment, hget, hfragment, hk⟩ := Split.exists_lastAt hcomplete
    refine ⟨k, ?_, ?_⟩
    · dsimp only
      rw [houts k fragment split hget hsplit hfragment, if_pos hk]
    · intro l hl
      obtain ⟨hlastl, other, hother, hgetl⟩ := hlast l hl
      exact Nat.le_antisymm (hk.le hgetl hother) (hlastl.le hget hfragment)
  · intro hid hcount
    rw [Split.whole, ← hid, ← hcount]

def twoFragments (packetId : UInt16) : Split ⟨false⟩ :=
  .ofSize ⟨false⟩ ⟨7, packetId, 0, 1, "a:1", [10, 11, 12]⟩ 14
    (show 12 < 14 by decide) (show 14 < 15 by decide) (show chunkCount 3 (14 - 12) ≤ 255 by decide)

theorem feedAll_interleaved_two :
    ∃ outs, (Defragger.empty.feedAll ⟨true⟩
        [⟨7, 1, 1, 2, "a:1", [12]⟩, ⟨7, 2, 1, 2, "a:1", [12]⟩,
          ⟨7, 1, 0, 2, "a:1", [10, 11]⟩, ⟨7, 2, 0, 2, "a:1", [10, 11]⟩] : Exec Empty _) =
        .ok (outs, .empty) ∧
      outs[1]? = some none ∧ outs[2]? = some (some ⟨7, 1, 0, 1, "a:1", [10, 11, 12]⟩) := by
  obtain ⟨outs, hall, houts, _⟩ := feedAll_interleaved ⟨false⟩ ⟨true⟩
    [twoFragments 1, twoFragments 2]
    [⟨7, 1, 1, 2, "a:1", [12]⟩, ⟨7, 2, 1, 2, "a:1", [12]⟩,
      ⟨7, 1, 0, 2, "a:1", [10, 11]⟩, ⟨7, 2, 0, 2, "a:1", [10, 11]⟩]
    (by decide) (by decide) (fun _ _ => (List.length_filter_le _ _).trans (by decide))
  refine ⟨outs, hall, ?_, ?_⟩
  · rw [houts 1 _ (twoFragments 2) rfl (.tail _ (.head _)) (by decide), if_neg (by decide)]
  · rw [houts 2 _ (twoFragments 1) rfl (.head _) (by decide), if_pos (by decide)]
    rfl

theorem Split.feedAll_perm {sender : Profile} (receiver : Profile) (split : Split sender)
    {order : List UDPMessage} (hperm : order.Perm split.fragments) :
    (Defragger.empty.feedAll receiver order : Exec ε _) =
      .ok (List.replicate (split.fragments.length - 1) none ++ [some split.whole], .empty) := by
  obtain ⟨outs, hall, hlength, houts⟩ := feedAll_arrivals (ε := ε) receiver [split] order (by simp)
    (by simpa using hperm)
    (fun _ _ => (List.length_filter_le _ _).trans (Nat.le_add_left 1 63))
  have hcount := hperm.length_eq
  have htwo := split.two_le
  have hlast (k : Nat) (hk : k < order.length) :
      split.LastAt order k ↔ k = split.fragments.length - 1 := by
    constructor
    · intro h
      by_contra hne
      have hget : order[order.length - 1]? = some order[order.length - 1] :=
        List.getElem?_eq_getElem (by omega)
      have := h.le hget (hperm.mem_iff.mp (List.getElem_mem _))
      omega
    · rintro rfl fragment hdrop
      rw [List.drop_eq_nil_of_le (by omega)] at hdrop
      cases hdrop
  have houts_eq : outs = List.replicate (split.fragments.length - 1) none ++ [some split.whole] := by
    apply List.ext_getElem?
    intro k
    rcases Nat.lt_or_ge k order.length with hk | hk
    · have hget : order[k]? = some order[k] := List.getElem?_eq_getElem hk
      rw [houts k _ split hget (by simp) (hperm.mem_iff.mp (List.getElem_mem hk))]
      by_cases h : k = split.fragments.length - 1
      · rw [if_pos ((hlast k hk).mpr h), h, List.getElem?_append_right (by simp)]
        simp
      · rw [if_neg (fun h' => h ((hlast k hk).mp h')), List.getElem?_append_left (by simp; omega),
          List.getElem?_replicate, if_pos (by omega)]
    · rw [List.getElem?_eq_none (by omega), List.getElem?_eq_none]
      simp only [List.length_append, List.length_replicate, List.length_singleton]
      omega
  rw [hall, houts_eq]

theorem fragment_roundtrip (sender receiver : Profile) (message : UDPMessage) (maxSize : Nat)
    (hid : message.fragId = 0) (hcount : message.fragCount = 1)
    (hpos : 1 ≤ message.addr.utf8ByteSize) (haddr : message.addr.utf8ByteSize ≤ maxMessageLength)
    (hheader : message.headerSize < maxSize)
    (hfragments : chunkCount message.data.length (maxSize - message.headerSize) ≤ 255) :
    ∃ fragments, (fragUdpMessage sender message maxSize : Exec Empty _) = .ok fragments ∧
      (∀ fragment ∈ fragments, ∃ bytes, fragment.datagram = .ok bytes ∧ bytes.length ≤ maxSize) ∧
      ∀ order : List UDPMessage, order.Perm fragments → ∃ datagrams received,
        order.mapM UDPMessage.datagram = .ok datagrams ∧
        datagrams.mapM parseUdpMessage = .ok received ∧
        (Defragger.empty.feedAll receiver received : Exec Empty _) =
          .ok (List.replicate (fragments.length - 1) none ++ [some message], .empty) := by
  by_cases hfit : message.size ≤ maxSize
  · refine ⟨[message], ?_, ?_, ?_⟩
    · rw [fragUdpMessage, if_pos hfit]
      rfl
    · intro fragment hfragment
      rw [List.mem_singleton.mp hfragment]
      refine ⟨message.wireBytes, UDPMessage.datagram_eq haddr, ?_⟩
      rw [UDPMessage.length_wireBytes]
      exact hfit
    · intro order hperm
      obtain rfl := List.perm_singleton.mp hperm
      obtain ⟨hsent, hparsed⟩ := mapM_wire [message] (by simpa using hpos) (by simpa using haddr)
      refine ⟨_, _, hsent, hparsed, Defragger.feedAll_cons ?_ rfl⟩
      rw [Defragger.feed, if_pos (by simp [hcount])]
      rfl
  · have hlarge : maxSize < message.size := Nat.lt_of_not_le hfit
    let split := Split.ofSize sender message maxSize hheader hlarge hfragments
    have hwhole : split.whole = message := by
      change { message with fragId := 0, fragCount := 1 } = message
      rw [← hid, ← hcount]
    have hfragment : ∀ fragment ∈ split.fragments, fragment.addr = message.addr ∧
        fragment.data.length ≤ maxSize - message.headerSize := by
      intro fragment hfragment
      exact mem_numbered_chunks hfragment
    refine ⟨split.fragments, split.run, ?_, ?_⟩
    · intro fragment hmem
      obtain ⟨haddr_eq, hdata⟩ := hfragment fragment hmem
      have hheader_eq : fragment.headerSize = message.headerSize := by
        rw [UDPMessage.headerSize, UDPMessage.addrLen, haddr_eq]
        rfl
      refine ⟨fragment.wireBytes, UDPMessage.datagram_eq (by rw [haddr_eq]; exact haddr), ?_⟩
      rw [UDPMessage.length_wireBytes, UDPMessage.size, hheader_eq]
      omega
    · intro order hperm
      obtain ⟨hsent, hparsed⟩ := mapM_wire order
        (fun fragment h => by rw [(hfragment fragment (hperm.mem_iff.mp h)).1]; exact hpos)
        (fun fragment h => by rw [(hfragment fragment (hperm.mem_iff.mp h)).1]; exact haddr)
      refine ⟨_, _, hsent, hparsed, ?_⟩
      rw [split.feedAll_perm receiver hperm, hwhole]

theorem fragment_roundtrip_reversed :
    ∃ datagrams received,
      [⟨7, 9, 1, 2, "a:1", [12]⟩, ⟨7, 9, 0, 2, "a:1", [10, 11]⟩].mapM UDPMessage.datagram =
        .ok datagrams ∧
      datagrams.mapM parseUdpMessage = .ok received ∧
      (Defragger.empty.feedAll ⟨true⟩ received : Exec Empty _) =
        .ok ([none, some ⟨7, 9, 0, 1, "a:1", [10, 11, 12]⟩], .empty) := by
  obtain ⟨fragments, hrun, _, hall⟩ := fragment_roundtrip ⟨true⟩ ⟨true⟩
    ⟨7, 9, 0, 1, "a:1", [10, 11, 12]⟩ 14 rfl rfl (by decide) (by decide) (by decide) (by decide)
  have hfragments : fragments = [⟨7, 9, 0, 2, "a:1", [10, 11]⟩, ⟨7, 9, 1, 2, "a:1", [12]⟩] := by
    rw [fragUdpMessage_eq _ _ (by decide) (by decide), if_neg (by decide)] at hrun
    exact (Except.ok.inj hrun).symm
  subst hfragments
  exact hall _ (List.Perm.swap _ _ _)

end Hysteria.Core
