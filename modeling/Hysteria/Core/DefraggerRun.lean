import Hysteria.Core.DefraggerInvariant
import Mathlib.Data.List.DropRight

/-! Whole runs of a `Defragger`, with the log of what was fed and returned. -/
namespace Hysteria.Core
open Lib

/-- Two messages a `Defragger` takes for fragments of one packet. -/
def UDPMessage.SamePacket (fragment message : UDPMessage) : Prop :=
  fragment.packetId = message.packetId ∧ fragment.sessionId = message.sessionId ∧
    fragment.addr = message.addr ∧ fragment.fragCount = message.fragCount

namespace Defragger

abbrev Log := List (UDPMessage × Option UDPMessage)

inductive Feeds (start : Defragger) : Log → Defragger → Prop where
  | nil : Feeds start [] start
  | snoc {log : Log} {d after : Defragger} {message : UDPMessage} {out : Option UDPMessage} :
      Feeds start log d → FeedStep d message out after → Feeds start (log ++ [(message, out)]) after

theorem Feeds.inv {start d : Defragger} {log : Log} (h : Feeds start log d) (hstart : start.Inv) :
    d.Inv := by
  induction h with
  | nil => exact hstart
  | snoc _ hstep ih => exact hstep.inv ih

theorem feedAll_cons {profile : Profile} {self d after : Defragger} {message : UDPMessage}
    {messages : List UDPMessage} {out : Option UDPMessage} {outs : List (Option UDPMessage)}
    (hfeed : (self.feed profile message : Exec ε _) = .ok (out, d))
    (hrest : (d.feedAll profile messages : Exec ε _) = .ok (outs, after)) :
    (self.feedAll profile (message :: messages) : Exec ε _) = .ok (out :: outs, after) := by
  rw [feedAll, hfeed, ok_bind]
  dsimp only
  rw [hrest]
  rfl

theorem feedAll_concat {profile : Profile} {self d after : Defragger} {message : UDPMessage}
    {messages : List UDPMessage} {out : Option UDPMessage} {outs : List (Option UDPMessage)}
    (hall : (self.feedAll profile messages : Exec ε _) = .ok (outs, d))
    (hfeed : (d.feed profile message : Exec ε _) = .ok (out, after)) :
    (self.feedAll profile (messages ++ [message]) : Exec ε _) = .ok (outs ++ [out], after) := by
  induction messages generalizing self outs with
  | nil =>
    cases hall
    exact feedAll_cons hfeed rfl
  | cons first messages ih =>
    obtain ⟨⟨out', d'⟩, hfirst, hall⟩ := bind_eq_ok.mp hall
    obtain ⟨⟨outs', d''⟩, hrest, hall⟩ := bind_eq_ok.mp hall
    cases hall
    exact feedAll_cons hfirst (ih hrest)

theorem feedAll_feeds {start : Defragger} (hstart : start.Inv) (profile : Profile)
    (messages : List UDPMessage) :
    ∃ log d, log.map Prod.fst = messages ∧ Feeds start log d ∧
      (start.feedAll profile messages : Exec ε _) = .ok (log.map Prod.snd, d) := by
  induction messages using List.reverseRecOn with
  | nil => exact ⟨[], start, rfl, .nil, rfl⟩
  | append_singleton messages message ih =>
    obtain ⟨log, d, rfl, hfeeds, hall⟩ := ih
    obtain ⟨out, after, hfeed, hstep⟩ := feed_step (ε := ε) (hfeeds.inv hstart) profile message
    refine ⟨log ++ [(message, out)], after, by simp, hfeeds.snoc hstep, ?_⟩
    rw [List.map_append]
    exact feedAll_concat hall hfeed

def reassembles (id : UInt16) (entry : UDPMessage × Option UDPMessage) : Bool :=
  entry.1.packetId == id && decide (1 < entry.1.fragCount) && entry.2.isSome

/-- What was fed after the packet `id` was last reassembled. -/
def recent (id : UInt16) (log : Log) : List UDPMessage :=
  (log.rtakeWhile fun entry => !reassembles id entry).map Prod.fst

theorem recent_subset (id : UInt16) (log : Log) {message : UDPMessage}
    (h : message ∈ recent id log) : message ∈ log.map Prod.fst := by
  obtain ⟨entry, hentry, rfl⟩ := List.mem_map.mp h
  exact List.mem_map_of_mem ((List.rtakeWhile_suffix _ _).subset hentry)

theorem recent_concat {id : UInt16} {entry : UDPMessage × Option UDPMessage} (log : Log)
    (h : reassembles id entry = false) :
    recent id (log ++ [entry]) = recent id log ++ [entry.1] := by
  rw [recent, List.rtakeWhile_concat_pos _ _ _ (by simpa using h), List.map_append]
  rfl

theorem FeedStep.slot {self after : Defragger} {message fragment : UDPMessage}
    {out : Option UDPMessage} {id : UInt16} {state : PacketState} {i : Nat}
    (hstep : FeedStep self message out after) (hstate : after.packets.get id = some state)
    (hslot : state.fragments[i]? = some (some fragment)) :
    reassembles id (message, out) = false ∧ (fragment = message ∨
      ∃ old, self.packets.get id = some old ∧ old.fragments[i]? = some (some fragment)) := by
  cases hstep with
  | passThrough hone => exact ⟨by simp [reassembles, UInt8.not_lt.mpr hone], .inr ⟨_, hstate, hslot⟩⟩
  | reject => exact ⟨by simp [reassembles], .inr ⟨_, hstate, hslot⟩⟩
  | start hfrag hnew =>
    refine ⟨by simp [reassembles], ?_⟩
    rcases PartialMap.get_of_get_insert hstate with ⟨rfl, rfl⟩ | ⟨_, hold⟩
    · rcases getElem?_set_some hslot with ⟨_, rfl⟩ | ⟨_, hnone⟩
      · exact .inl rfl
      · simp [List.getElem?_replicate] at hnone
    · exact .inr ⟨_, (PartialMap.get_of_get_remove (get_of_get_evict hold)).2, hslot⟩
  | duplicate => exact ⟨by simp [reassembles], .inr ⟨_, hstate, hslot⟩⟩
  | fill hfrag hold hmatch hfree hmore =>
    refine ⟨by simp [reassembles], ?_⟩
    rcases PartialMap.get_of_get_insert hstate with ⟨rfl, rfl⟩ | ⟨_, hother⟩
    · rcases getElem?_set_some hslot with ⟨_, rfl⟩ | ⟨_, hfilled⟩
      · exact .inl rfl
      · exact .inr ⟨_, hold, hfilled⟩
    · exact .inr ⟨_, hother, hslot⟩
  | complete =>
    obtain ⟨hne, hold⟩ := PartialMap.get_of_get_remove hstate
    exact ⟨by simp [reassembles, Ne.symm hne], .inr ⟨_, hold, hslot⟩⟩

theorem Feeds.slot {d : Defragger} {log : Log} (h : Feeds empty log d) {id : UInt16}
    {state : PacketState} {i : Nat} {fragment : UDPMessage}
    (hstate : d.packets.get id = some state)
    (hslot : state.fragments[i]? = some (some fragment)) : fragment ∈ recent id log := by
  induction h generalizing state with
  | nil => cases hstate
  | snoc _ hstep ih =>
    obtain ⟨hkept, hfrom⟩ := hstep.slot hstate hslot
    rw [recent_concat _ hkept, List.mem_append]
    rcases hfrom with rfl | ⟨old, hold, hfilled⟩
    · exact .inr (List.mem_singleton_self _)
    · exact .inl (ih hold hfilled)

/-- The fragments a reassembled message was made from, in order. -/
structure Parts (message : UDPMessage) (state : PacketState) (parts : List UDPMessage) : Prop where
  length_eq : parts.length = message.fragCount.toNat
  part : ∀ (i : Nat) (fragment : UDPMessage), parts[i]? = some fragment →
    fragment.fragId.toNat = i ∧ fragment.SamePacket message ∧
      (fragment = message ∨ state.fragments[i]? = some (some fragment))

theorem FeedStep.parts {self after : Defragger} {message result : UDPMessage} (hinv : self.Inv)
    (hstep : FeedStep self message (some result) after) (hcount : 1 < message.fragCount) :
    ∃ state parts, self.packets.get message.packetId = some state ∧ Parts message state parts ∧
      result = { message with
        data := (parts.map UDPMessage.data).flatten, fragId := 0, fragCount := 1 } := by
  cases hstep with
  | passThrough hone => exact absurd hcount (UInt8.not_lt.mpr hone)
  | @complete state hfrag hstate hmatch hslot hlast =>
    have hwf := hinv.entry _ _ hstate
    have hlength : (state.fill message).fragments.length = state.fragments.length :=
      List.length_set
    obtain ⟨parts, hparts⟩ : ∃ parts : List UDPMessage,
        (state.fill message).fragments = parts.map some :=
      exists_values ((filled_set hslot message).trans (hlast.trans hlength.symm))
    refine ⟨state, parts, hstate, ⟨?_, ?_⟩, ?_⟩
    · rw [← hmatch.2.2, ← hlength, hparts, List.length_map]
    · intro i fragment hi
      have hfilled : (state.fill message).fragments[i]? = some (some fragment) := by
        rw [hparts, List.getElem?_map, hi]
        rfl
      rcases getElem?_set_some hfilled with ⟨rfl, rfl⟩ | ⟨_, hold⟩
      · exact ⟨rfl, ⟨rfl, rfl, rfl, rfl⟩, .inl rfl⟩
      · obtain ⟨hid, hpacket, hsession, haddr, hcount'⟩ := hwf.slot i fragment hold
        refine ⟨hid, ⟨hpacket, ?_, ?_, ?_⟩, .inr hold⟩
        · exact hsession.symm.trans hmatch.1
        · exact haddr.symm.trans hmatch.2.1
        · exact UInt8.toNat_inj.mp (hcount'.symm.trans hmatch.2.2)
    · rw [reassembled, hparts, List.filterMap_map]
      simp

theorem Feeds.at_entry {start d : Defragger} {before after : Log} {message : UDPMessage}
    {out : Option UDPMessage} (h : Feeds start (before ++ (message, out) :: after) d) :
    ∃ d₁ d₂, Feeds start before d₁ ∧ FeedStep d₁ message out d₂ := by
  induction after using List.reverseRecOn generalizing d with
  | nil =>
    generalize hlog : before ++ [(message, out)] = log at h
    cases h with
    | nil => simp at hlog
    | snoc hbefore hstep =>
      obtain ⟨rfl, hentry⟩ := List.append_inj' hlog rfl
      cases hentry
      exact ⟨_, _, hbefore, hstep⟩
  | append_singleton after entry ih =>
    generalize hlog : before ++ (message, out) :: (after ++ [entry]) = log at h
    cases h with
    | nil => simp at hlog
    | snoc hbefore _ =>
      rw [← List.cons_append, ← List.append_assoc] at hlog
      obtain ⟨rfl, _⟩ := List.append_inj' hlog rfl
      exact ih hbefore

/-- Where a returned message comes from: it was not fragmented, or it is the
concatenation of fragments fed since the packet was last reassembled. -/
theorem Feeds.origin {d : Defragger} {before after : Log} {message result : UDPMessage}
    (h : Feeds empty (before ++ (message, some result) :: after) d) :
    message.fragCount ≤ 1 ∧ result = message ∨
      1 < message.fragCount ∧ ∃ parts : List UDPMessage,
        parts.length = message.fragCount.toNat ∧
        (∀ (i : Nat) (fragment : UDPMessage), parts[i]? = some fragment →
          fragment.fragId.toNat = i ∧ fragment.SamePacket message ∧
            (fragment = message ∨ fragment ∈ recent message.packetId before)) ∧
        result = { message with
          data := (parts.map UDPMessage.data).flatten, fragId := 0, fragCount := 1 } := by
  obtain ⟨d₁, d₂, hbefore, hstep⟩ := h.at_entry
  by_cases hcount : 1 < message.fragCount
  · obtain ⟨state, parts, hstate, hparts, hresult⟩ := hstep.parts (hbefore.inv empty_inv) hcount
    refine .inr ⟨hcount, parts, hparts.length_eq, ?_, hresult⟩
    intro i fragment hi
    obtain ⟨hid, hsame, hfrom⟩ := hparts.part i fragment hi
    refine ⟨hid, hsame, hfrom.imp_right ?_⟩
    intro hslot
    exact hbefore.slot hstate hslot
  · refine .inl ⟨UInt8.not_lt.mp hcount, ?_⟩
    cases hstep with
    | passThrough => rfl
    | complete hfrag => exact absurd hfrag.1 hcount

/-- Whatever is fed, `feed` returns, keeps the invariant of the defragger, and
returns only unfragmented messages and concatenations of fragments of one packet
that were all fed by then. -/
theorem feedAll_sound (profile : Profile) (messages : List UDPMessage) :
    ∃ outs d, (empty.feedAll profile messages : Exec Empty _) = .ok (outs, d) ∧ d.Inv ∧
      ∀ (k : Nat) (message result : UDPMessage), messages[k]? = some message →
        outs[k]? = some (some result) →
        message.fragCount ≤ 1 ∧ result = message ∨
          1 < message.fragCount ∧ ∃ parts : List UDPMessage,
            parts.length = message.fragCount.toNat ∧
            (∀ (i : Nat) (fragment : UDPMessage), parts[i]? = some fragment →
              fragment ∈ messages.take (k + 1) ∧ fragment.fragId.toNat = i ∧
                fragment.SamePacket message) ∧
            result = { message with
              data := (parts.map UDPMessage.data).flatten, fragId := 0, fragCount := 1 } := by
  obtain ⟨log, d, rfl, hfeeds, hall⟩ := feedAll_feeds (ε := Empty) empty_inv profile messages
  refine ⟨log.map Prod.snd, d, hall, hfeeds.inv empty_inv, ?_⟩
  intro k message result hmessage hresult
  have hk : k < log.length := by
    by_contra hk
    rw [List.getElem?_eq_none (by simpa using hk)] at hmessage
    cases hmessage
  have hentry : log[k] = (message, some result) := by
    rw [List.getElem?_map, List.getElem?_eq_getElem hk] at hmessage hresult
    exact Prod.ext (Option.some.inj hmessage) (Option.some.inj hresult)
  have hcut : log = log.take k ++ (message, some result) :: log.drop (k + 1) := by
    rw [← hentry, List.getElem_cons_drop, List.take_append_drop]
  rw [hcut] at hfeeds
  rcases hfeeds.origin with hwhole | ⟨hcount, parts, hlength, hpart, heq⟩
  · exact .inl hwhole
  · refine .inr ⟨hcount, parts, hlength, ?_, heq⟩
    intro i fragment hi
    obtain ⟨hid, hsame, hfed⟩ := hpart i fragment hi
    refine ⟨?_, hid, hsame⟩
    rw [← List.map_take, ← List.take_append_getElem hk, hentry, List.map_append, List.mem_append]
    rcases hfed with rfl | hrecent
    · exact .inr (by simp)
    · exact .inl (recent_subset _ _ hrecent)

end Defragger
end Hysteria.Core
