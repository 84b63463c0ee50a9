import Hysteria.Lib.Transition

/-! Two parties at the ends of a connection, with a pipe of bounded size in each direction.
A party asks to write or to read, and the connection lets it write or read any part of that.
Parties that go through one and the same list of bytes, each of them sent by one of the two,
never wait for each other: the one that is ahead has what is between them in its pipe. -/
namespace Hysteria.Lib

inductive Side where
  | left
  | right
deriving DecidableEq, Repr

def Side.other : Side → Side
  | .left => .right
  | .right => .left

@[simp] theorem Side.other_other (side : Side) : side.other.other = side := by cases side <;> rfl

theorem Side.ne_other (side : Side) : side ≠ side.other := by cases side <;> decide

inductive Wants (β : Type u) where
  | write (bytes : List β)
  | read (capacity : Nat)
  | nothing
deriving DecidableEq, Repr

/-- `read` is given no bytes at the end of the stream; `broken` is a write after the other
side has gone. -/
structure Party (σ : Type v) (β : Type u) where
  wants : σ → Wants β
  wrote : σ → Nat → σ
  read : σ → List β → σ
  broken : σ → σ

/-- A connection as one of its sides sees it. -/
structure Duplex (σ : Type v) (τ : Type w) (β : Type u) where
  near : σ
  far : τ
  outgoing : List β
  incoming : List β
deriving DecidableEq, Repr

inductive Move where
  | wrote (n : Nat)
  | read (n : Nat)
  | broken
deriving DecidableEq, Repr

namespace Duplex

variable {σ : Type v} {τ : Type w} {β : Type u}

def swap (s : Duplex σ τ β) : Duplex τ σ β := ⟨s.far, s.near, s.incoming, s.outgoing⟩

/-- A move of the near side. Its peer has gone, perhaps, once it wants nothing. -/
def move [DecidableEq β] (near : Party σ β) (far : Party τ β) (capacity : Nat) (s : Duplex σ τ β) :
    Move → Option (Duplex σ τ β)
  | .wrote n =>
    match near.wants s.near with
    | .write bytes =>
      if 0 < n ∧ n ≤ bytes.length ∧ s.outgoing.length + n ≤ capacity then
        some { s with near := near.wrote s.near n, outgoing := s.outgoing ++ bytes.take n }
      else none
    | _ => none
  | .read n =>
    match near.wants s.near with
    | .read capacity =>
      if n = 0 then
        if s.incoming = [] ∧ far.wants s.far = .nothing then some { s with near := near.read s.near [] } else none
      else if n ≤ capacity ∧ n ≤ s.incoming.length then
        some { s with near := near.read s.near (s.incoming.take n), incoming := s.incoming.drop n }
      else none
    | _ => none
  | .broken =>
    match near.wants s.near with
    | .write _ => if far.wants s.far = .nothing then some { s with near := near.broken s.near } else none
    | _ => none

def step [DecidableEq β] (near : Party σ β) (far : Party τ β) (outgoing incoming : Nat) (s : Duplex σ τ β) :
    Side × Move → Option (Duplex σ τ β)
  | (.left, m) => s.move near far outgoing m
  | (.right, m) => (s.swap.move far near incoming m).map swap

end Duplex

variable {σ : Type v} {τ : Type w} {β : Type u}

def sends (side : Side) (bytes : List β) : List (Side × β) := bytes.map (side, ·)

@[simp] theorem sends_nil (side : Side) : sends side ([] : List β) = [] := rfl

@[simp] theorem sends_append (side : Side) (a b : List β) : sends side (a ++ b) = sends side a ++ sends side b :=
  List.map_append

@[simp] theorem length_sends (side : Side) (bytes : List β) : (sends side bytes).length = bytes.length :=
  List.length_map _

theorem exists_head_sends {side : Side} {bytes : List β} (h : bytes ≠ []) (rest : List (Side × β)) :
    ∃ b more, sends side bytes ++ rest = (side, b) :: more := by
  obtain ⟨b, bytes, rfl⟩ := List.exists_cons_of_ne_nil h
  exact ⟨b, _, rfl⟩

theorem sends_take_drop (side : Side) (bytes : List β) (n : Nat) (rest : List (Side × β)) :
    sends side bytes ++ rest = sends side (bytes.take n) ++ (sends side (bytes.drop n) ++ rest) := by
  rw [← List.append_assoc, ← sends_append, List.take_append_drop]

theorem sends_append_inj {side : Side} {a b : List β} {x y : List (Side × β)}
    (h : sends side a ++ x = sends side b ++ y) (hle : b.length ≤ a.length) :
    ∃ c, a = b ++ c ∧ y = sends side c ++ x := by
  have hlength : (sends side (a.take b.length)).length = (sends side b).length := by
    rw [length_sends, length_sends, List.length_take, Nat.min_eq_left hle]
  obtain ⟨htake, hdrop⟩ := List.append_inj ((sends_take_drop side a b.length x).symm.trans h) hlength
  have hb : a.take b.length = b := (List.map_inj_right fun _ _ h => (Prod.mk.inj h).2).mp htake
  refine ⟨a.drop b.length, ?_, hdrop.symm⟩
  calc a = a.take b.length ++ a.drop b.length := (List.take_append_drop _ _).symm
    _ = b ++ a.drop b.length := by rw [hb]

theorem reads_expected {side : Side} {expected : List β} {tail : List (Side × β)} {capacity : Nat}
    {At : List β → List (Side × β) → Prop} (hpos : 0 < capacity) (hle : capacity ≤ expected.length)
    (h : ∀ bytes rest, bytes ≠ [] → bytes.length ≤ capacity → expected = bytes ++ rest →
      At bytes (sends side rest ++ tail)) :
    0 < capacity ∧ (∃ b rest, sends side expected ++ tail = (side, b) :: rest) ∧
      ∀ bytes rest, bytes ≠ [] → bytes.length ≤ capacity → sends side expected ++ tail = sends side bytes ++ rest →
        At bytes rest := by
  refine ⟨hpos, exists_head_sends (List.length_pos_iff.mp (Nat.lt_of_lt_of_le hpos hle)) tail, ?_⟩
  intro bytes next hbytes hlength hsession
  obtain ⟨rest, hexpected, rfl⟩ := sends_append_inj hsession (Nat.le_trans hlength hle)
  exact h bytes rest hbytes hlength hexpected

theorem take_ne_nil {bytes : List β} {n : Nat} (hpos : 0 < n) (hle : n ≤ bytes.length) : bytes.take n ≠ [] := by
  intro hnil
  have := congrArg List.length hnil
  rw [List.length_take, List.length_nil] at this
  omega

/-- What both sides still have before them: one is ahead of the other by what is in its
pipe. -/
def Paired (side : Side) (mine theirs : List (Side × β)) (outgoing incoming : List β) : Prop :=
  theirs = sends side outgoing ++ mine ∧ incoming = [] ∨
    mine = sends side.other incoming ++ theirs ∧ outgoing = []

namespace Paired

variable {side : Side} {mine theirs : List (Side × β)} {outgoing incoming bytes : List β}

theorem swap (h : Paired side mine theirs outgoing incoming) : Paired side.other theirs mine incoming outgoing := by
  unfold Paired
  rw [Side.other_other]
  exact Or.symm h

theorem sends_ne (hbytes : bytes ≠ []) {others : List β} (hothers : others ≠ []) (rest rest' : List (Side × β)) :
    sends side bytes ++ rest ≠ sends side.other others ++ rest' := by
  obtain ⟨b, bytes, rfl⟩ := List.exists_cons_of_ne_nil hbytes
  obtain ⟨c, others, rfl⟩ := List.exists_cons_of_ne_nil hothers
  intro h
  exact side.ne_other (Prod.mk.inj (List.cons.inj h).1).1

theorem wrote (h : Paired side (sends side bytes ++ mine) theirs outgoing incoming) (hbytes : bytes ≠ []) :
    Paired side mine theirs (outgoing ++ bytes) incoming := by
  rcases h with ⟨htheirs, hincoming⟩ | ⟨hmine, rfl⟩
  · exact .inl ⟨by rw [htheirs, sends_append, List.append_assoc], hincoming⟩
  · by_cases hincoming : incoming = []
    · subst hincoming
      exact .inl ⟨hmine.symm, rfl⟩
    · exact absurd hmine (sends_ne hbytes hincoming _ _)

theorem read (h : Paired side mine theirs outgoing (bytes ++ incoming)) (hbytes : bytes ≠ []) :
    ∃ rest, mine = sends side.other bytes ++ rest ∧ Paired side rest theirs outgoing incoming := by
  rcases h with ⟨-, hnil⟩ | ⟨hmine, houtgoing⟩
  · exact absurd (List.append_eq_nil_iff.mp hnil).1 hbytes
  · refine ⟨_, ?_, .inr ⟨rfl, houtgoing⟩⟩
    rw [hmine, sends_append, List.append_assoc]

theorem ended (h : Paired side mine [] outgoing []) : mine = [] := by
  rcases h with ⟨hnil, -⟩ | ⟨hmine, -⟩
  · exact (List.append_eq_nil_iff.mp hnil.symm).2
  · exact hmine

theorem not_gone (h : Paired side (sends side bytes ++ mine) [] outgoing incoming) : bytes = [] := by
  by_contra hbytes
  rcases h with ⟨hnil, -⟩ | ⟨hmine, -⟩
  · have := (List.append_eq_nil_iff.mp (List.append_eq_nil_iff.mp hnil.symm).2).1
    exact hbytes (List.map_eq_nil_iff.mp this)
  · by_cases hincoming : incoming = []
    · subst hincoming
      exact hbytes (List.map_eq_nil_iff.mp (List.append_eq_nil_iff.mp hmine).1)
    · exact sends_ne hbytes hincoming _ _ hmine

theorem eq_of_nil (h : Paired side mine theirs [] []) : mine = theirs := by
  rcases h with ⟨rfl, -⟩ | ⟨rfl, -⟩ <;> rfl

end Paired

/-- The party goes through sessions: `At s session` says that it is in state `s` before
`session`. -/
structure Follows (party : Party σ β) (side : Side) (At : σ → List (Side × β) → Prop) : Prop where
  writes : ∀ {s session bytes}, At s session → party.wants s = .write bytes → bytes ≠ [] ∧
    ∀ n, 0 < n → n ≤ bytes.length →
      ∃ rest, session = sends side (bytes.take n) ++ rest ∧ At (party.wrote s n) rest
  reads : ∀ {s session capacity}, At s session → party.wants s = .read capacity → 0 < capacity ∧
    (∃ b rest, session = (side.other, b) :: rest) ∧
    ∀ bytes rest, bytes ≠ [] → bytes.length ≤ capacity → session = sends side.other bytes ++ rest →
      At (party.read s bytes) rest
  ends : ∀ {s session}, At s session → party.wants s = .nothing → session = []

theorem Follows.head {party : Party σ β} {side : Side} {At : σ → List (Side × β) → Prop}
    (h : Follows party side At) {s : σ} {session : List (Side × β)} {bytes : List β} (hat : At s session)
    (hwants : party.wants s = .write bytes) : ∃ b rest, session = sends side [b] ++ rest := by
  obtain ⟨hne, hwrites⟩ := h.writes hat hwants
  obtain ⟨b, bytes, rfl⟩ := List.exists_cons_of_ne_nil hne
  obtain ⟨rest, hsession, -⟩ := hwrites 1 Nat.one_pos (Nat.succ_pos _)
  exact ⟨b, rest, hsession⟩

structure Tracks (side : Side) (AtNear : σ → List (Side × β) → Prop) (AtFar : τ → List (Side × β) → Prop)
    (mine theirs : List (Side × β)) (s : Duplex σ τ β) : Prop where
  near : AtNear s.near mine
  far : AtFar s.far theirs
  paired : Paired side mine theirs s.outgoing s.incoming

section
variable {near : Party σ β} {far : Party τ β} {side : Side} {AtNear : σ → List (Side × β) → Prop}
  {AtFar : τ → List (Side × β) → Prop} {mine theirs : List (Side × β)} {s after : Duplex σ τ β}

theorem Tracks.swap (h : Tracks side AtNear AtFar mine theirs s) :
    Tracks side.other AtFar AtNear theirs mine s.swap :=
  ⟨h.far, h.near, h.paired.swap⟩

variable [DecidableEq β]

theorem Tracks.wrote (hnear : Follows near side AtNear) (h : Tracks side AtNear AtFar mine theirs s)
    {capacity n : Nat} (hmove : s.move near far capacity (.wrote n) = some after) :
    ∃ rest, Tracks side AtNear AtFar rest theirs after ∧ rest.length < mine.length := by
  simp only [Duplex.move] at hmove
  split at hmove
  · next bytes hwants =>
    split at hmove
    · next hn =>
      cases hmove
      obtain ⟨rest, hsession, hat⟩ := (hnear.writes h.near hwants).2 n hn.1 hn.2.1
      have hpaired := h.paired
      rw [hsession] at hpaired
      refine ⟨rest, ⟨hat, h.far, hpaired.wrote (take_ne_nil hn.1 hn.2.1)⟩, ?_⟩
      rw [hsession, List.length_append, length_sends, List.length_take]
      omega
    · cases hmove
  · cases hmove

theorem Tracks.read (hnear : Follows near side AtNear) (hfar : Follows far side.other AtFar)
    (h : Tracks side AtNear AtFar mine theirs s) {capacity n : Nat}
    (hmove : s.move near far capacity (.read n) = some after) :
    ∃ rest, Tracks side AtNear AtFar rest theirs after ∧ rest.length < mine.length := by
  simp only [Duplex.move] at hmove
  split at hmove
  · next capacity hwants =>
    obtain ⟨-, ⟨b, rest, hhead⟩, hread⟩ := hnear.reads h.near hwants
    split at hmove
    · split at hmove
      · -- The end of the stream is not seen before the end of the session.
        next hended =>
        have hpaired := h.paired
        rw [hfar.ends h.far hended.2, hended.1] at hpaired
        rw [hpaired.ended] at hhead
        cases hhead
      · cases hmove
    · next hn =>
      split at hmove
      · next hroom =>
        cases hmove
        have hne := take_ne_nil (Nat.pos_of_ne_zero hn) hroom.2
        have hpaired := h.paired
        rw [← List.take_append_drop n s.incoming] at hpaired
        obtain ⟨rest, hsession, hrest⟩ := hpaired.read hne
        have hlength : (s.incoming.take n).length ≤ capacity := by
          rw [List.length_take]
          omega
        refine ⟨rest, ⟨hread _ _ hne hlength hsession, h.far, hrest⟩, ?_⟩
        rw [hsession, List.length_append, length_sends, List.length_take]
        omega
      · cases hmove
  · cases hmove

theorem Tracks.not_broken (hnear : Follows near side AtNear) (hfar : Follows far side.other AtFar)
    (h : Tracks side AtNear AtFar mine theirs s) (capacity : Nat) : s.move near far capacity .broken = none := by
  simp only [Duplex.move]
  split
  · next bytes hwants =>
    rw [if_neg]
    intro hgone
    obtain ⟨b, rest, hhead⟩ := hnear.head h.near hwants
    have hpaired := h.paired
    rw [hfar.ends h.far hgone, hhead] at hpaired
    exact List.cons_ne_nil b [] hpaired.not_gone
  · rfl

theorem Tracks.move (hnear : Follows near side AtNear) (hfar : Follows far side.other AtFar)
    (h : Tracks side AtNear AtFar mine theirs s) {capacity : Nat} {m : Move}
    (hmove : s.move near far capacity m = some after) :
    ∃ rest, Tracks side AtNear AtFar rest theirs after ∧ rest.length < mine.length := by
  cases m with
  | wrote n => exact h.wrote hnear hmove
  | read n => exact h.read hnear hfar hmove
  | broken =>
    rw [h.not_broken hnear hfar capacity] at hmove
    cases hmove

theorem Tracks.exists_read (hnear : Follows near side AtNear) (h : Tracks side AtNear AtFar mine theirs s)
    (hincoming : s.incoming ≠ []) (capacity : Nat) : ∃ after, s.move near far capacity (.read 1) = some after := by
  have hlength : 1 ≤ s.incoming.length := List.length_pos_iff.mpr hincoming
  have hpaired := h.paired
  rw [← List.take_append_drop 1 s.incoming] at hpaired
  obtain ⟨rest, hmine, -⟩ := hpaired.read (take_ne_nil Nat.one_pos hlength)
  cases hwants : near.wants s.near with
  | write bytes =>
    obtain ⟨b, rest', hhead⟩ := hnear.head h.near hwants
    rw [hmine] at hhead
    exact absurd hhead.symm
      (Paired.sends_ne (List.cons_ne_nil b []) (take_ne_nil Nat.one_pos hlength) _ _)
  | read room =>
    have hroom := (hnear.reads h.near hwants).1
    simp only [Duplex.move, hwants, Nat.one_ne_zero, if_false]
    exact ⟨_, if_pos ⟨hroom, hlength⟩⟩
  | nothing =>
    have hnil := hnear.ends h.near hwants
    rw [hmine] at hnil
    have := congrArg List.length (List.append_eq_nil_iff.mp hnil).1
    rw [length_sends, List.length_take, List.length_nil] at this
    omega

theorem Tracks.exists_wrote (hnear : Follows near side AtNear) (h : Tracks side AtNear AtFar mine theirs s)
    {bytes : List β} (hwants : near.wants s.near = .write bytes) (houtgoing : s.outgoing = []) {capacity : Nat}
    (hcapacity : 1 ≤ capacity) : ∃ after, s.move near far capacity (.wrote 1) = some after := by
  have hpos : 1 ≤ bytes.length := List.length_pos_iff.mpr (hnear.writes h.near hwants).1
  have hroom : s.outgoing.length + 1 ≤ capacity := by
    rw [houtgoing]
    exact hcapacity
  simp only [Duplex.move, hwants]
  exact ⟨_, if_pos ⟨Nat.one_pos, hpos, hroom⟩⟩

theorem Tracks.progress (hnear : Follows near side AtNear) (hfar : Follows far side.other AtFar)
    (h : Tracks side AtNear AtFar mine theirs s) {outgoing incoming : Nat} (houtgoing : 1 ≤ outgoing)
    (hincoming : 1 ≤ incoming) :
    (∃ m after, s.move near far outgoing m = some after) ∨
      (∃ m after, s.swap.move far near incoming m = some after) ∨
      near.wants s.near = .nothing ∧ far.wants s.far = .nothing ∧ mine = [] ∧ theirs = [] := by
  by_cases hin : s.incoming = []
  case neg => exact .inl ⟨_, h.exists_read hnear hin outgoing⟩
  by_cases hout : s.outgoing = []
  case neg => exact .inr (.inl ⟨_, h.swap.exists_read hfar hout incoming⟩)
  have hpaired := h.paired
  rw [hin, hout] at hpaired
  obtain rfl := hpaired.eq_of_nil
  cases hwants : near.wants s.near with
  | write => exact .inl ⟨_, h.exists_wrote hnear hwants hout houtgoing⟩
  | read =>
    obtain ⟨-, ⟨b, rest, hhead⟩, -⟩ := hnear.reads h.near hwants
    cases hwants' : far.wants s.far with
    | write => exact .inr (.inl ⟨_, h.swap.exists_wrote hfar hwants' hin hincoming⟩)
    | read =>
      obtain ⟨-, ⟨b', rest', hhead'⟩, -⟩ := hfar.reads h.far hwants'
      rw [hhead, Side.other_other] at hhead'
      exact absurd (Prod.mk.inj (List.cons.inj hhead').1).1.symm side.ne_other
    | nothing =>
      rw [hfar.ends h.far hwants'] at hhead
      cases hhead
  | nothing =>
    have hnil := hnear.ends h.near hwants
    subst hnil
    refine .inr (.inr ⟨rfl, ?_, rfl, rfl⟩)
    cases hwants' : far.wants s.far with
    | write =>
      obtain ⟨b, rest, hhead⟩ := hfar.head h.far hwants'
      cases hhead
    | read =>
      obtain ⟨-, ⟨b, rest, hhead⟩, -⟩ := hfar.reads h.far hwants'
      cases hhead
    | nothing => rfl

end

/-- Along every run both sides get on with the session: it takes no more steps than there are
bytes for the two of them, and it stops only at the end. -/
theorem session_completes [DecidableEq β] {near : Party σ β} {far : Party τ β}
    {AtNear : σ → List (Side × β) → Prop} {AtFar : τ → List (Side × β) → Prop}
    (hnear : Follows near .left AtNear) (hfar : Follows far .right AtFar) {outgoing incoming : Nat}
    (houtgoing : 1 ≤ outgoing) (hincoming : 1 ≤ incoming) {mine theirs : List (Side × β)}
    {s after : Duplex σ τ β} (h : Tracks .left AtNear AtFar mine theirs s) {events : List (Side × Move)}
    (hrun : run (Duplex.step near far outgoing incoming) s events = some after) :
    events.length ≤ mine.length + theirs.length ∧
      ((∃ event next, Duplex.step near far outgoing incoming after event = some next) ∨
        near.wants after.near = .nothing ∧ far.wants after.far = .nothing ∧
          AtNear after.near [] ∧ AtFar after.far []) := by
  induction events generalizing s mine theirs with
  | nil =>
    cases hrun
    refine ⟨Nat.zero_le _, ?_⟩
    rcases h.progress hnear hfar houtgoing hincoming with ⟨m, next, hmove⟩ | ⟨m, next, hmove⟩ |
      ⟨hnothing, hnothing', rfl, rfl⟩
    · exact .inl ⟨(.left, m), next, hmove⟩
    · exact .inl ⟨(.right, m), next.swap, by rw [Duplex.step, hmove]; rfl⟩
    · exact .inr ⟨hnothing, hnothing', h.near, h.far⟩
  | cons event events ih =>
    obtain ⟨next, hstep, hrest⟩ := run_cons.mp hrun
    obtain ⟨side, m⟩ := event
    cases side with
    | left =>
      obtain ⟨rest, htracks, hlt⟩ := h.move hnear hfar hstep
      obtain ⟨hlength, hend⟩ := ih htracks hrest
      exact ⟨by rw [List.length_cons]; omega, hend⟩
    | right =>
      obtain ⟨swapped, hmove, rfl⟩ := Option.map_eq_some_iff.mp hstep
      obtain ⟨rest, htracks, hlt⟩ := h.swap.move hfar hnear hmove
      obtain ⟨hlength, hend⟩ := ih htracks.swap hrest
      exact ⟨by rw [List.length_cons]; omega, hend⟩

end Hysteria.Lib
