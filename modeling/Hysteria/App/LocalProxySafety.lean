import Hysteria.App.LocalProxy

/-! What holds in every state of a proxied connection, whatever its front: no stream is opened before the
front asks for one, its request is the one the front has read, and either side gets what the other has
sent behind it, in order and from the first byte on. -/
namespace Hysteria.App
open Lib Hysteria.Core

variable {σ : Type} {front : Front σ}

/-- The state of a front behind the bytes it has taken and what it has answered to them. -/
inductive Front.Reaches (front : Front σ) : σ → List UInt8 → List UInt8 → Prop where
  | start : front.Reaches front.start [] []
  | next {state state' : σ} {taken said arrived bytes : List UInt8} {ended : Bool} {room n : Nat}
      (before : front.Reaches state taken said)
      (read : front.read state arrived ended room = some (.answer bytes (some state'), n)) :
      front.Reaches state' (taken ++ arrived.take n) (said ++ bytes)

/-- A front that asks for a stream: what it has taken and answered before, and how it does. -/
structure Link where
  taken : List UInt8
  said : List UInt8
  addr : String
  accepted : List UInt8
  refused : List UInt8
  ahead : List UInt8

def Front.Connects (front : Front σ) (link : Link) : Prop :=
  ∃ state before arrived ended room n, front.Reaches state before link.said ∧
    front.read state arrived ended room = some (.connect link.addr link.accepted link.refused link.ahead, n) ∧
    link.taken = before ++ arrived.take n

def Fresh : TcpCaller → Prop
  | .connected written received => written = [] ∧ received = []
  | _ => True

namespace Opened
variable {o o' : Opened}

theorem step_eq_some {event : TcpTunnel.Event} :
    o.step event = some o' ↔ ∃ tunnel, o.tunnel.step o.exchange event = some tunnel ∧ o' = { o with tunnel } := by
  rw [step, Option.map_eq_some_iff]
  exact exists_congr fun tunnel => and_congr_right fun _ => eq_comm

theorem fresh_of_call {event : CallEvent} (hfresh : Fresh o.tunnel.caller)
    (h : o.step event.event = some o') : Fresh o'.tunnel.caller := by
  obtain ⟨tunnel, hstep, rfl⟩ := step_eq_some.mp h
  have hserver : ∀ e, event.event ≠ .server e := by
    intro e
    cases event <;> nofun
  cases TcpTunnel.callerStep_of_step hserver hstep with
  | wrote => exact trivial
  | accepted => exact ⟨rfl, rfl⟩
  | failed => exact trivial
  | appWrote hconnected =>
    exfalso
    cases event <;> simp [CallEvent.event, TcpTunnel.step, hconnected] at hstep
  | appShut hconnected =>
    change Fresh o.tunnel.caller
    exact hfresh
  | appRead hconnected =>
    exfalso
    cases event <;> simp [CallEvent.event, TcpTunnel.step, hconnected] at hstep

theorem caller_of_served {event : ServedStream.Event} (h : o.step (.server event) = some o') :
    o'.tunnel.caller = o.tunnel.caller := by
  obtain ⟨tunnel, hstep, rfl⟩ := step_eq_some.mp h
  obtain ⟨stream, -, hstream⟩ := Option.map_eq_some_iff.mp hstep
  rw [← hstream]

theorem caller_of_writes {bytes written received : List UInt8} (hconnected : o.tunnel.caller = .connected written received)
    (h : o.step (.appWrites bytes) = some o') : o'.tunnel.caller = .connected (written ++ bytes) received := by
  obtain ⟨tunnel, hstep, rfl⟩ := step_eq_some.mp h
  simp only [TcpTunnel.step, hconnected] at hstep
  obtain ⟨-, ⟨⟩⟩ := Option.ite_none_right_eq_some.mp hstep
  rfl

theorem caller_of_reads {n : Nat} {written received : List UInt8} (hconnected : o.tunnel.caller = .connected written received)
    (h : o.step (.appReads n) = some o') :
    o'.tunnel.caller = .connected written (received ++ o.incoming.pending.take n) := by
  obtain ⟨tunnel, hstep, rfl⟩ := step_eq_some.mp h
  simp only [TcpTunnel.step, hconnected] at hstep
  cases hstep
  rfl

theorem caller_of_shutsDown (h : o.step .appShutsDown = some o') : o'.tunnel.caller = o.tunnel.caller := by
  obtain ⟨tunnel, hstep, rfl⟩ := step_eq_some.mp h
  simp only [TcpTunnel.step] at hstep
  split at hstep
  · cases hstep
    rfl
  · cases hstep

theorem inv_of_step {event : TcpTunnel.Event} (hinv : TcpTunnel.Inv o.exchange o.tunnel) (h : o.step event = some o') :
    o'.exchange = o.exchange ∧ TcpTunnel.Inv o'.exchange o'.tunnel := by
  obtain ⟨tunnel, hstep, rfl⟩ := step_eq_some.mp h
  exact ⟨rfl, hinv.step hstep⟩

theorem inv_dropped (hinv : TcpTunnel.Inv o.exchange o.tunnel) :
    o.dropped.exchange = o.exchange ∧ TcpTunnel.Inv o.dropped.exchange o.dropped.tunnel := by
  unfold dropped
  split
  · next hrequesting => exact ⟨rfl, (hinv.callerStep (.failed hrequesting _)).1⟩
  · next hconnected => exact ⟨rfl, (hinv.callerStep (.appShut hconnected)).1⟩
  · exact ⟨rfl, hinv⟩

end Opened

namespace LocalProxy

/-- What holds of a call and its stream at any time: what the application has written begins what
it has read ahead and copied, and what the program was sent begins the answers and what was received. -/
def Answered (link : Link) (sent uploaded : List UInt8) : TcpCaller → Prop
  | .requesting _ => sent = link.said
  | .failed _ => sent <+: link.said ++ link.refused
  | .connected written received =>
    written <+: link.ahead ++ uploaded ∧ sent <+: link.said ++ link.accepted ++ received

section
variable (p : LocalProxy σ)

def Idle : Prop := p.upload = .empty ∧ p.download = .empty

def Prelude (front : Front σ) : Proxying σ → Prop
  | .reading state => front.Reaches state p.fromLocal.taken p.toLocal.sent
  | .answering unsent next => ∀ state ∈ next, front.Reaches state p.fromLocal.taken (p.toLocal.sent ++ unsent)
  | .dialing addr accepted refused ahead =>
    front.Connects ⟨p.fromLocal.taken, p.toLocal.sent, addr, accepted, refused, ahead⟩
  | .left => True
  | .closed => True
  | _ => False

def Stands (link : Link) (caller : TcpCaller) : Proxying σ → Prop
  | .opening accepted refused ahead =>
    (accepted = link.accepted ∧ refused = link.refused ∧ ahead = link.ahead) ∧ p.Idle ∧ p.toLocal.sent = link.said ∧
      Fresh caller
  | .accepting unsent ahead =>
    ahead = link.ahead ∧ p.Idle ∧ p.toLocal.sent ++ unsent = link.said ++ link.accepted ∧ caller = .connected [] []
  | .forwarding ahead =>
    p.Idle ∧ p.toLocal.sent = link.said ++ link.accepted ∧
      ∃ written, caller = .connected written [] ∧ written ++ ahead = link.ahead
  | .relaying =>
    p.toLocal.sent = link.said ++ link.accepted ++ p.download.taken ∧
      caller = .connected (link.ahead ++ p.upload.taken) p.download.sent
  | .refusing unsent =>
    p.Idle ∧ p.toLocal.sent ++ unsent = link.said ++ link.refused ∧ ∃ err, caller = .failed err
  | .closed => Answered link p.toLocal.sent p.upload.sent caller
  | _ => False

structure Linked (front : Front σ) (o : Opened) (link : Link) : Prop where
  opened : p.opened = some o
  inv : TcpTunnel.Inv o.exchange o.tunnel
  connects : front.Connects link
  addr : o.exchange.addr = link.addr
  taken : p.fromLocal.taken = link.taken ++ p.upload.sent
  stands : p.Stands link o.tunnel.caller p.stage

inductive Inv (front : Front σ) : Prop where
  | unopened (opened : p.opened = none) (idle : p.Idle) (stage : p.Prelude front p.stage)
  | opened {o : Opened} {link : Link} (linked : p.Linked front o link)

end

variable {p p' : LocalProxy σ} {o o' : Opened} {link : Link} {caller : TcpCaller}

theorem Stands.answered (h : p.Stands link caller p.stage) : Answered link p.toLocal.sent p.upload.sent caller := by
  match hstage : p.stage, h with
  | .opening _ _ _, ⟨_, hidle, hsaid, hfresh⟩ =>
    cases caller with
    | requesting unsent => exact hsaid
    | failed err => exact hsaid ▸ List.prefix_append _ _
    | connected written received =>
      obtain ⟨rfl, rfl⟩ := hfresh
      rw [Answered, List.append_nil]
      exact ⟨List.nil_prefix, hsaid ▸ List.prefix_append _ _⟩
  | .accepting unsent _, ⟨_, _, hsaid, hcaller⟩ =>
    subst hcaller
    rw [Answered, List.append_nil, ← hsaid]
    exact ⟨List.nil_prefix, List.prefix_append _ _⟩
  | .forwarding ahead, ⟨_, hsaid, written, hcaller, hwritten⟩ =>
    subst hcaller
    rw [Answered, List.append_nil, ← hsaid, ← hwritten, List.append_assoc]
    exact ⟨List.prefix_append _ _, List.prefix_refl _⟩
  | .relaying, ⟨hsaid, hcaller⟩ =>
    subst hcaller
    rw [Answered, hsaid]
    exact ⟨(List.prefix_append_right_inj _).mpr p.upload.taken_isPrefix,
      (List.prefix_append_right_inj _).mpr p.download.taken_isPrefix⟩
  | .refusing unsent, ⟨_, hsaid, err, hcaller⟩ =>
    subst hcaller
    rw [Answered, ← hsaid]
    exact List.prefix_append _ _
  | .closed, hanswered => exact hanswered

structure SameTask (p p' : LocalProxy σ) : Prop where
  stage : p'.stage = p.stage
  taken : p'.fromLocal.taken = p.fromLocal.taken
  sent : p'.toLocal.sent = p.toLocal.sent
  opened : p'.opened = p.opened
  copies : p'.upload = p.upload ∧ p'.download = p.download

theorem Idle.of_same (h : p.Idle) (hsame : p.SameTask p') : p'.Idle :=
  ⟨hsame.copies.1.trans h.1, hsame.copies.2.trans h.2⟩

theorem Stands.of_same (h : p.Stands link caller p.stage) (hsame : p.SameTask p') :
    p'.Stands link caller p'.stage := by
  rw [hsame.stage]
  match hstage : p.stage, h with
  | .opening _ _ _, h => exact ⟨h.1, h.2.1.of_same hsame, hsame.sent.trans h.2.2.1, h.2.2.2⟩
  | .accepting _ _, h => exact ⟨h.1, h.2.1.of_same hsame, hsame.sent.symm ▸ h.2.2.1, h.2.2.2⟩
  | .forwarding _, h => exact ⟨h.1.of_same hsame, hsame.sent.trans h.2.1, h.2.2⟩
  | .relaying, h =>
    rw [Stands, hsame.sent, hsame.copies.1, hsame.copies.2]
    exact h
  | .refusing _, h => exact ⟨h.1.of_same hsame, hsame.sent.symm ▸ h.2.1, h.2.2⟩
  | .closed, h =>
    rw [Stands, hsame.sent, hsame.copies.1]
    exact h

theorem Prelude.of_same {stage : Proxying σ} (h : p.Prelude front stage) (hsame : p.SameTask p') :
    p'.Prelude front stage := by
  cases stage with
  | reading state =>
    rw [Prelude, hsame.taken, hsame.sent]
    exact h
  | answering unsent next =>
    rw [Prelude, hsame.taken, hsame.sent]
    exact h
  | dialing addr accepted refused ahead =>
    rw [Prelude, hsame.taken, hsame.sent]
    exact h
  | left => trivial
  | closed => trivial
  | _ => exact h.elim

theorem Inv.of_same (h : p.Inv front) (hsame : p.SameTask p') : p'.Inv front := by
  cases h with
  | unopened hopened hidle hstage =>
    exact .unopened (hsame.opened.trans hopened) (hidle.of_same hsame) (hsame.stage.symm ▸ hstage.of_same hsame)
  | opened hlinked =>
    refine .opened ⟨hsame.opened.trans hlinked.opened, hlinked.inv, hlinked.connects, hlinked.addr, ?_,
      hlinked.stands.of_same hsame⟩
    rw [hsame.taken, hsame.copies.1, hlinked.taken]

theorem Inv.close (h : p.Inv front) : p.close.Inv front := by
  cases h with
  | unopened hopened hidle hstage =>
    exact .unopened (by rw [LocalProxy.close, hopened]; rfl) hidle trivial
  | @opened o link hlinked =>
    obtain ⟨hexchange, hinv⟩ := Opened.inv_dropped hlinked.inv
    refine .opened (o := o.dropped) ⟨by rw [LocalProxy.close, hlinked.opened]; rfl, hinv, hlinked.connects,
      hexchange ▸ hlinked.addr, hlinked.taken, ?_⟩
    have hanswered := hlinked.stands.answered
    change Answered link p.toLocal.sent p.upload.sent o.dropped.tunnel.caller
    unfold Opened.dropped
    split
    · next hrequesting =>
      rw [hrequesting] at hanswered
      exact hanswered ▸ List.prefix_append _ _
    · exact hanswered
    · exact hanswered

theorem Linked.enter {stage : Proxying σ} (h : p.Linked front o link) (hstands : p.Stands link o.tunnel.caller stage) :
    Inv { p with stage } front :=
  .opened ⟨h.opened, h.inv, h.connects, h.addr, h.taken, hstands⟩

theorem Linked.relays (h : p.Linked front o link) (hidle : p.Idle) (hsaid : p.toLocal.sent = link.said ++ link.accepted)
    (hcaller : o.tunnel.caller = .connected link.ahead []) : Inv { p with stage := .relaying } front := by
  refine h.enter ⟨?_, ?_⟩
  · rw [hidle.2, hsaid]
    exact (List.append_nil _).symm
  · rw [hidle.1, hidle.2, hcaller]
    exact congrArg (TcpCaller.connected · []) (List.append_nil _).symm

theorem Inv.settle (h : p.Inv front) : p.settle.Inv front := by
  unfold LocalProxy.settle
  cases id h with
  | unopened hopened hidle hstage =>
    split
    · next heq =>
      rw [heq] at hstage
      have hreaches := hstage _ rfl
      rw [List.append_nil] at hreaches
      exact .unopened hopened hidle hreaches
    · exact h.close
    · next heq => exact (heq ▸ hstage).elim
    · next heq => exact (heq ▸ hstage).elim
    · next heq => exact (heq ▸ hstage).elim
    · exact h.close
    · exact h
  | @opened o link hlinked =>
    have hstands := hlinked.stands
    split
    · next heq => exact (heq ▸ hstands).elim
    · exact h.close
    · next heq =>
      rw [heq] at hstands
      obtain ⟨hahead, hidle, hsaid, hcaller⟩ := hstands
      exact hlinked.relays hidle ((List.append_nil _).symm.trans hsaid) (hahead ▸ hcaller)
    · next heq =>
      rw [heq] at hstands
      obtain ⟨hahead, hidle, hsaid, hcaller⟩ := hstands
      exact hlinked.enter ⟨hidle, (List.append_nil _).symm.trans hsaid, [], hcaller, hahead⟩
    · next heq =>
      rw [heq] at hstands
      obtain ⟨hidle, hsaid, written, hcaller, hwritten⟩ := hstands
      rw [List.append_nil] at hwritten
      exact hlinked.relays hidle hsaid (hwritten ▸ hcaller)
    · exact h.close
    · exact h

theorem Inv.reads {state : σ} {reaction : Reaction σ} {room n : Nat} (h : p.Inv front)
    (hstage : p.stage = .reading state)
    (hread : front.read state p.fromLocal.pending p.fromLocal.finished room = some (reaction, n)) :
    Inv ({ p with fromLocal := p.fromLocal.take n }.react reaction) front := by
  cases h with
  | opened hlinked => exact (hstage ▸ hlinked.stands).elim
  | unopened hopened hidle hprelude =>
    rw [hstage] at hprelude
    have hreaches : front.Reaches state p.fromLocal.taken p.toLocal.sent := hprelude
    have htaken := p.fromLocal.taken_take n
    cases reaction with
    | answer bytes next =>
      refine .unopened hopened hidle ?_
      rintro next' ⟨⟩
      change front.Reaches next' (p.fromLocal.take n).taken _
      rw [htaken]
      exact .next hreaches hread
    | connect addr accepted refused ahead =>
      exact .unopened hopened hidle ⟨state, _, _, _, _, _, hreaches, hread, htaken⟩
    | leave => exact .unopened hopened hidle trivial

theorem Inv.writes {n : Nat} (h : p.Inv front) (hstep : p.writes n = some p') : p'.Inv front := by
  have hsaid (unsent : List UInt8) :
      (p.toLocal.write (unsent.take n)).sent ++ unsent.drop n = p.toLocal.sent ++ unsent := by
    rw [Pipe.sent_write, List.append_assoc, List.take_append_drop]
  unfold LocalProxy.writes at hstep
  split at hstep
  · next unsent next heq =>
    obtain ⟨-, ⟨⟩⟩ := Option.ite_none_right_eq_some.mp hstep
    cases h with
    | opened hlinked => exact (heq ▸ hlinked.stands).elim
    | unopened hopened hidle hprelude =>
      rw [heq] at hprelude
      refine .unopened hopened hidle fun state hstate => ?_
      exact (hsaid unsent).symm ▸ hprelude state hstate
  · next unsent ahead heq =>
    obtain ⟨-, ⟨⟩⟩ := Option.ite_none_right_eq_some.mp hstep
    cases h with
    | unopened _ _ hprelude => exact (heq ▸ hprelude).elim
    | opened hlinked =>
      have hstands := hlinked.stands
      rw [heq] at hstands
      exact .opened ⟨hlinked.opened, hlinked.inv, hlinked.connects, hlinked.addr, hlinked.taken,
        hstands.1, hstands.2.1, (hsaid unsent).trans hstands.2.2.1, hstands.2.2.2⟩
  · next unsent heq =>
    obtain ⟨-, ⟨⟩⟩ := Option.ite_none_right_eq_some.mp hstep
    cases h with
    | unopened _ _ hprelude => exact (heq ▸ hprelude).elim
    | opened hlinked =>
      have hstands := hlinked.stands
      rw [heq] at hstands
      exact .opened ⟨hlinked.opened, hlinked.inv, hlinked.connects, hlinked.addr, hlinked.taken,
        hstands.1, (hsaid unsent).trans hstands.2.1, hstands.2.2⟩
  · cases hstep

theorem Inv.opens {x : TcpExchange} {tunnel : TcpTunnel} {accepted refused ahead : List UInt8} (h : p.Inv front)
    (hstage : p.stage = .dialing x.addr accepted refused ahead) (hstart : TcpTunnel.start x = some tunnel) :
    Inv { p with stage := .opening accepted refused ahead, opened := some ⟨x, tunnel⟩ } front := by
  cases h with
  | opened hlinked => exact (hstage ▸ hlinked.stands).elim
  | unopened hopened hidle hprelude =>
    rw [hstage] at hprelude
    have hinv : TcpTunnel.Inv x tunnel := @TcpTunnel.inv_of_runs x tunnel [] (by rw [TcpTunnel.runs, hstart]; rfl)
    have hcaller : tunnel.caller = .requesting x.frame := by
      rw [TcpTunnel.start_eq] at hstart
      exact congrArg TcpTunnel.caller (Option.some.inj hstart).symm
    refine .opened ⟨rfl, hinv, hprelude, rfl, ?_, ⟨rfl, rfl, rfl⟩, hidle, rfl, ?_⟩
    · rw [hidle.1]
      exact (List.append_nil _).symm
    · change Fresh tunnel.caller
      rw [hcaller]
      trivial

theorem advance_eq_some {event : TcpTunnel.Event} :
    p.advance event = some p' ↔
      ∃ o o', p.opened = some o ∧ o.step event = some o' ∧ p' = { p with opened := some o' } := by
  unfold advance
  cases hopened : p.opened with
  | none => simp
  | some o =>
    rw [Option.map_eq_some_iff]
    constructor
    · rintro ⟨o', hstep, rfl⟩
      exact ⟨o, o', rfl, hstep, rfl⟩
    · rintro ⟨_, o', ⟨⟩, hstep, rfl⟩
      exact ⟨o', hstep, rfl⟩

theorem Linked.advance {event : TcpTunnel.Event} (h : p.Linked front o link) (hstep : o.step event = some o')
    {stage : Proxying σ} {upload download : Pipe UInt8} (hupload : upload.sent = p.upload.sent)
    (hstands : Stands { p with stage, opened := some o', upload, download } link o'.tunnel.caller stage) :
    Inv { p with stage, opened := some o', upload, download } front := by
  obtain ⟨hexchange, hinv⟩ := Opened.inv_of_step h.inv hstep
  exact .opened ⟨rfl, hinv, h.connects, hexchange ▸ h.addr, by rw [hupload]; exact h.taken, hstands⟩

theorem Inv.calls {event : CallEvent} (h : p.Inv front) (hopening : p.isOpening)
    (hstep : p.advance event.event = some p') : p'.Inv front := by
  obtain ⟨o, o', hopened, htunnel, rfl⟩ := advance_eq_some.mp hstep
  cases h with
  | unopened hnone => exact absurd (hnone.symm.trans hopened) nofun
  | @opened _ link hlinked =>
    cases hlinked.opened.symm.trans hopened
    have hstands := hlinked.stands
    unfold isOpening at hopening
    split at hopening
    · next hstage =>
      rw [hstage] at hstands
      obtain ⟨hanswers, hidle, hsaid, hfresh⟩ := hstands
      refine hlinked.advance htunnel rfl ?_
      rw [hstage]
      exact ⟨hanswers, hidle, hsaid, Opened.fresh_of_call hfresh htunnel⟩
    · cases hopening

theorem Inv.served {event : ServedStream.Event} (h : p.Inv front) (hstep : p.advance (.server event) = some p') :
    p'.Inv front := by
  obtain ⟨o, o', hopened, htunnel, rfl⟩ := advance_eq_some.mp hstep
  cases h with
  | unopened hnone => exact absurd (hnone.symm.trans hopened) nofun
  | @opened _ link hlinked =>
    cases hlinked.opened.symm.trans hopened
    refine hlinked.advance htunnel rfl ?_
    rw [Opened.caller_of_served htunnel]
    have hstands := hlinked.stands
    cases hstage : p.stage <;> rw [hstage] at hstands <;> exact hstands

theorem Inv.returned (h : p.Inv front) (hstep : p.returned = some p') : p'.Inv front := by
  unfold LocalProxy.returned at hstep
  split at hstep
  · next accepted refused ahead o hstage hopened =>
    cases h with
    | unopened hnone => exact absurd (hnone.symm.trans hopened) nofun
    | @opened _ link hlinked =>
      cases hlinked.opened.symm.trans hopened
      have hstands := hlinked.stands
      rw [hstage] at hstands
      obtain ⟨⟨rfl, rfl, rfl⟩, hidle, hsaid, hfresh⟩ := hstands
      split at hstep
      · cases hstep
      · next written received hcaller =>
        cases hstep
        rw [hcaller] at hfresh
        obtain ⟨rfl, rfl⟩ := hfresh
        exact hlinked.enter ⟨rfl, hidle, by rw [hsaid], hcaller⟩
      · next err hcaller =>
        cases hstep
        exact hlinked.enter ⟨hidle, by rw [hsaid], err, hcaller⟩
  · cases hstep

theorem Inv.forwards {n : Nat} (h : p.Inv front) (hstep : p.forwards n = some p') : p'.Inv front := by
  unfold LocalProxy.forwards at hstep
  split at hstep
  · next ahead hstage =>
    obtain ⟨-, hmapped⟩ := Option.ite_none_right_eq_some.mp hstep
    obtain ⟨next, hadvance, rfl⟩ := Option.map_eq_some_iff.mp hmapped
    obtain ⟨o, o', hopened, htunnel, rfl⟩ := advance_eq_some.mp hadvance
    cases h with
    | unopened hnone => exact absurd (hnone.symm.trans hopened) nofun
    | @opened _ link hlinked =>
      cases hlinked.opened.symm.trans hopened
      have hstands := hlinked.stands
      rw [hstage] at hstands
      obtain ⟨hidle, hsaid, written, hcaller, hwritten⟩ := hstands
      refine hlinked.advance htunnel rfl ⟨hidle, hsaid, _, Opened.caller_of_writes hcaller htunnel, ?_⟩
      rw [List.append_assoc, List.take_append_drop, hwritten]
  · cases hstep

theorem Inv.relaying (h : p.Inv front) (hrelaying : p.isRelaying) :
    ∃ o link, p.Linked front o link ∧ p.stage = .relaying ∧
      p.toLocal.sent = link.said ++ link.accepted ++ p.download.taken ∧
      o.tunnel.caller = .connected (link.ahead ++ p.upload.taken) p.download.sent := by
  unfold isRelaying at hrelaying
  split at hrelaying
  · next hstage =>
    cases h with
    | unopened _ _ hprelude => exact (hstage ▸ hprelude).elim
    | @opened o link hlinked =>
      have hstands := hlinked.stands
      rw [hstage] at hstands
      exact ⟨o, link, hlinked, hstage, hstands⟩
  · cases hrelaying

theorem Inv.uploads {event : Event} (h : p.Inv front) (hrelaying : p.isRelaying) (hstep : p.uploads event = some p') :
    p'.Inv front := by
  obtain ⟨o, link, hlinked, hstage, hsaid, hcaller⟩ := h.relaying hrelaying
  unfold LocalProxy.uploads at hstep
  split at hstep
  · next n =>
    obtain ⟨-, ⟨⟩⟩ := Option.ite_none_right_eq_some.mp hstep
    refine .opened ⟨hlinked.opened, hlinked.inv, hlinked.connects, hlinked.addr, ?_, ?_⟩
    · change (p.fromLocal.take n).taken = link.taken ++ (p.upload.write _).sent
      rw [Pipe.taken_take, Pipe.sent_write, hlinked.taken, List.append_assoc]
    · change Stands _ link o.tunnel.caller p.stage
      rw [hstage]
      refine ⟨hsaid, hcaller.trans ?_⟩
      rw [Pipe.taken_write]
  · obtain ⟨-, ⟨⟩⟩ := Option.ite_none_right_eq_some.mp hstep
    refine .opened ⟨hlinked.opened, hlinked.inv, hlinked.connects, hlinked.addr, hlinked.taken, ?_⟩
    change Stands _ link o.tunnel.caller p.stage
    rw [hstage]
    exact ⟨hsaid, hcaller⟩
  · next n =>
    obtain ⟨-, hmapped⟩ := Option.ite_none_right_eq_some.mp hstep
    obtain ⟨next, hadvance, rfl⟩ := Option.map_eq_some_iff.mp hmapped
    obtain ⟨_, o', hopened, htunnel, rfl⟩ := advance_eq_some.mp hadvance
    cases hlinked.opened.symm.trans hopened
    refine hlinked.advance htunnel rfl ?_
    rw [hstage]
    refine ⟨hsaid, ?_⟩
    rw [Opened.caller_of_writes hcaller htunnel, Pipe.taken_take, List.append_assoc]
  · obtain ⟨-, hadvance⟩ := Option.ite_none_right_eq_some.mp hstep
    obtain ⟨_, o', hopened, htunnel, rfl⟩ := advance_eq_some.mp hadvance
    cases hlinked.opened.symm.trans hopened
    refine hlinked.advance htunnel rfl ?_
    rw [hstage, Opened.caller_of_shutsDown htunnel]
    exact ⟨hsaid, hcaller⟩
  · cases hstep

theorem Inv.downloads {event : Event} (h : p.Inv front) (hrelaying : p.isRelaying) (hopened : p.opened = some o)
    (hstep : p.downloads o event = some p') : p'.Inv front := by
  obtain ⟨_, link, hlinked, hstage, hsaid, hcaller⟩ := h.relaying hrelaying
  cases hlinked.opened.symm.trans hopened
  unfold LocalProxy.downloads at hstep
  split at hstep
  · next n =>
    obtain ⟨-, hmapped⟩ := Option.ite_none_right_eq_some.mp hstep
    obtain ⟨next, hadvance, rfl⟩ := Option.map_eq_some_iff.mp hmapped
    obtain ⟨_, o', hopened', htunnel, rfl⟩ := advance_eq_some.mp hadvance
    cases hopened.symm.trans hopened'
    refine hlinked.advance htunnel rfl ?_
    rw [hstage]
    refine ⟨hsaid.trans ?_, ?_⟩
    · rw [Pipe.taken_write]
    · rw [Opened.caller_of_reads hcaller htunnel]
      rfl
  · obtain ⟨-, ⟨⟩⟩ := Option.ite_none_right_eq_some.mp hstep
    refine .opened ⟨hlinked.opened, hlinked.inv, hlinked.connects, hlinked.addr, hlinked.taken, ?_⟩
    change Stands _ link o.tunnel.caller p.stage
    rw [hstage]
    exact ⟨hsaid, hcaller⟩
  · next n =>
    obtain ⟨-, ⟨⟩⟩ := Option.ite_none_right_eq_some.mp hstep
    refine .opened ⟨hlinked.opened, hlinked.inv, hlinked.connects, hlinked.addr, hlinked.taken, ?_⟩
    change Stands _ link o.tunnel.caller p.stage
    rw [hstage]
    refine ⟨?_, hcaller⟩
    change (p.toLocal.write _).sent = link.said ++ link.accepted ++ (p.download.take n).taken
    rw [Pipe.sent_write, Pipe.taken_take, hsaid]
    simp only [List.append_assoc]
  · obtain ⟨-, ⟨⟩⟩ := Option.ite_none_right_eq_some.mp hstep
    exact h.of_same ⟨rfl, rfl, rfl, rfl, rfl, rfl⟩
  · obtain ⟨-, ⟨⟩⟩ := Option.ite_none_right_eq_some.mp hstep
    exact h.close
  · cases hstep

theorem Inv.turn {event : Event} (h : p.Inv front) (hstep : p.turn front event = some p') : p'.Inv front := by
  unfold LocalProxy.turn at hstep
  split at hstep
  · next bytes =>
    obtain ⟨-, ⟨⟩⟩ := Option.ite_none_right_eq_some.mp hstep
    exact h.of_same ⟨rfl, p.fromLocal.taken_write bytes, rfl, rfl, rfl, rfl⟩
  · cases hstep
    exact h.of_same ⟨rfl, rfl, rfl, rfl, rfl, rfl⟩
  · cases hstep
    exact h.of_same ⟨rfl, rfl, rfl, rfl, rfl, rfl⟩
  · split at hstep
    · next hstage =>
      obtain ⟨⟨reaction, n⟩, hread, rfl⟩ := Option.map_eq_some_iff.mp hstep
      exact h.reads hstage hread
    · cases hstep
  · exact h.writes hstep
  · next x =>
    split at hstep
    · next addr accepted refused ahead hstage =>
      obtain ⟨rfl, hmapped⟩ := Option.ite_none_right_eq_some.mp hstep
      obtain ⟨tunnel, hstart, rfl⟩ := Option.map_eq_some_iff.mp hmapped
      exact h.opens hstage hstart
    · cases hstep
  · obtain ⟨hopening, hadvance⟩ := Option.ite_none_right_eq_some.mp hstep
    exact h.calls hopening hadvance
  · exact h.served hstep
  · exact h.returned hstep
  · exact h.forwards hstep
  · split at hstep
    · cases hstep
    · cases hstep
    · cases hstep
      exact h.close
  · split at hstep
    · next o hrelaying hopened =>
      rcases Option.or_eq_some_iff.mp hstep with hupload | ⟨-, hdownload⟩
      · exact h.uploads hrelaying hupload
      · exact h.downloads hrelaying hopened hdownload
    · cases hstep

theorem inv_of_runs {events : List Event} (h : runs front events = some p) : p.Inv front := by
  refine run_induction (I := fun p => p.Inv front) (fun s e s' hinv he => ?_) ?_ h
  · obtain ⟨next, hturn, rfl⟩ := Option.map_eq_some_iff.mp he
    exact (hinv.turn hturn).settle
  · exact .unopened rfl ⟨rfl, rfl⟩ .start

/-- What the program and the remote have of each other. -/
structure Carried (p : LocalProxy σ) (o : Opened) (link : Link) : Prop where
  dialed : o.tunnel.stream.dialed = [] ∨ o.tunnel.stream.dialed = [link.addr]
  upward : ∃ behind, p.fromLocal.sent = link.taken ++ behind ∧
    o.tunnel.stream.upward.sink.sent <+: link.ahead ++ behind
  downward : p.toLocal.sent <+: link.said ++ link.refused ∨
    ∃ received, p.toLocal.sent <+: link.said ++ link.accepted ++ received ∧
      (received <+: o.tunnel.stream.downward.source.sent ∨
        isHealthcheckRequest link.addr ∧ received <+: healthReply o.tunnel.caller.written)

theorem Linked.carried (h : p.Linked front o link) : p.Carried o link := by
  have hanswered := h.stands.answered
  obtain ⟨unread, hunread⟩ := p.fromLocal.taken_isPrefix
  rw [h.taken, List.append_assoc] at hunread
  refine ⟨?_, ⟨p.upload.sent ++ unread, hunread.symm, ?_⟩, ?_⟩
  · rw [← h.addr]
    exact h.inv.stream.done.dialed.imp id And.left
  · refine (TcpTunnel.sent_isPrefix h.inv).trans ?_
    cases hcaller : o.tunnel.caller with
    | connected written received =>
      rw [hcaller] at hanswered
      rw [← List.append_assoc]
      exact hanswered.1.trans (List.prefix_append _ _)
    | _ => exact List.nil_prefix
  · cases hcaller : o.tunnel.caller with
    | requesting unsent =>
      rw [hcaller] at hanswered
      exact .inl (hanswered ▸ List.prefix_append _ _)
    | failed err =>
      rw [hcaller] at hanswered
      exact .inl hanswered
    | connected written received =>
      rw [hcaller] at hanswered
      refine .inr ⟨received, hanswered.2, ?_⟩
      rcases TcpTunnel.received_isPrefix h.inv hcaller with ⟨-, hreceived⟩ | ⟨hgranted, hreceived⟩
      · exact .inl hreceived
      · exact .inr ⟨h.addr ▸ hgranted.2.2, hreceived⟩

theorem carried_of_runs {events : List Event} (h : runs front events = some p) (hopened : p.opened = some o) :
    ∃ link, front.Connects link ∧ o.exchange.addr = link.addr ∧ p.Carried o link := by
  cases inv_of_runs h with
  | unopened hnone => exact absurd (hnone.symm.trans hopened) nofun
  | @opened _ link hlinked =>
    cases hlinked.opened.symm.trans hopened
    exact ⟨link, hlinked.connects, hlinked.addr, hlinked.carried⟩

end LocalProxy
end Hysteria.App
