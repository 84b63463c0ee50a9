import Hysteria.Mobile.SessionSteps
import Hysteria.Mobile.StaleMessages
import Mathlib.Order.Nat

/-! The life of a session over whole runs of the controller: there is never more than
one, the tunnel is never held without somebody who carries it, and after a disconnect
everything stays down. -/
namespace Hysteria.Mobile
open Lib

namespace System

/-- Somebody carries the tunnel or is about to: a client, a reconnect that waits, or one
that is being tried. -/
inductive Carried (s : System) : Prop where
  | client (h : s.controller.currentClient ≠ none)
  | pending (h : 0 < s.pendingCurrent) (hform : s.controller.reconnectForm ≠ none)
  | trying {attempt : UInt32} {form : FormState} (h : s.connecting = some (.reconnect attempt, form))

structure TunnelInv (s : System) : Prop where
  desired : s.controller.tun2socksRunning = true → s.controller.desiredVpnActive = true
  carried : s.controller.tun2socksRunning = true → s.Carried
  managed : ∀ form, s.connecting = some (.managedConnect, form) →
    s.controller.desiredVpnActive = true
  clientForm : s.controller.currentClient ≠ none → s.controller.reconnectForm ≠ none
  tryingForm : ∀ attempt form, s.connecting = some (.reconnect attempt, form) →
    s.controller.reconnectForm ≠ none

theorem new_tunnelInv (vpn : VpnState) : (new vpn).TunnelInv := ⟨nofun, nofun, nofun, nofun, nofun⟩

theorem TunnelInv.of_idle {s : System} (hidle : s.connecting = none)
    (hdesired : s.controller.tun2socksRunning = true → s.controller.desiredVpnActive = true)
    (hcarried : s.controller.tun2socksRunning = true → s.Carried)
    (hform : s.controller.currentClient ≠ none → s.controller.reconnectForm ≠ none) :
    s.TunnelInv where
  desired := hdesired
  carried := hcarried
  managed := by
    rw [hidle]
    nofun
  clientForm := hform
  tryingForm := by
    rw [hidle]
    nofun

theorem TunnelInv.steady {s after : System} (h : s.TunnelInv) (heffect : Steady s after) :
    after.TunnelInv := by
  obtain ⟨status, hcontroller⟩ := heffect.controller
  constructor
  · rw [hcontroller]
    exact h.desired
  · intro hrunning
    rw [hcontroller] at hrunning
    cases h.carried hrunning with
    | client hclient => exact .client (by rwa [hcontroller])
    | pending hpos hform => exact .pending (by rwa [heffect.pendingCurrent]) (by rwa [hcontroller])
    | trying htrying => exact .trying (by rwa [heffect.connecting])
  · rw [hcontroller, heffect.connecting]
    exact h.managed
  · rw [hcontroller]
    exact h.clientForm
  · rw [hcontroller, heffect.connecting]
    exact h.tryingForm

theorem TunnelInv.dropped {s after : System} {generation : UInt64} (h : s.TunnelInv)
    (heffect : Dropped s after generation) : after.TunnelInv := by
  have hcontroller := heffect.controller
  constructor
  · rw [hcontroller]
    exact h.desired
  · intro hrunning
    rw [hcontroller] at hrunning
    cases h.carried hrunning with
    | client hclient => exact .client (by rwa [hcontroller])
    | pending hpos hform =>
      -- A reconnect that would count is not dropped while there is a form.
      have hother : generation ≠ s.controller.currentGeneration := fun h => hform (heffect.ignored h)
      exact .pending (by rwa [heffect.pendingCurrent hother]) (by rwa [hcontroller])
    | trying htrying => exact .trying (by rwa [heffect.connecting])
  · rw [hcontroller, heffect.connecting]
    exact h.managed
  · rw [hcontroller]
    exact h.clientForm
  · rw [hcontroller, heffect.connecting]
    exact h.tryingForm

theorem tunnelInv_restarted {s after : System} {command : AppCommand}
    (heffect : Restarted s after command) : after.TunnelInv := by
  obtain ⟨status, hcontroller⟩ := heffect.controller
  have hrunning : after.controller.tun2socksRunning = false := by rw [hcontroller]
  have hclient : after.controller.currentClient = none := by rw [hcontroller]; rfl
  constructor
  · rw [hrunning]
    nofun
  · rw [hrunning]
    nofun
  · exact heffect.managed
  · intro hsome
    exact absurd hclient hsome
  · intro attempt form htrying
    exact absurd htrying (heffect.reconnect attempt form)

theorem TunnelInv.shellStopped {s after : System} (h : s.TunnelInv)
    (heffect : ShellStopped s after) : after.TunnelInv := by
  obtain ⟨status, hcontroller⟩ := heffect.controller
  refine .of_idle heffect.connecting ?_ ?_ ?_
  · rw [hcontroller]
    nofun
  · rw [hcontroller]
    nofun
  · rw [hcontroller]
    exact h.clientForm

theorem TunnelInv.lost {s after : System} (h : s.TunnelInv) (heffect : Lost s after) :
    after.TunnelInv := by
  obtain ⟨status, hcontroller⟩ := heffect.controller
  have hform : after.controller.reconnectForm = s.controller.reconnectForm := by
    rw [hcontroller]
    rfl
  have hscheduled := heffect.pendingCurrent
  refine .of_idle heffect.connecting ?_ ?_ ?_
  · rw [hcontroller]
    intro hrunning
    cases hdesired : s.controller.desiredVpnActive with
    | true => exact hdesired
    | false => simp [hdesired] at hrunning
  · intro _
    refine .pending (by omega) ?_
    rw [hform]
    exact h.clientForm heffect.client
  · rw [hform]
    intro _
    exact h.clientForm heffect.client

theorem TunnelInv.retried {s after : System} (h : s.TunnelInv) (heffect : Retried s after) :
    after.TunnelInv := by
  obtain ⟨attempt, form, htrying⟩ := heffect.connecting
  have hcontroller := heffect.controller
  constructor
  · rw [hcontroller]
    exact h.desired
  · intro _
    exact .trying htrying
  · rw [htrying]
    nofun
  · rw [hcontroller]
    exact h.clientForm
  · rw [hcontroller]
    intro _ _ _
    exact heffect.form

theorem TunnelInv.activated {s after : System} {purpose : Purpose} (h : s.TunnelInv)
    (heffect : Activated s after purpose) : after.TunnelInv := by
  have hclient : after.controller.currentClient ≠ none := by
    rw [heffect.client]
    nofun
  refine .of_idle heffect.connecting ?_ ?_ ?_
  · intro hrunning
    rw [heffect.desired]
    rcases heffect.tun2socks hrunning with hbefore | hdesired | rfl
    · exact h.desired hbefore
    · exact hdesired
    · obtain ⟨form, htrying⟩ := heffect.trying
      exact h.managed form htrying
  · intro _
    exact .client hclient
  · intro _
    exact heffect.form

theorem TunnelInv.gaveUp {s after : System} (h : s.TunnelInv) (heffect : GaveUp s after) :
    after.TunnelInv := by
  obtain ⟨status, hcontroller⟩ := heffect.controller
  refine .of_idle heffect.connecting ?_ ?_ ?_
  · rw [hcontroller]
    exact h.desired
  · intro hrunning
    rw [hcontroller] at hrunning
    cases h.carried hrunning with
    | client hclient => exact .client (by rwa [hcontroller])
    | pending hpos hform =>
      exact .pending (by rwa [heffect.pendingCurrent]) (by rwa [hcontroller])
    | trying htrying => exact absurd htrying (heffect.reconnect _ _)
  · rw [hcontroller]
    exact h.clientForm

theorem TunnelInv.rescheduled {s after : System} (h : s.TunnelInv)
    (heffect : Rescheduled s after) : after.TunnelInv := by
  obtain ⟨status, hcontroller⟩ := heffect.controller
  obtain ⟨attempt, form, htrying⟩ := heffect.trying
  have hscheduled := heffect.pendingCurrent
  refine .of_idle heffect.connecting ?_ ?_ ?_
  · rw [hcontroller]
    exact h.desired
  · intro _
    refine .pending (by omega) ?_
    rw [hcontroller]
    exact h.tryingForm attempt form htrying
  · rw [hcontroller]
    exact h.clientForm

theorem step_tunnelInv {s after : System} {event : Event} (h : s.TunnelInv)
    (hstep : s.step event = some after) : after.TunnelInv := by
  cases step_effect hstep with
  | steady heffect => exact h.steady heffect
  | dropped heffect => exact h.dropped heffect
  | restarted _ heffect => exact tunnelInv_restarted heffect
  | shellStopped heffect => exact h.shellStopped heffect
  | lost heffect => exact h.lost heffect
  | retried heffect => exact h.retried heffect
  | activated heffect => exact h.activated heffect
  | gaveUp _ heffect => exact h.gaveUp heffect
  | rescheduled heffect => exact h.rescheduled heffect

/-- While a tunnel is held it is wanted, and there is a client or a reconnect of the
current generation with a form to connect with: one that waits, or, while the controller
is inside that command, the one it is trying. -/
theorem tunnel_carried (vpn : VpnState) (events : List Event) {s : System}
    (hrun : run step (new vpn) events = some s) (hheld : s.controller.tun2socksRunning = true) :
    s.controller.desiredVpnActive = true ∧
      (s.connecting = none → s.controller.currentClient ≠ none ∨
        0 < s.pendingCurrent ∧ s.controller.reconnectForm ≠ none) ∧
      (s.connecting ≠ none → s.controller.currentClient ≠ none ∨
        (0 < s.pendingCurrent ∨ ∃ attempt form, s.connecting = some (.reconnect attempt, form)) ∧
          s.controller.reconnectForm ≠ none) := by
  have hinv : s.TunnelInv :=
    run_induction (fun _ _ _ h hstep => step_tunnelInv h hstep) (new_tunnelInv vpn) hrun
  refine ⟨hinv.desired hheld, ?_, ?_⟩
  · intro hidle
    cases hinv.carried hheld with
    | client h => exact .inl h
    | pending h hform => exact .inr ⟨h, hform⟩
    | trying h => exact nomatch hidle.symm.trans h
  · intro _
    cases hinv.carried hheld with
    | client h => exact .inl h
    | pending h hform => exact .inr ⟨.inl h, hform⟩
    | trying h => exact .inr ⟨.inr ⟨_, _, h⟩, hinv.tryingForm _ _ h⟩

def managedLost : List Event :=
  [.user (.managedConnect form), .receive bridge, .connected (.ok attempt) bridge, .task 1 .poll,
    .task 1 (.closed "timed out"), .receive bridge]

theorem tunnel_carried_lost :
    ∃ s, run step (new vpnOff) managedLost = some s ∧
      s.controller.tun2socksRunning = true ∧ s.controller.currentClient = none ∧
      0 < s.pendingCurrent ∧ s.controller.reconnectForm ≠ none :=
  ⟨_, rfl, rfl, rfl,
    ((tunnel_carried vpnOff managedLost rfl rfl).2.1 rfl).resolve_left fun h => h rfl⟩

def generations : System → List Event → Nat
  | _, [] => 0
  | s, event :: events =>
    (if (s.processed event).any AppCommand.newGeneration then 1 else 0) +
      match s.step event with
      | some after => after.generations events
      | none => 0

/-- The reconnects of the current generation that wait, and the attempt that is made. -/
def attempts (s : System) : Nat := s.pendingCurrent + if s.connecting.isSome then 1 else 0

/-- What holds after `k` generations, as long as the counter has not wrapped. -/
structure SessionInv (k : Nat) (s : System) : Prop where
  generation : s.controller.currentGeneration.toNat ≤ k
  pending_le : ∀ generation ∈ s.pending,
    generation.toNat ≤ s.controller.currentGeneration.toNat
  single : s.attempts ≤ 1
  noSession : 0 < s.attempts → s.controller.NoSession
  tasks : ∀ (n : Nat) (task : Task), s.tasks[n]? = some task → task.serving →
    s.controller.Holds n ∧ s.controller.currentClient = some task.client

theorem new_sessionInv (vpn : VpnState) : SessionInv 0 (new vpn) where
  generation := Nat.le_refl 0
  pending_le := nofun
  single := Nat.zero_le 1
  noSession := fun h => absurd h (Nat.lt_irrefl 0)
  tasks := nofun

variable {k : Nat} {s after : System}

theorem SessionInv.stopped_tasks (h : SessionInv k s) {n : Nat} {task : Task}
    (hn : s.abortSession[n]? = some task) : ¬ task.serving := by
  intro hserving
  obtain ⟨hbefore, hnot⟩ := abortSession_serving hn hserving
  exact hnot (h.tasks n task hbefore hserving).1

theorem SessionInv.kept (h : SessionInv k s)
    (hcontroller : ∃ status running desired, after.controller = { s.controller with
      connectedStatus := status
      tun2socksRunning := running
      desiredVpnActive := desired })
    (hpending : ∀ generation ∈ after.pending,
      generation ∈ s.pending ∨ generation = s.controller.currentGeneration)
    (hattempts : after.attempts ≤ s.attempts) (htasks : TasksKept s after) : SessionInv k after := by
  obtain ⟨status, running, desired, hcontroller⟩ := hcontroller
  constructor
  · rw [hcontroller]
    exact h.generation
  · rw [hcontroller]
    intro generation hmem
    rcases hpending generation hmem with hold | rfl
    · exact h.pending_le generation hold
    · exact Nat.le_refl _
  · exact hattempts.trans h.single
  · intro hpos
    obtain ⟨hclient, hsocks, hclose, hwatch, hprobe⟩ := h.noSession (hpos.trans_le hattempts)
    rw [hcontroller]
    exact ⟨hclient, hsocks, hclose, hwatch, hprobe⟩
  · intro n task hn hserving
    obtain ⟨old, hold, holdServing, hclient⟩ := htasks n task hn hserving
    rw [hcontroller, ← hclient]
    exact h.tasks n old hold holdServing

theorem SessionInv.steady (h : SessionInv k s) (heffect : Steady s after) : SessionInv k after := by
  obtain ⟨status, hcontroller⟩ := heffect.controller
  apply h.kept ⟨status, _, _, hcontroller⟩ _ _ heffect.tasks
  · intro generation hmem
    exact .inl (heffect.pending.mem_iff.mp hmem)
  · unfold attempts
    rw [heffect.pendingCurrent, heffect.connecting]

theorem SessionInv.dropped {generation : UInt64} (h : SessionInv k s)
    (heffect : Dropped s after generation) : SessionInv k after := by
  apply h.kept ⟨_, _, _, heffect.controller⟩ _ _ (tasksKept_of_eq heffect.tasks)
  · intro other hmem
    exact .inl (heffect.pending.mem_iff.mpr (List.mem_cons_of_mem _ hmem))
  · have hcount : after.pendingCurrent ≤ s.pendingCurrent := by
      unfold pendingCurrent
      rw [heffect.controller, heffect.pending.count_eq]
      exact List.count_le_count_cons
    unfold attempts
    rw [heffect.connecting]
    omega

theorem SessionInv.shellStopped (h : SessionInv k s) (heffect : ShellStopped s after) :
    SessionInv k after := by
  obtain ⟨status, hcontroller⟩ := heffect.controller
  apply h.kept ⟨status, _, _, hcontroller⟩ _ _ (tasksKept_of_eq heffect.tasks)
  · intro generation hmem
    rw [heffect.pending] at hmem
    exact .inl hmem
  · have hcount : after.pendingCurrent = s.pendingCurrent :=
      pendingCurrent_eq (by rw [hcontroller]) (.of_eq heffect.pending)
    unfold attempts
    rw [hcount, heffect.connecting, heffect.idle]

theorem SessionInv.retried (h : SessionInv k s) (heffect : Retried s after) : SessionInv k after := by
  obtain ⟨attempt, form, hconnecting⟩ := heffect.connecting
  apply h.kept ⟨_, _, _, heffect.controller⟩ _ _ (tasksKept_of_eq heffect.tasks)
  · intro generation hmem
    exact .inl (heffect.pending.mem_iff.mpr (List.mem_cons_of_mem _ hmem))
  · -- The reconnect that waited is the attempt that is made now.
    unfold attempts
    rw [heffect.pendingCurrent, hconnecting]
    exact Nat.le_add_right _ _

theorem SessionInv.gaveUp (h : SessionInv k s) (heffect : GaveUp s after) : SessionInv k after := by
  obtain ⟨status, hcontroller⟩ := heffect.controller
  apply h.kept ⟨status, _, _, hcontroller⟩ _ _ (tasksKept_of_eq heffect.tasks)
  · intro generation hmem
    rw [heffect.pending] at hmem
    exact .inl hmem
  · unfold attempts
    rw [heffect.pendingCurrent, heffect.connecting]
    exact Nat.le_add_right _ _

theorem SessionInv.rescheduled (h : SessionInv k s) (heffect : Rescheduled s after) :
    SessionInv k after := by
  obtain ⟨status, hcontroller⟩ := heffect.controller
  obtain ⟨attempt, form, htrying⟩ := heffect.trying
  apply h.kept ⟨status, _, _, hcontroller⟩ _ _ (tasksKept_of_eq heffect.tasks)
  · intro generation hmem
    rcases List.mem_cons.mp (heffect.pending.mem_iff.mp hmem) with rfl | hold
    · exact .inr rfl
    · exact .inl hold
  · unfold attempts
    rw [heffect.pendingCurrent, heffect.connecting, htrying]
    rfl

theorem SessionInv.lost (h : SessionInv k s) (heffect : Lost s after) : SessionInv k after := by
  obtain ⟨status, hcontroller⟩ := heffect.controller
  -- There was a client, so no attempt was on its way.
  have hidle : s.attempts = 0 := by
    by_contra hne
    exact heffect.client (h.noSession (Nat.pos_of_ne_zero hne)).currentClient
  have hnone : s.pendingCurrent = 0 := Nat.eq_zero_of_add_eq_zero_right hidle
  constructor
  · rw [hcontroller]
    exact h.generation
  · rw [hcontroller]
    intro generation hmem
    rcases List.mem_cons.mp (heffect.pending.mem_iff.mp hmem) with rfl | hold
    · exact Nat.le_refl _
    · exact h.pending_le generation hold
  · unfold attempts
    rw [heffect.pendingCurrent, heffect.connecting, hnone]
    rfl
  · intro _
    rw [hcontroller]
    exact ⟨rfl, rfl, rfl, rfl, rfl⟩
  · intro n task hn hserving
    rw [heffect.tasks] at hn
    exact absurd hserving (h.stopped_tasks hn)

theorem SessionInv.activated {purpose : Purpose} (h : SessionInv k s)
    (heffect : Activated s after purpose) : SessionInv k after := by
  obtain ⟨form, htrying⟩ := heffect.trying
  have hattempts : s.attempts = s.pendingCurrent + 1 := by
    unfold attempts
    rw [htrying]
    rfl
  have hnone : s.pendingCurrent = 0 := by
    have hsingle := h.single
    omega
  have hidle : after.attempts = 0 := by
    unfold attempts
    rw [pendingCurrent_eq heffect.generation (.of_eq heffect.pending), heffect.connecting, hnone]
    rfl
  have hstopped : s.controller.NoSession := h.noSession (by omega)
  constructor
  · rw [heffect.generation]
    exact h.generation
  · rw [heffect.pending, heffect.generation]
    exact h.pending_le
  · omega
  · omega
  · intro n task hn hserving
    rcases heffect.tasks n task hn with hold | ⟨hholds, hclient⟩
    · exact absurd (h.tasks n task hold hserving).1 (hstopped.not_holds n)
    · rw [heffect.client, hclient]
      exact ⟨hholds, rfl⟩

theorem SessionInv.restarted {command : AppCommand} (h : SessionInv k s)
    (heffect : Restarted s after command) (hk : k + 1 < 2 ^ 64) : SessionInv (k + 1) after := by
  obtain ⟨status, hcontroller⟩ := heffect.controller
  have hbefore := h.generation
  have hgeneration : after.controller.currentGeneration.toNat =
      s.controller.currentGeneration.toNat + 1 := by
    rw [hcontroller]
    dsimp only
    rw [UInt64.toNat_add, UInt64.toNat_one]
    exact Nat.mod_eq_of_lt (by omega)
  have hnone : after.pendingCurrent = 0 := by
    unfold pendingCurrent
    rw [heffect.pending, List.count_eq_zero]
    intro hmem
    have hle := h.pending_le _ hmem
    omega
  constructor
  · omega
  · rw [heffect.pending, hgeneration]
    intro generation hmem
    exact (h.pending_le generation hmem).trans (Nat.le_succ _)
  · unfold attempts
    rw [hnone]
    split <;> decide
  · intro _
    rw [hcontroller]
    exact ⟨rfl, rfl, rfl, rfl, rfl⟩
  · intro n task hn hserving
    rw [heffect.tasks] at hn
    exact absurd hserving (h.stopped_tasks hn)

theorem SessionInv.mono (h : SessionInv k s) {k' : Nat} (hk : k ≤ k') : SessionInv k' s :=
  ⟨h.generation.trans hk, h.pending_le, h.single, h.noSession, h.tasks⟩

theorem step_sessionInv {event : Event} (h : SessionInv k s) (hstep : s.step event = some after)
    (hk : k + (if (s.processed event).any AppCommand.newGeneration then 1 else 0) < 2 ^ 64) :
    SessionInv (k + if (s.processed event).any AppCommand.newGeneration then 1 else 0) after := by
  cases step_effect hstep with
  | steady heffect => exact (h.steady heffect).mono (Nat.le_add_right _ _)
  | dropped heffect => exact (h.dropped heffect).mono (Nat.le_add_right _ _)
  | restarted hcommand heffect =>
    have hnew : (s.processed event).any AppCommand.newGeneration = true := by
      rw [hcommand]
      exact heffect.newGeneration
    rw [if_pos hnew] at hk ⊢
    exact h.restarted heffect hk
  | shellStopped heffect => exact (h.shellStopped heffect).mono (Nat.le_add_right _ _)
  | lost heffect => exact (h.lost heffect).mono (Nat.le_add_right _ _)
  | retried heffect => exact (h.retried heffect).mono (Nat.le_add_right _ _)
  | activated heffect => exact (h.activated heffect).mono (Nat.le_add_right _ _)
  | gaveUp _ heffect => exact (h.gaveUp heffect).mono (Nat.le_add_right _ _)
  | rescheduled heffect => exact (h.rescheduled heffect).mono (Nat.le_add_right _ _)

theorem run_sessionInv {events : List Event} (h : SessionInv k s)
    (hrun : run step s events = some after) (hk : k + s.generations events < 2 ^ 64) :
    SessionInv (k + s.generations events) after := by
  induction events generalizing k s with
  | nil =>
    cases hrun
    exact h
  | cons event events ih =>
    obtain ⟨next, hstep, hrest⟩ := run_cons.mp hrun
    simp only [generations, hstep, ← Nat.add_assoc] at hk ⊢
    exact ih (step_sessionInv h hstep (by omega)) hrest hk

/-- In every run with fewer than `2 ^ 64` generations, at most one reconnect of the
current generation is pending; while one is, and whenever a connection attempt is about
to become the session, there is no client and no task handle; and the tasks that nobody
has aborted all serve the current client. -/
theorem one_session (vpn : VpnState) (events : List Event) {s : System}
    (hrun : run step (new vpn) events = some s) (hgenerations : (new vpn).generations events < 2 ^ 64) :
    s.pendingCurrent ≤ 1 ∧ (0 < s.pendingCurrent → s.controller.NoSession) ∧
      (∀ connected bridge after, s.step (.connected (.ok connected) bridge) = some after →
        s.controller.NoSession) ∧
      ∀ (n : Nat) (task : Task), s.tasks[n]? = some task → task.serving →
        s.controller.Holds n ∧ s.controller.currentClient = some task.client := by
  have hinv := run_sessionInv (new_sessionInv vpn) hrun (by omega)
  have hle : s.pendingCurrent ≤ s.attempts := Nat.le_add_right _ _
  refine ⟨hle.trans hinv.single, fun hpos => hinv.noSession (hpos.trans_le hle), ?_, hinv.tasks⟩
  intro connected bridge after hstep
  apply hinv.noSession
  have htrying : s.connecting.isSome := by
    simp only [step] at hstep
    split at hstep
    · next htrying => rw [htrying]; rfl
    · cases hstep
  unfold attempts
  rw [if_pos htrying]
  exact Nat.succ_pos _

theorem one_session_lost :
    ∃ s, run step (new vpnOff) (reconnected.take 6) = some s ∧ 0 < s.pendingCurrent ∧
      s.controller.NoSession :=
  ⟨_, rfl, by decide, (one_session vpnOff (reconnected.take 6) rfl (by decide)).2.1 (by decide)⟩

def Down (s : System) : Prop :=
  s.controller.currentClient = none ∧ s.controller.tun2socksRunning = false

/-- Down, with nothing left that could bring a session up. -/
structure DownInv (s : System) : Prop where
  down : s.Down
  connecting : s.connecting = none
  form : s.controller.reconnectForm = none

theorem receive_eq {bridge : Bridge} {command : AppCommand}
    (hcommand : s.processed (.receive bridge) = some command)
    (hstep : s.step (.receive bridge) = some after) :
    ∃ rest, s.connecting = none ∧ after = { s with channel := rest }.handle bridge command := by
  simp only [processed] at hcommand
  simp only [step] at hstep
  split at hstep
  · next message rest hconnecting hchannel =>
    rw [hconnecting, hchannel] at hcommand
    cases hcommand
    cases hstep
    exact ⟨rest, hconnecting, rfl⟩
  · cases hstep

theorem step_downInv {event : Event} (h : s.DownInv) (hstep : s.step event = some after)
    (hlater : ¬ (s.processed event).any AppCommand.startsSession) :
    after.DownInv ∧ after.timers.Sublist s.timers := by
  cases step_effect hstep with
  | steady heffect =>
    obtain ⟨status, hcontroller⟩ := heffect.controller
    refine ⟨⟨?_, heffect.connecting.trans h.connecting, ?_⟩, heffect.timers⟩
    · rw [Down, hcontroller]
      exact h.down
    · rw [hcontroller]
      exact h.form
  | dropped heffect =>
    refine ⟨⟨?_, heffect.connecting.trans h.connecting, ?_⟩, heffect.timers ▸ .refl _⟩
    · rw [Down, heffect.controller]
      exact h.down
    · rw [heffect.controller]
      exact h.form
  | restarted hcommand heffect =>
    rw [hcommand, Option.any_some, Bool.not_eq_true] at hlater
    obtain ⟨hconnecting, hform⟩ := heffect.ended hlater
    obtain ⟨status, hcontroller⟩ := heffect.controller
    refine ⟨⟨?_, hconnecting, hform⟩, heffect.timers ▸ .refl _⟩
    rw [Down, hcontroller]
    exact ⟨rfl, rfl⟩
  | shellStopped heffect =>
    obtain ⟨status, hcontroller⟩ := heffect.controller
    refine ⟨⟨?_, heffect.connecting, ?_⟩, heffect.timers ▸ .refl _⟩
    · rw [Down, hcontroller]
      exact ⟨h.down.1, rfl⟩
    · rw [hcontroller]
      exact h.form
  | lost heffect => exact absurd h.down.1 heffect.client
  | retried heffect => exact absurd h.form heffect.form
  | activated heffect =>
    obtain ⟨form, htrying⟩ := heffect.trying
    exact nomatch h.connecting.symm.trans htrying
  | gaveUp htrying _ => exact absurd h.connecting htrying
  | rescheduled heffect =>
    obtain ⟨attempt, form, htrying⟩ := heffect.trying
    exact nomatch h.connecting.symm.trans htrying

/-- Once a disconnect or the end of the service has been processed, every later step
leaves the controller without client and tunnel and schedules no reconnect, until a
command that asks for a session is processed. -/
theorem stays_down {bridge : Bridge} (events : List Event)
    (hcommand : s.processed (.receive bridge) = some .disconnect ∨
      s.processed (.receive bridge) = some .serviceStopped)
    (hstop : s.step (.receive bridge) = some after)
    (hlater : Along step (fun s event _ => ¬ (s.processed event).any AppCommand.startsSession)
      after events) :
    after.Down ∧
      Along step (fun s _ after => after.Down ∧ after.timers.Sublist s.timers) after events := by
  have hdown : after.DownInv := by
    rcases hcommand with hcommand | hcommand
    all_goals
      obtain ⟨rest, hconnecting, rfl⟩ := receive_eq hcommand hstop
      exact ⟨⟨rfl, rfl⟩, hconnecting, rfl⟩
  refine ⟨hdown.down, along_of_inv ?_ hdown hlater⟩
  intro s event after h hstep hlater
  obtain ⟨hafter, htimers⟩ := step_downInv h hstep hlater
  exact ⟨hafter, hafter.down, htimers⟩

def disconnecting : System :=
  (run step (new vpnOff) (reconnected.take 6 ++ [.user .disconnect])).getD (new vpnOff)

theorem stays_down_reconnect :
    run step (new vpnOff) (reconnected.take 6 ++ [.user .disconnect]) = some disconnecting ∧
      ∃ after, disconnecting.step (.receive bridge) = some after ∧ after.timers = [(1, 0)] ∧
        after.Down ∧
        Along step (fun s _ after => after.Down ∧ after.timers.Sublist s.timers) after
          [.timer 0, .receive bridge] := by
  refine ⟨rfl, _, rfl, rfl, @stays_down disconnecting _ bridge _ (.inl rfl) rfl ?_⟩
  iterate 2
    rintro _ ⟨⟩
    refine ⟨nofun, ?_⟩
  trivial

end System
end Hysteria.Mobile
