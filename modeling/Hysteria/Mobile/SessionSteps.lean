import Hysteria.Mobile.ControllerSteps
import Mathlib.Data.List.Basic

/-! What one step of the controller does to a session: to the client, the handles of its
tasks, the tunnel, and the reconnects that are still to come. -/
namespace Hysteria.Mobile
open Lib
open scoped List

def Message.reconnectGeneration (message : Message) : Option UInt64 :=
  match message.command with
  | .reconnect generation _ => some generation
  | _ => none

theorem Message.reconnectGeneration_of_watch {message : Message} {generation : UInt64}
    (h : message.command.watchGeneration = some generation) :
    message.reconnectGeneration = none := by
  unfold reconnectGeneration
  split
  · next hcommand =>
    rw [hcommand] at h
    cases h
  · rfl

def AppCommand.newGeneration : AppCommand → Bool
  | .connect _ | .startManagedVpn _ | .managedConnect _ | .disconnect | .serviceStopped => true
  | _ => false

def AppCommand.startsSession : AppCommand → Bool
  | .connect _ | .startManagedVpn _ | .managedConnect _ => true
  | _ => false

/-- A task of a session that nobody has aborted. The tasks of single SOCKS connections
end with their connections and are not counted. -/
def Task.serving (task : Task) : Prop := task.aborted = false ∧ task.kind ≠ .socksConnection

theorem Task.Stepped.serving {task after : Task} {messages : List Message}
    {spawned : List Task} (h : task.Stepped after messages spawned) (hserving : after.serving) :
    task.serving ∧ task.client = after.client :=
  ⟨⟨h.aborted.symm.trans hserving.1, mt h.connection.mpr hserving.2⟩, h.client.symm⟩

structure Controller.NoSession (c : Controller) : Prop where
  currentClient : c.currentClient = none
  localSocksTask : c.localSocksTask = none
  closeWatchTask : c.closeWatchTask = none
  transportWatchTask : c.transportWatchTask = none
  healthProbeTask : c.healthProbeTask = none

def Controller.Holds (c : Controller) (n : Nat) : Prop :=
  c.localSocksTask = some n ∨ c.closeWatchTask = some n ∨ c.transportWatchTask = some n ∨
    c.healthProbeTask = some n

def Controller.stopped (c : Controller) : Controller :=
  { c with
    currentClient := none
    localSocksTask := none
    closeWatchTask := none
    transportWatchTask := none
    healthProbeTask := none }

theorem Controller.NoSession.not_holds {c : Controller} (h : c.NoSession) (n : Nat) :
    ¬ c.Holds n := by
  rintro (hn | hn | hn | hn)
  · exact nomatch h.localSocksTask.symm.trans hn
  · exact nomatch h.closeWatchTask.symm.trans hn
  · exact nomatch h.transportWatchTask.symm.trans hn
  · exact nomatch h.healthProbeTask.symm.trans hn

namespace System

def processed (s : System) : Event → Option AppCommand
  | .receive _ =>
    match s.connecting, s.channel with
    | none, message :: _ => some message.command
    | _, _ => none
  | _ => none

/-- The generations of the reconnects that wait, for their timer or in the channel. -/
def pending (s : System) : List UInt64 :=
  s.timers.map Prod.fst ++ s.channel.filterMap Message.reconnectGeneration

def pendingCurrent (s : System) : Nat := s.pending.count s.controller.currentGeneration

def abortSession (s : System) : List Task :=
  abort (abort (abort (abort s.tasks s.controller.closeWatchTask) s.controller.transportWatchTask)
    s.controller.healthProbeTask) s.controller.localSocksTask

def TasksKept (s after : System) : Prop :=
  ∀ (n : Nat) (task : Task), after.tasks[n]? = some task → task.serving →
    ∃ old, s.tasks[n]? = some old ∧ old.serving ∧ old.client = task.client

/-- The session is as before. A timer may have fired. -/
structure Steady (s after : System) : Prop where
  controller : ∃ status, after.controller = { s.controller with connectedStatus := status }
  connecting : after.connecting = s.connecting
  pending : after.pending.Perm s.pending
  timers : after.timers.Sublist s.timers
  tasks : TasksKept s after

structure Dropped (s after : System) (generation : UInt64) : Prop where
  ignored : generation = s.controller.currentGeneration → s.controller.reconnectForm = none
  controller : after.controller = s.controller
  connecting : after.connecting = s.connecting
  pending : s.pending.Perm (generation :: after.pending)
  timers : after.timers = s.timers
  tasks : after.tasks = s.tasks

/-- A command ends the session and begins a new generation. -/
structure Restarted (s after : System) (command : AppCommand) : Prop where
  newGeneration : command.newGeneration = true
  controller : ∃ status, after.controller = { s.controller.stopped with
    connectedStatus := status
    tun2socksRunning := false
    currentGeneration := s.controller.currentGeneration + 1
    reconnectForm := after.controller.reconnectForm
    desiredVpnActive := after.controller.desiredVpnActive }
  reconnect : ∀ attempt form, after.connecting ≠ some (.reconnect attempt, form)
  managed : ∀ form, after.connecting = some (.managedConnect, form) →
    after.controller.desiredVpnActive = true
  ended : command.startsSession = false →
    after.connecting = none ∧ after.controller.reconnectForm = none
  pending : after.pending = s.pending
  timers : after.timers = s.timers
  tasks : after.tasks = s.abortSession

structure ShellStopped (s after : System) : Prop where
  controller : ∃ status, after.controller = { s.controller with
    connectedStatus := status
    tun2socksRunning := false
    desiredVpnActive := false }
  idle : s.connecting = none
  connecting : after.connecting = none
  pending : after.pending = s.pending
  timers : after.timers = s.timers
  tasks : after.tasks = s.tasks

/-- The connection is lost: the session ends, and a reconnect is scheduled. -/
structure Lost (s after : System) : Prop where
  client : s.controller.currentClient ≠ none
  controller : ∃ status, after.controller = { s.controller.stopped with
    connectedStatus := status
    tun2socksRunning :=
      if !s.controller.desiredVpnActive then false else s.controller.tun2socksRunning }
  connecting : after.connecting = none
  pending : after.pending.Perm (s.controller.currentGeneration :: s.pending)
  tasks : after.tasks = s.abortSession

/-- A reconnect of the current generation is taken up. -/
structure Retried (s after : System) : Prop where
  form : s.controller.reconnectForm ≠ none
  controller : after.controller = s.controller
  connecting : ∃ attempt form, after.connecting = some (.reconnect attempt, form)
  pending : s.pending.Perm (s.controller.currentGeneration :: after.pending)
  tasks : after.tasks = s.tasks

structure Activated (s after : System) (purpose : Purpose) : Prop where
  trying : ∃ form, s.connecting = some (purpose, form)
  connecting : after.connecting = none
  client : after.controller.currentClient = some s.clients
  generation : after.controller.currentGeneration = s.controller.currentGeneration
  form : after.controller.reconnectForm ≠ none
  desired : after.controller.desiredVpnActive = s.controller.desiredVpnActive
  tun2socks : after.controller.tun2socksRunning = true →
    s.controller.tun2socksRunning = true ∨ s.controller.desiredVpnActive = true ∨
      purpose = .managedConnect
  pending : after.pending = s.pending
  tasks : ∀ (n : Nat) (task : Task), after.tasks[n]? = some task → s.tasks[n]? = some task ∨
    after.controller.Holds n ∧ task.client = s.clients

structure GaveUp (s after : System) : Prop where
  connecting : after.connecting = none
  reconnect : ∀ attempt form, s.connecting ≠ some (.reconnect attempt, form)
  controller : ∃ status, after.controller = { s.controller with connectedStatus := status }
  pending : after.pending = s.pending
  tasks : after.tasks = s.tasks

/-- A reconnect has failed; the next one is scheduled. -/
structure Rescheduled (s after : System) : Prop where
  trying : ∃ attempt form, s.connecting = some (.reconnect attempt, form)
  connecting : after.connecting = none
  controller : ∃ status, after.controller = { s.controller with connectedStatus := status }
  pending : after.pending.Perm (s.controller.currentGeneration :: s.pending)
  tasks : after.tasks = s.tasks

inductive Effect (s : System) (event : Event) (after : System) : Prop where
  | steady (h : Steady s after)
  | dropped {generation : UInt64} (h : Dropped s after generation)
  | restarted {command : AppCommand} (hcommand : s.processed event = some command)
      (h : Restarted s after command)
  | shellStopped (h : ShellStopped s after)
  | lost (h : Lost s after)
  | retried (h : Retried s after)
  | activated {purpose : Purpose} (h : Activated s after purpose)
  | gaveUp (htrying : s.connecting ≠ none) (h : GaveUp s after)
  | rescheduled (h : Rescheduled s after)

theorem pendingCurrent_eq {s after : System}
    (hgeneration : after.controller.currentGeneration = s.controller.currentGeneration)
    (hperm : after.pending.Perm s.pending) : after.pendingCurrent = s.pendingCurrent := by
  unfold pendingCurrent
  rw [hgeneration, hperm.count_eq]

theorem pendingCurrent_succ {s after : System}
    (hgeneration : after.controller.currentGeneration = s.controller.currentGeneration)
    (hperm : after.pending.Perm (s.controller.currentGeneration :: s.pending)) :
    after.pendingCurrent = s.pendingCurrent + 1 := by
  unfold pendingCurrent
  rw [hgeneration, hperm.count_eq, List.count_cons_self]

theorem Steady.pendingCurrent {s after : System} (h : Steady s after) :
    after.pendingCurrent = s.pendingCurrent := by
  obtain ⟨status, hcontroller⟩ := h.controller
  exact pendingCurrent_eq (by rw [hcontroller]) h.pending

theorem Dropped.pendingCurrent {s after : System} {generation : UInt64}
    (h : Dropped s after generation) (hother : generation ≠ s.controller.currentGeneration) :
    after.pendingCurrent = s.pendingCurrent := by
  unfold System.pendingCurrent
  rw [h.controller, h.pending.count_eq, List.count_cons_of_ne hother]

theorem Lost.pendingCurrent {s after : System} (h : Lost s after) :
    after.pendingCurrent = s.pendingCurrent + 1 := by
  obtain ⟨status, hcontroller⟩ := h.controller
  exact pendingCurrent_succ (by rw [hcontroller]; rfl) h.pending

theorem Retried.pendingCurrent {s after : System} (h : Retried s after) :
    s.pendingCurrent = after.pendingCurrent + 1 :=
  pendingCurrent_succ (by rw [h.controller]) (by rw [h.controller]; exact h.pending)

theorem GaveUp.pendingCurrent {s after : System} (h : GaveUp s after) :
    after.pendingCurrent = s.pendingCurrent := by
  obtain ⟨status, hcontroller⟩ := h.controller
  exact pendingCurrent_eq (by rw [hcontroller]) (.of_eq h.pending)

theorem Rescheduled.pendingCurrent {s after : System} (h : Rescheduled s after) :
    after.pendingCurrent = s.pendingCurrent + 1 := by
  obtain ⟨status, hcontroller⟩ := h.controller
  exact pendingCurrent_succ (by rw [hcontroller]) h.pending

theorem tasksKept_of_eq {s after : System} (h : after.tasks = s.tasks) : TasksKept s after := by
  intro n task hn hserving
  rw [h] at hn
  exact ⟨task, hn, hserving, rfl⟩

theorem abort_serving {tasks : List Task} {held : Option Nat} {n : Nat} {task : Task}
    (hn : (abort tasks held)[n]? = some task) (hserving : task.serving) :
    tasks[n]? = some task ∧ held ≠ some n := by
  cases held with
  | none => exact ⟨hn, nofun⟩
  | some m =>
    rw [abort, List.getElem?_modify] at hn
    obtain ⟨old, hold, htask⟩ := Option.map_eq_some_iff.mp hn
    split at htask
    · rw [← htask] at hserving
      have haborted : true = false := hserving.1
      cases haborted
    · next hne =>
      rw [htask] at hold
      exact ⟨hold, fun h => hne (Option.some.inj h)⟩

theorem abortSession_serving {s : System} {n : Nat} {task : Task}
    (hn : s.abortSession[n]? = some task) (hserving : task.serving) :
    s.tasks[n]? = some task ∧ ¬ s.controller.Holds n := by
  obtain ⟨hn, hsocks⟩ := abort_serving hn hserving
  obtain ⟨hn, hprobe⟩ := abort_serving hn hserving
  obtain ⟨hn, hwatch⟩ := abort_serving hn hserving
  obtain ⟨hn, hclose⟩ := abort_serving hn hserving
  refine ⟨hn, ?_⟩
  rintro (h | h | h | h) <;> contradiction

theorem step_task_steady {s : System} {n : Nat} {task after : Task} {messages : List Message}
    {spawned : List Task} (hn : s.tasks[n]? = some task)
    (hstepped : task.Stepped after messages spawned) :
    Steady s { s with
      tasks := s.tasks.set n after ++ spawned
      channel := s.channel ++ messages } where
  controller := ⟨_, rfl⟩
  connecting := rfl
  pending := by
    have hnone : messages.filterMap Message.reconnectGeneration = [] :=
      List.filterMap_eq_nil_iff.mpr fun message hmem =>
        Message.reconnectGeneration_of_watch (hstepped.messages message hmem).2
    unfold pending
    rw [List.filterMap_append, hnone, List.append_nil]
  timers := List.Sublist.refl _
  tasks := by
    intro m other hm hserving
    dsimp only at hm
    rw [List.getElem?_append] at hm
    split at hm
    · by_cases hmn : m = n
      · subst hmn
        have hlt : m < s.tasks.length := (List.getElem?_eq_some_iff.mp hn).1
        rw [List.getElem?_set_self hlt] at hm
        cases hm
        obtain ⟨hold, hclient⟩ := hstepped.serving hserving
        exact ⟨task, hn, hold, hclient⟩
      · rw [List.getElem?_set_ne (Ne.symm hmn)] at hm
        exact ⟨other, hm, hserving, rfl⟩
    · exact absurd (hstepped.connections other (List.mem_of_getElem? hm)) hserving.2

theorem timer_steady {s : System} {i : Nat} {generation : UInt64} {attempt : UInt32}
    (hi : s.timers[i]? = some (generation, attempt)) :
    Steady s { s with
      timers := s.timers.eraseIdx i
      channel := s.channel ++ [⟨.reconnect generation attempt, none⟩] } where
  controller := ⟨_, rfl⟩
  connecting := rfl
  pending := by
    obtain ⟨hlt, htimer⟩ := List.getElem?_eq_some_iff.mp hi
    have htimers : ((generation, attempt) :: s.timers.eraseIdx i).Perm s.timers := by
      rw [← htimer]
      exact ((List.erase_getElem hlt).symm.cons _).trans
        (List.perm_cons_erase (List.getElem_mem hlt)).symm
    unfold pending
    rw [List.filterMap_append]
    calc (s.timers.eraseIdx i).map Prod.fst ++
          (s.channel.filterMap Message.reconnectGeneration ++ [generation])
        = (s.timers.eraseIdx i).map Prod.fst ++
          s.channel.filterMap Message.reconnectGeneration ++ [generation] :=
            (List.append_assoc _ _ _).symm
      _ ~ generation :: ((s.timers.eraseIdx i).map Prod.fst ++
          s.channel.filterMap Message.reconnectGeneration) := List.perm_append_singleton _ _
      _ ~ s.timers.map Prod.fst ++ s.channel.filterMap Message.reconnectGeneration :=
          (htimers.map Prod.fst).append_right _
  timers := List.eraseIdx_sublist _ _
  tasks := tasksKept_of_eq rfl

theorem pending_receive {s : System} {message : Message} {rest : List Message}
    (hchannel : s.channel = message :: rest) (h : message.reconnectGeneration = none) :
    s.pending = pending { s with channel := rest } := by
  unfold pending
  rw [hchannel, List.filterMap_cons_none h]

theorem pending_receive_reconnect {s : System} {message : Message} {rest : List Message}
    {generation : UInt64} (hchannel : s.channel = message :: rest)
    (h : message.reconnectGeneration = some generation) :
    s.pending.Perm (generation :: pending { s with channel := rest }) := by
  unfold pending
  rw [hchannel, List.filterMap_cons_some h]
  exact List.perm_middle

theorem pending_schedule (s : System) (generation : UInt64) (attempt : UInt32) :
    (s.scheduleReconnect generation attempt).pending.Perm (generation :: s.pending) := by
  unfold scheduleReconnect pending
  rw [List.map_append, List.append_assoc]
  exact List.perm_middle

theorem handle_effect {s : System} {bridge : Bridge} {message : Message} {rest : List Message}
    (hconnecting : s.connecting = none) (hchannel : s.channel = message :: rest) :
    Effect s (.receive bridge) ({ s with channel := rest }.handle bridge message.command) := by
  obtain ⟨command, sender⟩ := message
  have hprocessed : s.processed (.receive bridge) = some command := by
    simp only [processed, hconnecting, hchannel]
  -- Every command but a reconnect leaves what is pending as it is.
  have hpending (hnone : Message.reconnectGeneration ⟨command, sender⟩ = none) :
      pending { s with channel := rest } = s.pending := (pending_receive hchannel hnone).symm
  have hsteady (hnone : Message.reconnectGeneration ⟨command, sender⟩ = none) (status : UiStatus) :
      Steady s (setStatus { s with channel := rest } status) :=
    ⟨⟨status, rfl⟩, rfl, .of_eq (hpending hnone), List.Sublist.refl _, tasksKept_of_eq rfl⟩
  have hidle (purpose : Purpose) (form : FormState) : s.connecting ≠ some (purpose, form) := by
    rw [hconnecting]
    nofun
  cases command with
  | connect form =>
    exact .restarted hprocessed ⟨rfl, ⟨_, rfl⟩, nofun, nofun, nofun, hpending rfl, rfl, rfl⟩
  | startManagedVpn form =>
    apply Effect.restarted hprocessed
    dsimp only [handle]
    split
    all_goals exact ⟨rfl, ⟨_, rfl⟩, fun _ => hidle _, fun _ h => absurd h (hidle _ _), nofun,
      hpending rfl, rfl, rfl⟩
  | managedConnect form =>
    exact .restarted hprocessed ⟨rfl, ⟨_, rfl⟩, nofun, fun _ _ => rfl, nofun, hpending rfl, rfl, rfl⟩
  | disconnect | serviceStopped =>
    exact .restarted hprocessed ⟨rfl, ⟨_, rfl⟩, fun _ => hidle _, fun _ h => absurd h (hidle _ _),
      fun _ => ⟨hconnecting, rfl⟩, hpending rfl, rfl, rfl⟩
  | speedtest direction => exact .steady (hsteady rfl s.controller.connectedStatus)
  | requestVpnPermission =>
    apply Effect.steady
    dsimp only [handle]
    split
    · exact hsteady rfl _
    · exact hsteady rfl s.controller.connectedStatus
  | stopVpnShell =>
    exact .shellStopped ⟨⟨_, rfl⟩, hconnecting, hconnecting, hpending rfl, rfl, rfl⟩
  | connectionClosed generation reason =>
    dsimp only [handle]
    split
    · exact .steady (hsteady rfl s.controller.connectedStatus)
    · next hcurrent =>
      obtain ⟨hgeneration, hclient⟩ := not_or.mp hcurrent
      have hgeneration : generation = s.controller.currentGeneration := not_not.mp hgeneration
      rw [hgeneration]
      have hscheduled := pending_schedule { s with channel := rest } s.controller.currentGeneration 0
      rw [hpending rfl] at hscheduled
      exact .lost ⟨hclient, ⟨_, rfl⟩, hconnecting, hscheduled, rfl⟩
  | reconnect generation attempt =>
    have htaken := @pending_receive_reconnect s _ rest generation hchannel rfl
    dsimp only [handle]
    split
    · next hother =>
      exact .dropped ⟨fun h => absurd h hother, rfl, rfl, htaken, rfl, rfl⟩
    · next hcurrent =>
      have hcurrent : generation = s.controller.currentGeneration := not_not.mp hcurrent
      split
      · next form hform =>
        have hsome : s.controller.reconnectForm ≠ none := by
          rw [show s.controller.reconnectForm = some form from hform]
          nofun
        rw [hcurrent] at htaken
        exact .retried ⟨hsome, rfl, ⟨attempt, form, rfl⟩, htaken, rfl⟩
      · next hform => exact .dropped ⟨fun _ => hform, rfl, rfl, htaken, rfl, rfl⟩
  | transportPulse generation metrics =>
    apply Effect.steady
    dsimp only [handle]
    split
    · exact hsteady rfl s.controller.connectedStatus
    · exact hsteady rfl _

theorem activateConnection_tasks {s : System} (form : FormState) (connected : Connected)
    (vpn : VpnState) {n : Nat} {task : Task}
    (h : (s.activateConnection form connected vpn).tasks[n]? = some task) :
    s.tasks[n]? = some task ∨
      (s.activateConnection form connected vpn).controller.Holds n ∧ task.client = s.clients := by
  have htasks : (s.activateConnection form connected vpn).tasks = s.tasks ++
      [spawn .localSocks s.clients s.controller.currentGeneration,
        spawn .closeWatch s.clients s.controller.currentGeneration,
        spawn (.transportWatch none) s.clients s.controller.currentGeneration,
        spawn (.healthProbe 0) s.clients s.controller.currentGeneration] :=
    List.append_assoc _ _ _
  rw [htasks, List.getElem?_append] at h
  split at h
  · exact .inl h
  · next hnew =>
    right
    obtain ⟨k, rfl⟩ : ∃ k, n = s.tasks.length + k := ⟨n - s.tasks.length, by omega⟩
    rw [Nat.add_sub_cancel_left] at h
    match k, h with
    | 0, rfl => exact ⟨.inl rfl, rfl⟩
    | 1, rfl => exact ⟨.inr (.inl rfl), rfl⟩
    | 2, rfl => exact ⟨.inr (.inr (.inl rfl)), rfl⟩
    | 3, rfl => exact ⟨.inr (.inr (.inr rfl)), rfl⟩

theorem connected_effect {s : System} {purpose : Purpose} {form : FormState} {connected : Connected}
    {bridge : Bridge} (hconnecting : s.connecting = some (purpose, form)) :
    Activated s ((activateConnection { s with connecting := none } form connected
      bridge.vpn).afterActivation bridge purpose) purpose := by
  obtain ⟨status, running, hafter, hrunning⟩ := afterActivation_eq
    (activateConnection { s with connecting := none } form connected bridge.vpn) bridge purpose
  rw [hafter]
  exact ⟨⟨form, hconnecting⟩, rfl, rfl, rfl, nofun, rfl, hrunning, rfl,
    fun n task hn => activateConnection_tasks form connected bridge.vpn hn⟩

theorem connectFailed_effect {s : System} {purpose : Purpose} {form : FormState} {err : String}
    {bridge : Bridge} {event : Event} (hconnecting : s.connecting = some (purpose, form)) :
    Effect s event (connectFailed { s with connecting := none } bridge err purpose) := by
  have hsome : s.connecting ≠ none := by
    rw [hconnecting]
    nofun
  cases purpose with
  | connect | managedConnect =>
    exact .gaveUp hsome ⟨rfl, by rw [hconnecting]; nofun, ⟨_, rfl⟩, rfl, rfl⟩
  | reconnect attempt =>
    exact .rescheduled ⟨⟨attempt, form, hconnecting⟩, rfl, ⟨_, rfl⟩, pending_schedule _ _ _, rfl⟩

theorem step_effect {s after : System} {event : Event} (h : s.step event = some after) :
    Effect s event after := by
  cases step_stepped h with
  | @user command huser =>
    refine .steady ⟨⟨_, rfl⟩, rfl, ?_, List.Sublist.refl _, tasksKept_of_eq rfl⟩
    have hnone : [Message.mk command none].filterMap Message.reconnectGeneration = [] := by
      cases command <;> first | rfl | cases huser
    unfold pending
    rw [List.filterMap_append, hnone, List.append_nil]
  | task hn hstepped => exact .steady (step_task_steady hn hstepped)
  | timer hi => exact .steady (timer_steady hi)
  | receive hconnecting hchannel => exact handle_effect hconnecting hchannel
  | connected hconnecting => exact .activated (connected_effect hconnecting)
  | failed hconnecting => exact connectFailed_effect hconnecting

end System
end Hysteria.Mobile
