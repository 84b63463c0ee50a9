import Hysteria.Mobile.Controller

/-! What one step can do, of a task and of the whole system. Every invariant of a run is
read off from here. -/
namespace Hysteria.Mobile

def AppCommand.watchGeneration : AppCommand → Option UInt64
  | .connectionClosed generation _ | .transportPulse generation _ => some generation
  | _ => none

/-- The task can still send: it is in a poll, or nobody has aborted it. -/
def Task.live (task : Task) : Bool :=
  task.status = .polling || task.status = .idle && !task.aborted

structure Task.Sends (task after : Task) (messages : List Message) (spawned : List Task) :
    Prop where
  live : task.live = true
  client : after.client = task.client
  generation : after.generation = task.generation
  messages : ∀ message ∈ messages, message.sender = some task.client ∧
    message.command.watchGeneration = some task.generation
  spawned : ∀ other ∈ spawned, other.client = task.client ∧ other.generation = task.generation

/-- A step neither revives the task nor turns it into one of another use, and spawns
nothing but the tasks of connections. -/
structure Task.Stepped (task after : Task) (sent : List Message) (others : List Task) : Prop
    extends Task.Sends task after sent others where
  aborted : after.aborted = task.aborted
  connection : after.kind = .socksConnection ↔ task.kind = .socksConnection
  connections : ∀ other ∈ others, other.kind = .socksConnection

theorem Task.Stepped.silent {task after : Task} (hlive : task.live = true)
    (hclient : after.client = task.client) (hgeneration : after.generation = task.generation)
    (haborted : after.aborted = task.aborted)
    (hkind : after.kind = .socksConnection ↔ task.kind = .socksConnection) :
    task.Stepped after [] [] :=
  ⟨⟨hlive, hclient, hgeneration, nofun, nofun⟩, haborted, hkind, nofun⟩

theorem Task.Stepped.closes {task : Task} (hlive : task.live = true) (reason : String) :
    task.Stepped task.finish [task.connectionClosed reason] [] := by
  refine ⟨⟨hlive, rfl, rfl, ?_, nofun⟩, rfl, .rfl, nofun⟩
  intro message hmem
  rw [List.mem_singleton.mp hmem]
  exact ⟨rfl, rfl⟩

/-- Whatever a task sends or spawns is about its own client and generation. -/
theorem Task.step_stepped {task after : Task} {event : TaskEvent} {messages : List Message}
    {spawned : List Task} (h : task.step event = some (after, messages, spawned)) :
    task.Stepped after messages spawned := by
  have hpolling (hstatus : task.status = .polling) : task.live = true := by
    simp [live, hstatus]
  unfold step at h
  split at h
  · next hidle =>
    split at h <;> cases h
    next haborted => exact .silent (by simp [live, hidle, haborted]) rfl rfl rfl .rfl
  · next hstatus =>
    cases h
    exact .silent (hpolling hstatus) rfl rfl rfl .rfl
  · next hstatus =>
    have hlive := hpolling hstatus
    split at h
    · cases h
      exact .closes hlive _
    · next hkind _ =>
      cases h
      refine ⟨⟨hlive, rfl, rfl, ?_, nofun⟩, rfl, by simp [hkind], nofun⟩
      intro message hmem
      rw [List.mem_singleton.mp hmem]
      exact ⟨rfl, rfl⟩
    · next hkind _ =>
      cases h
      exact .silent hlive rfl rfl rfl (by simp [hkind])
    · next hkind _ =>
      dsimp only at h
      split at h <;> cases h
      · exact .closes hlive _
      · exact .silent hlive rfl rfl rfl (by simp [hkind])
    · cases h
      exact ⟨⟨hlive, rfl, rfl, nofun, by simp [spawn]⟩, rfl, .rfl, by simp [spawn]⟩
    · cases h
      exact .silent hlive rfl rfl rfl .rfl
    · cases h
      exact .closes hlive _
    · cases h
      exact .silent hlive rfl rfl rfl .rfl
    · cases h
  · cases h

namespace System

inductive Stepped (s : System) : Event → System → Prop where
  | user {command : AppCommand} (huser : command.isUser = true) :
    Stepped s (.user command) { s with channel := s.channel ++ [⟨command, none⟩] }
  | task {n : Nat} {event : TaskEvent} {task after : Task} {messages : List Message}
      {spawned : List Task} (hn : s.tasks[n]? = some task)
      (hstepped : task.Stepped after messages spawned) :
    Stepped s (.task n event) { s with
      tasks := s.tasks.set n after ++ spawned
      channel := s.channel ++ messages }
  | timer {i : Nat} {generation : UInt64} {attempt : UInt32}
      (hi : s.timers[i]? = some (generation, attempt)) :
    Stepped s (.timer i) { s with
      timers := s.timers.eraseIdx i
      channel := s.channel ++ [⟨.reconnect generation attempt, none⟩] }
  | receive {bridge : Bridge} {message : Message} {rest : List Message}
      (hconnecting : s.connecting = none) (hchannel : s.channel = message :: rest) :
    Stepped s (.receive bridge) ({ s with channel := rest }.handle bridge message.command)
  | connected {purpose : Purpose} {form : FormState} {connected : Connected} {bridge : Bridge}
      (hconnecting : s.connecting = some (purpose, form)) :
    Stepped s (.connected (.ok connected) bridge)
      (({ s with connecting := none }.activateConnection form connected
        bridge.vpn).afterActivation bridge purpose)
  | failed {purpose : Purpose} {form : FormState} {err : String} {bridge : Bridge}
      (hconnecting : s.connecting = some (purpose, form)) :
    Stepped s (.connected (.error err) bridge)
      ({ s with connecting := none }.connectFailed bridge err purpose)

theorem step_stepped {s after : System} {event : Event} (h : s.step event = some after) :
    s.Stepped event after := by
  unfold step at h
  split at h
  · split at h <;> cases h
    next huser => exact .user huser
  · split at h
    · next hn =>
      split at h <;> cases h
      next hsent => exact .task hn (Task.step_stepped hsent)
    · cases h
  · split at h <;> cases h
    next hi => exact .timer hi
  · split at h <;> cases h
    next hconnecting hchannel => exact .receive hconnecting hchannel
  · split at h
    · next hconnecting =>
      dsimp only at h
      split at h <;> cases h
      · exact .connected hconnecting
      · exact .failed hconnecting
    · cases h

theorem afterActivation_eq (s : System) (bridge : Bridge) (purpose : Purpose) :
    ∃ status running, s.afterActivation bridge purpose = { s with
        controller.connectedStatus := status
        controller.tun2socksRunning := running } ∧
      (running = true → s.controller.tun2socksRunning = true ∨
        s.controller.desiredVpnActive = true ∨ purpose = .managedConnect) := by
  cases purpose with
  | connect => exact ⟨_, _, rfl, .inl⟩
  | managedConnect =>
    dsimp only [afterActivation]
    split
    · exact ⟨_, _, rfl, fun _ => .inr (.inr rfl)⟩
    · exact ⟨_, _, rfl, nofun⟩
  | reconnect attempt =>
    dsimp only [afterActivation]
    split
    · next hrestart =>
      have hdesired : s.controller.desiredVpnActive = true := (Bool.and_eq_true_iff.mp hrestart).1
      split
      · exact ⟨_, _, rfl, fun _ => .inr (.inl hdesired)⟩
      · exact ⟨_, _, rfl, .inl⟩
    · split
      · exact ⟨_, _, rfl, .inl⟩
      · exact ⟨_, _, rfl, .inl⟩

end System
end Hysteria.Mobile
