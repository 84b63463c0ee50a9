import Hysteria.Mobile.ControllerSteps

/-! Messages of tasks that watch an earlier client. The controller tells them from those
of the current client by their generation only, and a reconnect keeps the generation. -/
namespace Hysteria.Mobile
open Lib

namespace System

/-- Every message of the current generation, and every task that can still send one,
belongs to the client. -/
structure OwnedBy (s : System) (client : Nat) : Prop where
  message : ∀ message ∈ s.channel,
    message.command.watchGeneration = some s.controller.currentGeneration →
    message.sender = some client
  task : ∀ task ∈ s.tasks, task.live = true →
    task.generation = s.controller.currentGeneration → task.client = client

def Current (s : System) : Prop :=
  ∀ client, s.controller.currentClient = some client → s.OwnedBy client

theorem new_current (vpn : VpnState) : (new vpn).Current := nofun

structure SameSession (s after : System) : Prop where
  client : after.controller.currentClient = s.controller.currentClient
  generation : after.controller.currentGeneration = s.controller.currentGeneration
  channel : after.channel = s.channel
  tasks : after.tasks = s.tasks

theorem Current.of_sameSession {s after : System} (h : s.Current) (hsame : SameSession s after) :
    after.Current := by
  intro client hclient
  obtain ⟨hmessage, htask⟩ := h client (hsame.client.symm.trans hclient)
  constructor
  · rw [hsame.channel, hsame.generation]
    exact hmessage
  · rw [hsame.tasks, hsame.generation]
    exact htask

theorem Current.send {s : System} (h : s.Current) {messages : List Message}
    (hmessages : ∀ message ∈ messages, message.command.watchGeneration = none) :
    Current { s with channel := s.channel ++ messages } := by
  intro client hclient
  obtain ⟨hmessage, htask⟩ := h client hclient
  refine ⟨?_, htask⟩
  intro message hmem hgeneration
  rcases List.mem_append.mp hmem with hold | hnew
  · exact hmessage message hold hgeneration
  · rw [hmessages message hnew] at hgeneration
    cases hgeneration

theorem Current.stepTask {s : System} (h : s.Current) {n : Nat} {task after : Task}
    {messages : List Message} {spawned : List Task} (hn : s.tasks[n]? = some task)
    (hsends : task.Sends after messages spawned) :
    Current { s with
      tasks := s.tasks.set n after ++ spawned
      channel := s.channel ++ messages } := by
  intro client hclient
  obtain ⟨hmessage, htask⟩ := h client hclient
  have hown : task.generation = s.controller.currentGeneration → task.client = client :=
    htask task (List.mem_of_getElem? hn) hsends.live
  constructor
  · intro message hmem hgeneration
    rcases List.mem_append.mp hmem with hold | hnew
    · exact hmessage message hold hgeneration
    · obtain ⟨hsender, hsent⟩ := hsends.messages message hnew
      rw [hsender, hown (Option.some.inj (hsent.symm.trans hgeneration))]
  · intro other hmem hlive hgeneration
    rcases List.mem_append.mp hmem with hset | hnew
    · rcases List.mem_or_eq_of_mem_set hset with hold | rfl
      · exact htask other hold hlive hgeneration
      · rw [hsends.client]
        exact hown (hsends.generation.symm.trans hgeneration)
    · obtain ⟨hclient', hgeneration'⟩ := hsends.spawned other hnew
      rw [hclient']
      exact hown (hgeneration'.symm.trans hgeneration)

/-- No message of the current generation waits in the channel and no task can still
send one. -/
def Quiet (s : System) : Prop :=
  (∀ message ∈ s.channel,
    message.command.watchGeneration ≠ some s.controller.currentGeneration) ∧
    ∀ task ∈ s.tasks, task.live = true → task.generation ≠ s.controller.currentGeneration

theorem activateConnection_current {s : System} (hquiet : s.Quiet) (form : FormState)
    (connected : Connected) (vpn : VpnState) : (s.activateConnection form connected vpn).Current := by
  intro client hclient
  obtain rfl : s.clients = client := Option.some.inj hclient
  constructor
  · intro message hmem hgeneration
    exact absurd hgeneration (hquiet.1 message hmem)
  · intro task hmem hlive hgeneration
    rcases List.mem_append.mp hmem with hmem | hprobe
    · rcases List.mem_append.mp hmem with hold | hnew
      · exact absurd hgeneration (hquiet.2 task hold hlive)
      · simp only [List.mem_cons, List.not_mem_nil, or_false] at hnew
        rcases hnew with rfl | rfl | rfl <;> rfl
    · split at hprobe
      · rw [List.mem_singleton.mp hprobe]
        rfl
      · cases hprobe

theorem handle_session (s : System) (bridge : Bridge) (command : AppCommand) :
    (s.handle bridge command).controller.currentClient = none ∨
      SameSession s (s.handle bridge command) := by
  have hsame : SameSession s s := ⟨rfl, rfl, rfl, rfl⟩
  cases command with
  | connect | managedConnect | disconnect | serviceStopped => exact .inl rfl
  | startManagedVpn form =>
    refine .inl ?_
    dsimp only [handle]
    split <;> rfl
  | speedtest => exact .inr hsame
  | requestVpnPermission =>
    refine .inr ?_
    dsimp only [handle]
    split
    · exact ⟨rfl, rfl, rfl, rfl⟩
    · exact hsame
  | stopVpnShell => exact .inr ⟨rfl, rfl, rfl, rfl⟩
  | connectionClosed generation reason =>
    dsimp only [handle]
    split
    · exact .inr hsame
    · exact .inl rfl
  | reconnect generation attempt =>
    refine .inr ?_
    dsimp only [handle]
    split
    · exact hsame
    · split <;> exact ⟨rfl, rfl, rfl, rfl⟩
  | transportPulse generation metrics =>
    refine .inr ?_
    dsimp only [handle]
    split <;> exact ⟨rfl, rfl, rfl, rfl⟩

theorem afterActivation_session (s : System) (bridge : Bridge) (purpose : Purpose) :
    SameSession s (s.afterActivation bridge purpose) := by
  obtain ⟨status, running, hafter, _⟩ := afterActivation_eq s bridge purpose
  rw [hafter]
  exact ⟨rfl, rfl, rfl, rfl⟩

theorem connectFailed_session (s : System) (bridge : Bridge) (err : String) (purpose : Purpose) :
    SameSession s (s.connectFailed bridge err purpose) := by
  cases purpose <;> exact ⟨rfl, rfl, rfl, rfl⟩

/-- A client that becomes active finds its generation quiet. -/
def ActivatesQuietly (s : System) : Event → Prop
  | .connected (.ok _) _ => s.Quiet
  | _ => True

theorem step_current {s after : System} (h : s.Current) {event : Event}
    (hstep : s.step event = some after) (hquiet : s.ActivatesQuietly event) : after.Current := by
  cases step_stepped hstep with
  | @user command huser =>
    refine h.send fun message hmem => ?_
    rw [List.mem_singleton.mp hmem]
    cases command <;> first | rfl | cases huser
  | task hn hstepped => exact h.stepTask hn hstepped.toSends
  | @timer i =>
    have hfired : Current { s with timers := s.timers.eraseIdx i } :=
      h.of_sameSession ⟨rfl, rfl, rfl, rfl⟩
    refine hfired.send fun message hmem => ?_
    rw [List.mem_singleton.mp hmem]
    rfl
  | @receive bridge message rest _ hchannel =>
    have hrest : Current { s with channel := rest } := by
      intro client hclient
      obtain ⟨hmessage, htask⟩ := h client hclient
      refine ⟨fun message hmem => hmessage message ?_, htask⟩
      rw [hchannel]
      exact List.mem_cons_of_mem _ hmem
    rcases handle_session { s with channel := rest } bridge message.command with hnone | hsame
    · intro client hclient
      rw [hnone] at hclient
      cases hclient
    · exact hrest.of_sameSession hsame
  | @connected _ _ connected =>
    have hready : Quiet { s with connecting := none } := hquiet
    exact (activateConnection_current hready _ connected _).of_sameSession
      (afterActivation_session _ _ _)
  | failed =>
    have hready : Current { s with connecting := none } := h.of_sameSession ⟨rfl, rfl, rfl, rfl⟩
    exact hready.of_sameSession (connectFailed_session _ _ _ _)

/-- A message of a task that watches an earlier client is read and dropped. -/
def IgnoresStale (s : System) (event : Event) (after : System) : Prop :=
  ∀ bridge message rest watched current, event = .receive bridge → s.channel = message :: rest →
    message.command.watchGeneration.isSome → message.sender = some watched →
    s.controller.currentClient = some current → watched ≠ current →
    after = { s with channel := rest }

theorem handle_of_generation_ne {s : System} {bridge : Bridge} {command : AppCommand}
    {generation : UInt64} (hwatch : command.watchGeneration = some generation)
    (hne : generation ≠ s.controller.currentGeneration) : s.handle bridge command = s := by
  cases command <;> cases hwatch
  · exact if_pos (.inl hne)
  · exact if_pos (.inl hne)

/-- Along every run in which clients become active quietly, a message of a task that
watches another client than the current one changes nothing. -/
theorem stale_messages_ignored (vpn : VpnState) (events : List Event)
    (hquiet : Along step (fun s event _ => s.ActivatesQuietly event) (new vpn) events) :
    Along step IgnoresStale (new vpn) events := by
  refine along_of_inv (I := Current) ?_ (new_current vpn) hquiet
  intro s event after h hstep hquiet
  refine ⟨step_current h hstep hquiet, ?_⟩
  rintro bridge message rest watched current rfl hchannel hwatch hsender hcurrent hne
  obtain ⟨generation, hgeneration⟩ := Option.isSome_iff_exists.mp hwatch
  have hother : generation ≠ s.controller.currentGeneration := by
    rintro rfl
    have hmem : message ∈ s.channel := hchannel ▸ List.mem_cons_self
    have hown := (h current hcurrent).message message hmem hgeneration
    exact hne (Option.some.inj (hsender.symm.trans hown))
  simp only [step, hchannel] at hstep
  split at hstep <;> cases hstep
  next hreceived =>
  cases hreceived
  exact handle_of_generation_ne hgeneration hother

def form : FormState := ⟨"example.com:443", true⟩

def vpnOff : VpnState := ⟨false, false, false⟩

def bridge : Bridge := ⟨vpnOff, .ok (), .ok (), .ok ()⟩

def attempt : Connected := ⟨"192.0.2.1:443", true, true, 0, ⟨0, 0, 0⟩⟩

def reconnected : List Event :=
  [.user (.connect form), .receive bridge, .connected (.ok attempt) bridge, .task 1 .poll,
    .task 1 (.closed "timed out"), .receive bridge, .timer 0, .receive bridge,
    .connected (.ok attempt) bridge]

theorem stale_messages_ignored_reconnected :
    (run step (new vpnOff) reconnected).isSome ∧
      Along step IgnoresStale (new vpnOff) reconnected := by
  refine ⟨rfl, stale_messages_ignored vpnOff reconnected ?_⟩
  iterate 2
    rintro _ ⟨⟩
    refine ⟨trivial, ?_⟩
  rintro _ ⟨⟩
  refine ⟨⟨nofun, nofun⟩, ?_⟩
  iterate 5
    rintro _ ⟨⟩
    refine ⟨trivial, ?_⟩
  rintro _ ⟨⟩
  -- All tasks of the first client are finished or aborted.
  exact ⟨⟨nofun, by decide⟩, trivial⟩

/-- A SOCKS connection that was accepted for the first client fails after the
reconnect: its message has the generation of the second client, which is torn down. -/
theorem stale_message_closes_reconnected :
    ∃ s after, run step (new vpnOff)
        [.user (.connect form), .receive bridge, .connected (.ok attempt) bridge, .task 0 .poll,
          .task 0 .accept, .task 0 .yield, .task 1 .poll, .task 1 (.closed "timed out"),
          .receive bridge, .timer 0, .receive bridge, .connected (.ok attempt) bridge,
          .task 4 .poll, .task 4 (.handled (some "connection closed: timed out"))] = some s ∧
      s.channel = [⟨.connectionClosed 1 "connection closed: timed out", some 0⟩] ∧
      s.controller.currentClient = some 1 ∧ s.timers = [] ∧
      step s (.receive bridge) = some after ∧ after.controller.currentClient = none ∧
      after.timers = [(1, 0)] :=
  ⟨_, _, rfl, rfl, rfl, rfl, rfl, rfl, rfl⟩

end System
end Hysteria.Mobile
