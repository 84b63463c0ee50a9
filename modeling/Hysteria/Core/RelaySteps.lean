import Hysteria.Core.Relay
import Hysteria.Lib.Pipe
import Hysteria.Lib.Transition

/-! The copies of a relay step by step: the two directions of `copy_bidirectional_with_limit` and
the parties at their ends take turns in any order. -/
namespace Hysteria.Core
open Lib

def relayBufferSize : Nat := 64 * 1024

inductive Copy where
  | reading
  | writing (next : UInt8) (more : List UInt8)
  | done
deriving DecidableEq, Repr

namespace Copy

def rest : Copy → List UInt8
  | .writing next more => next :: more
  | _ => []

def withRest : List UInt8 → Copy
  | [] => .reading
  | next :: more => .writing next more

@[simp] theorem rest_reading : rest .reading = [] := rfl

@[simp] theorem rest_done : rest .done = [] := rfl

@[simp] theorem rest_withRest (bytes : List UInt8) : (withRest bytes).rest = bytes := by
  cases bytes <;> rfl

theorem withRest_ne_done (bytes : List UInt8) : withRest bytes ≠ .done := by
  cases bytes <;> nofun

end Copy

/-- A copy between the pipe it reads and the one it writes. -/
structure Lane where
  source : Pipe UInt8
  copy : Copy
  sink : Pipe UInt8
deriving DecidableEq

/-- A write takes as much as the limiter grants and the writer has room for. -/
inductive CopyEvent where
  | read (n : Nat)
  | write (n : Nat)
  | shutdown
deriving DecidableEq, Repr

namespace Lane

def start : Lane := ⟨.empty, .reading, .empty⟩

def step (lane : Lane) : CopyEvent → Option Lane
  | .read n =>
    if lane.copy = .reading ∧ 0 < n ∧ n ≤ relayBufferSize ∧ n ≤ lane.source.pending.length then
      some { lane with source := lane.source.take n, copy := .withRest (lane.source.pending.take n) }
    else none
  | .write n =>
    if 0 < n ∧ n ≤ lane.copy.rest.length then
      some { lane with
        copy := .withRest (lane.copy.rest.drop n)
        sink := lane.sink.write (lane.copy.rest.take n) }
    else none
  | .shutdown =>
    if lane.copy = .reading ∧ lane.source.pending = [] ∧ lane.source.finished then
      some { lane with copy := .done, sink := lane.sink.finish }
    else none

inductive Step (lane : Lane) : Lane → Prop where
  | read {n : Nat} (reading : lane.copy = .reading) (pos : 0 < n) (le : n ≤ lane.source.pending.length) :
      Step lane { lane with source := lane.source.take n, copy := .withRest (lane.source.pending.take n) }
  | write {n : Nat} (pos : 0 < n) (le : n ≤ lane.copy.rest.length) :
      Step lane { lane with
        copy := .withRest (lane.copy.rest.drop n)
        sink := lane.sink.write (lane.copy.rest.take n) }
  | shutdown (reading : lane.copy = .reading) (ended : lane.source.pending = []) (finished : lane.source.finished) :
      Step lane { lane with copy := .done, sink := lane.sink.finish }

theorem step_cases {lane after : Lane} {event : CopyEvent} (h : lane.step event = some after) : Step lane after := by
  cases event with
  | read n =>
    obtain ⟨⟨hreading, hpos, -, hle⟩, ⟨⟩⟩ := Option.ite_none_right_eq_some.mp h
    exact .read hreading hpos hle
  | write n =>
    obtain ⟨⟨hpos, hle⟩, ⟨⟩⟩ := Option.ite_none_right_eq_some.mp h
    exact .write hpos hle
  | shutdown =>
    obtain ⟨⟨hreading, hended, hfinished⟩, ⟨⟩⟩ := Option.ite_none_right_eq_some.mp h
    exact .shutdown hreading hended hfinished

/-- What the copy has taken behind `skip` is in the sink behind `head`, but for the rest of its
buffer; and it returns behind everything that was sent to it. -/
structure Carries (skip head : List UInt8) (lane : Lane) : Prop where
  copied : ∃ copied, lane.source.taken = skip ++ copied ++ lane.copy.rest ∧ lane.sink.sent = head ++ copied
  done : lane.copy = .done → lane.source.pending = [] ∧ lane.source.finished ∧ lane.sink.finished

variable {skip head : List UInt8} {lane after : Lane}

theorem Carries.step (h : lane.Carries skip head) (hstep : Step lane after) : after.Carries skip head := by
  obtain ⟨copied, htaken, hsent⟩ := h.copied
  cases hstep with
  | read hreading hpos hle =>
    refine ⟨⟨copied, ?_, hsent⟩, fun hdone => absurd hdone (Copy.withRest_ne_done _)⟩
    rw [Pipe.taken_take, htaken, hreading, Copy.rest_withRest, Copy.rest_reading, List.append_nil]
  | @write n hpos hle =>
    refine ⟨⟨copied ++ lane.copy.rest.take n, ?_, ?_⟩, fun hdone => absurd hdone (Copy.withRest_ne_done _)⟩
    · rw [Copy.rest_withRest, htaken, List.append_assoc, List.append_assoc, List.append_assoc,
        List.take_append_drop]
    · rw [Pipe.sent_write, hsent, List.append_assoc]
  | shutdown hreading hended hfinished =>
    refine ⟨⟨copied, ?_, hsent⟩, fun _ => ⟨hended, hfinished, rfl⟩⟩
    rw [htaken, hreading]
    rfl

theorem Carries.isPrefix (h : lane.Carries skip head) {sent : List UInt8} (hsent : lane.source.sent = skip ++ sent) :
    ∃ copied, lane.sink.sent = head ++ copied ∧ copied <+: sent := by
  obtain ⟨copied, htaken, hsink⟩ := h.copied
  refine ⟨copied, hsink, lane.copy.rest ++ lane.source.pending, ?_⟩
  apply @List.append_cancel_left _ skip
  rw [← hsent, ← lane.source.taken_append_pending, htaken]
  simp only [List.append_assoc]

theorem Carries.sent_of_done (h : lane.Carries skip head) (hdone : lane.copy = .done) {sent : List UInt8}
    (hsent : lane.source.sent = skip ++ sent) : lane.sink.sent = head ++ sent ∧ lane.sink.finished := by
  obtain ⟨copied, htaken, hsink⟩ := h.copied
  obtain ⟨hended, -, hfinished⟩ := h.done hdone
  have hall : skip ++ copied = skip ++ sent := by
    rw [← hsent, ← lane.source.taken_append_pending, htaken, hended, hdone, Copy.rest_done, List.append_nil,
      List.append_nil]
  exact ⟨by rw [hsink, List.append_cancel_left hall], hfinished⟩

/-- A step of one of the parties at the ends leaves the copy where it is. -/
structure Keeps (lane after : Lane) : Prop where
  copy : after.copy = lane.copy
  taken : after.source.taken = lane.source.taken
  sent : after.sink.sent = lane.sink.sent
  finished : lane.source.finished → after.source.finished ∧ after.source.pending = lane.source.pending
  closed : lane.sink.finished → after.sink.finished

theorem Keeps.refl (lane : Lane) : lane.Keeps lane := ⟨rfl, rfl, rfl, fun h => ⟨h, rfl⟩, id⟩

theorem keeps_write (h : ¬ lane.source.finished) (bytes : List UInt8) :
    lane.Keeps { lane with source := lane.source.write bytes } :=
  ⟨rfl, lane.source.taken_write bytes, rfl, fun hfinished => absurd hfinished h, id⟩

theorem keeps_finish (lane : Lane) : lane.Keeps { lane with source := lane.source.finish } :=
  ⟨rfl, rfl, rfl, fun _ => ⟨rfl, rfl⟩, id⟩

theorem keeps_read (lane : Lane) (n : Nat) : lane.Keeps { lane with sink := lane.sink.take n } :=
  ⟨rfl, rfl, rfl, fun h => ⟨h, rfl⟩, id⟩

theorem keeps_close (lane : Lane) : lane.Keeps { lane with sink := lane.sink.finish } :=
  ⟨rfl, rfl, rfl, fun h => ⟨h, rfl⟩, fun _ => rfl⟩

theorem Carries.keeps (h : lane.Carries skip head) (hkeeps : lane.Keeps after) : after.Carries skip head := by
  obtain ⟨copied, htaken, hsent⟩ := h.copied
  refine ⟨⟨copied, ?_, hkeeps.sent.trans hsent⟩, ?_⟩
  · rw [hkeeps.taken, htaken, hkeeps.copy]
  · intro hdone
    obtain ⟨hended, hfinished, hclosed⟩ := h.done (hkeeps.copy.symm.trans hdone)
    obtain ⟨hfinished', hpending⟩ := hkeeps.finished hfinished
    exact ⟨hpending.trans hended, hfinished', hkeeps.closed hclosed⟩

/-- A bound on the steps of a copy while nothing more is sent to it. -/
def rank (lane : Lane) : Nat :=
  2 * lane.source.pending.length + lane.copy.rest.length + if lane.copy = .done then 0 else 1

theorem rank_lt (hstep : Step lane after) : after.rank < lane.rank := by
  unfold rank
  cases hstep with
  | read hreading hpos hle =>
    simp only [Pipe.pending_take, List.length_drop, Copy.rest_withRest, List.length_take, hreading, Copy.rest_reading,
      List.length_nil, Copy.withRest_ne_done, reduceCtorEq, if_false]
    omega
  | write hpos hle =>
    have hwriting : lane.copy ≠ .done := by
      intro hdone
      rw [hdone] at hle
      exact absurd hle (Nat.not_le_of_gt hpos)
    simp only [Copy.rest_withRest, List.length_drop, Copy.withRest_ne_done, hwriting, if_false]
    omega
  | shutdown hreading hended hfinished =>
    simp only [hreading, Copy.rest_reading, Copy.rest_done, if_true, reduceCtorEq, if_false]
    omega

theorem exists_step (hfinished : lane.source.finished) (hrunning : lane.copy ≠ .done) :
    ∃ event after, lane.step event = some after := by
  cases hcopy : lane.copy with
  | reading =>
    by_cases hended : lane.source.pending = []
    · exact ⟨.shutdown, _, if_pos ⟨hcopy, hended, hfinished⟩⟩
    · exact ⟨.read 1, _, if_pos ⟨hcopy, Nat.one_pos, by decide, List.length_pos_iff.mpr hended⟩⟩
  | writing next more =>
    refine ⟨.write 1, _, if_pos ⟨Nat.one_pos, ?_⟩⟩
    rw [hcopy]
    exact Nat.le_add_left 1 more.length
  | done => exact absurd hcopy hrunning

def op (lane : Lane) : CopyEvent → Option SinkOp
  | .read _ => none
  | .write n => some (.write (lane.copy.rest.take n))
  | .shutdown => some .shutdown

inductive Runs : Lane → List SinkOp → Lane → Prop where
  | nil (lane : Lane) : Runs lane [] lane
  | cons {lane next after : Lane} {ops : List SinkOp} (event : CopyEvent) (step : lane.step event = some next)
      (rest : Runs next ops after) : Runs lane ((lane.op event).toList ++ ops) after

theorem Runs.append {first second third : Lane} {ops ops' : List SinkOp} (h : Runs first ops second)
    (h' : Runs second ops' third) : Runs first (ops ++ ops') third := by
  induction h with
  | nil => exact h'
  | cons event hstep _ ih =>
    rw [List.append_assoc]
    exact .cons event hstep (ih h')

theorem Runs.single {event : CopyEvent} (h : lane.step event = some after) :
    Runs lane (lane.op event).toList after := by
  have := Runs.cons event h (.nil after)
  rwa [List.append_nil] at this

section
variable {limiter : Option Grants} {buffer : List UInt8} {read written : Nat} {progress result : Progress}

theorem runs_of_writeChunks (hread : read ≤ buffer.length)
    (hcopy : lane.copy = .withRest ((buffer.take read).drop written))
    (h : writeChunks limiter buffer read written progress = .ok result) :
    ∃ ops after, Runs lane ops after ∧ result.writer.ops = progress.writer.ops ++ ops ∧ after.copy = .reading ∧
      after.source = lane.source := by
  induction hleft : read - written using Nat.strongRecOn generalizing written progress lane with
  | ind left ih =>
    by_cases hlt : written < read
    · obtain ⟨hpos, hle⟩ := chunkSize_bounds limiter progress.calls (Nat.sub_pos_of_lt hlt)
      rw [writeChunks_round hlt hread] at h
      obtain ⟨writer, hcall, hmore⟩ := bind_eq_ok.mp h
      generalize hchunk : chunkSize limiter progress.calls (read - written) = chunk at *
      have hrest : lane.copy.rest = (buffer.take read).drop written := by rw [hcopy, Copy.rest_withRest]
      have hlength : chunk ≤ lane.copy.rest.length := by
        rw [hrest, List.length_drop, List.length_take]
        omega
      obtain ⟨next, hstep, hnext, hkept⟩ : ∃ next, lane.step (.write chunk) = some next ∧
          next.copy = .withRest ((buffer.take read).drop (written + chunk)) ∧ next.source = lane.source := by
        refine ⟨_, if_pos ⟨hpos, hlength⟩, ?_, rfl⟩
        rw [hrest, List.drop_drop]
      obtain ⟨ops, after, hruns, hops, hreading, hsource⟩ := ih _ (by omega) hnext hmore rfl
      refine ⟨_, after, .cons _ hstep hruns, ?_, hreading, hsource.trans hkept⟩
      have hbytes : lane.copy.rest.take chunk = (buffer.take (written + chunk)).drop written := by
        rw [hrest, List.take_drop, List.take_take, Nat.min_eq_left (by omega)]
      rw [hops, (Sink.call_eq_ok hcall).1, List.append_assoc, op, hbytes]
      rfl
    · rw [writeChunks, dif_neg hlt] at h
      cases h
      refine ⟨[], lane, .nil lane, (List.append_nil _).symm, ?_, rfl⟩
      rw [hcopy, List.drop_eq_nil_of_le (by rw [List.length_take]; omega)]
      rfl

theorem runs_of_copyWithLimit {reader : Inflow} {total total' : Nat} (hbuffer : buffer.length = relayBufferSize)
    (hreading : lane.copy = .reading) (hpending : lane.source.pending = reader.source.bytes)
    (hfinished : lane.source.finished)
    (h : copyWithLimit limiter buffer reader total progress = .ok (total', result)) :
    ∃ ops after, Runs lane ops after ∧ result.writer.ops = progress.writer.ops ++ ops ∧ after.copy = .done := by
  induction hleft : reader.source.bytes.length using Nat.strongRecOn generalizing buffer reader total progress lane with
  | ind left ih =>
    have hroom : 0 < buffer.length := by
      rw [hbuffer]
      decide
    rw [copyWithLimit] at h
    split at h
    · cases h
    · next bytes reader' hread =>
      have happend := Inflow.read_append hread
      split at h
      · next hend =>
        subst hend
        obtain ⟨writer, hcall, hreturn⟩ := bind_eq_ok.mp h
        cases hreturn
        have hended : lane.source.pending = [] := hpending.trans (Inflow.bytes_eq_nil hroom hread)
        have hstep : lane.step .shutdown = some _ := if_pos ⟨hreading, hended, hfinished⟩
        exact ⟨_, _, .single hstep, (Sink.call_eq_ok hcall).1, rfl⟩
      · next hne =>
        obtain ⟨progress', hwrite, hmore⟩ := bind_eq_ok.mp h
        have hfits := Inflow.length_read_le hread
        have hlength : (overlay bytes buffer).length = buffer.length := length_overlay hfits
        have htake : lane.source.pending.take bytes.length = bytes := by
          rw [hpending, ← happend, List.take_left]
        have hle : bytes.length ≤ lane.source.pending.length := by
          rw [hpending, ← happend, List.length_append]
          exact Nat.le_add_right _ _
        have hstep : lane.step (.read bytes.length) = some _ :=
          if_pos ⟨hreading, List.length_pos_iff.mpr hne, hbuffer ▸ hfits, hle⟩
        have hcopy : (Copy.withRest (lane.source.pending.take bytes.length)) =
            .withRest (((overlay bytes buffer).take bytes.length).drop 0) := by
          rw [htake, take_overlay buffer rfl, List.drop_zero]
        obtain ⟨ops, after, hruns, hops, hnext, hsource⟩ :=
          @runs_of_writeChunks ⟨lane.source.take bytes.length, _, lane.sink⟩ _ _ _ _ _ _
            (hlength.symm ▸ hfits) hcopy hwrite
        have hleftover : after.source.pending = reader'.source.bytes := by
          rw [hsource, Pipe.pending_take, hpending, ← happend, List.drop_left]
        obtain ⟨ops', after', hruns', hops', hdone⟩ :=
          ih _ (hleft ▸ Inflow.read_lt hread hne)
            (hlength.trans hbuffer) hnext hleftover (by rw [hsource]; exact hfinished) hmore rfl
        refine ⟨_, after', .cons _ hstep (hruns.append hruns'), ?_, hdone⟩
        rw [hops', hops, List.append_assoc]
        rfl

end

end Lane
end Hysteria.Core
