import Hysteria.Core.Limiter
import Hysteria.Lib.Inbound

/-! One direction of a relayed connection, `copy_with_limit`. Each buffer that was read is written
in chunks of the sizes that the limiter grants. -/
namespace Hysteria.Core
open Lib

namespace BandwidthLimiter

/-- The limiter as each turn of the loop finds it, with the time since the last call of any task;
the loop ends at the first turn that is ready. -/
def waitForChunk (requested : Nat) (turns : List (BandwidthLimiter × Nat)) : Option Nat :=
  if requested = 0 then some 0
  else turns.findSome? fun (limiter, elapsed) =>
    match (limiter.takeStreamBudget elapsed requested).2 with
    | .ready granted => some granted
    | .wait _ => none

theorem takeStreamBudget_ready {limiter : BandwidthLimiter} {elapsed requested granted : Nat}
    (hrequested : 0 < requested) (h : (limiter.takeStreamBudget elapsed requested).2 = .ready granted) :
    0 < granted ∧ granted ≤ requested := by
  unfold takeStreamBudget at h
  rw [if_neg (Nat.ne_of_gt hrequested)] at h
  dsimp only at h
  split at h
  · cases h
    have hchunk : 0 < maxWriteChunk := by decide
    have havailable : 0 < (max (limiter.refill elapsed).tokens.floor 1).toNat :=
      Int.pos_iff_toNat_pos.mp (Int.lt_of_lt_of_le Int.zero_lt_one (le_max_right _ _))
    omega
  · cases h

theorem waitForChunk_bounds {requested granted : Nat} {turns : List (BandwidthLimiter × Nat)}
    (hrequested : 0 < requested) (h : waitForChunk requested turns = some granted) :
    0 < granted ∧ granted ≤ requested := by
  unfold waitForChunk at h
  rw [if_neg (Nat.ne_of_gt hrequested)] at h
  obtain ⟨⟨limiter, elapsed⟩, -, hturn⟩ := List.exists_of_findSome?_eq_some h
  dsimp only at hturn
  split at hturn
  · next hready =>
    cases hturn
    exact takeStreamBudget_ready hrequested hready
  · cases hturn

end BandwidthLimiter

/-- What the calls of `wait_for_chunk` return, in which the other tasks of the connection have a
part. -/
structure Grants where
  answer : Nat → Nat → Nat
  pos : ∀ call requested, 0 < requested → 0 < answer call requested
  le : ∀ call requested, 0 < requested → answer call requested ≤ requested

def Grants.ofTurns (turns : Nat → Nat → List (BandwidthLimiter × Nat))
    (returns : ∀ call requested, (BandwidthLimiter.waitForChunk requested (turns call requested)).isSome) : Grants where
  answer call requested := (BandwidthLimiter.waitForChunk requested (turns call requested)).get (returns call requested)
  pos _ _ h := (BandwidthLimiter.waitForChunk_bounds h (Option.some_get _).symm).1
  le _ _ h := (BandwidthLimiter.waitForChunk_bounds h (Option.some_get _).symm).2

structure Inflow where
  source : Source
  broken : Option String

def Inflow.read (reader : Inflow) (cap : Nat) : Exec String (List UInt8 × Inflow) :=
  let (bytes, source) := reader.source.read cap
  match bytes, reader.broken with
  | [], some err => .error (.error err)
  | bytes, _ => .ok (bytes, { reader with source })

inductive SinkOp where
  | write (bytes : List UInt8)
  | shutdown
deriving DecidableEq, Repr

/-- What was done with a writer, in order, and the errors that its next calls return. -/
structure Sink where
  ops : List SinkOp
  faults : List (Option String)
deriving DecidableEq, Repr

def Sink.call (writer : Sink) (op : SinkOp) : Exec String Sink :=
  match writer.faults with
  | some err :: _ => .error (.error err)
  | faults => .ok ⟨writer.ops ++ [op], faults.tail⟩

def u64Max : Nat := 2 ^ 64 - 1

structure Progress where
  calls : Nat
  writer : Sink
deriving DecidableEq, Repr

def chunkSize (limiter : Option Grants) (calls requested : Nat) : Nat :=
  match limiter with
  | some limiter => limiter.answer calls requested
  | none => requested

theorem chunkSize_bounds (limiter : Option Grants) (calls : Nat) {requested : Nat} (h : 0 < requested) :
    0 < chunkSize limiter calls requested ∧ chunkSize limiter calls requested ≤ requested := by
  cases limiter with
  | none => exact ⟨h, Nat.le_refl _⟩
  | some limiter => exact ⟨limiter.pos calls requested h, limiter.le calls requested h⟩

/-- The inner loop. -/
def writeChunks (limiter : Option Grants) (buffer : List UInt8) (read written : Nat) (progress : Progress) :
    Exec String Progress :=
  if _h : written < read then do
    let chunk := chunkSize limiter progress.calls (read - written)
    let calls := if limiter.isSome then progress.calls + 1 else progress.calls
    let bytes ← slice buffer written (written + chunk)
    let writer ← progress.writer.call (.write bytes)
    writeChunks limiter buffer read (written + chunk) ⟨calls, writer⟩
  else .ok progress
termination_by read - written
decreasing_by
  have hpos := (chunkSize_bounds limiter progress.calls (Nat.sub_pos_of_lt _h)).1
  omega

namespace Inflow
variable {reader reader' : Inflow} {cap : Nat} {bytes : List UInt8}

theorem read_eq_ok (h : reader.read cap = .ok (bytes, reader')) :
    bytes = (reader.source.read cap).1 ∧ reader'.source = (reader.source.read cap).2 ∧
      reader'.broken = reader.broken := by
  unfold read at h
  dsimp only at h
  split at h
  · cases h
  · cases h
    exact ⟨rfl, rfl, rfl⟩

theorem read_lt (h : reader.read cap = .ok (bytes, reader')) (hne : bytes ≠ []) :
    reader'.source.bytes.length < reader.source.bytes.length := by
  obtain ⟨rfl, hsource, -⟩ := read_eq_ok h
  rw [hsource]
  exact Source.length_read_lt hne

theorem read_append (h : reader.read cap = .ok (bytes, reader')) :
    bytes ++ reader'.source.bytes = reader.source.bytes := by
  obtain ⟨rfl, hsource, -⟩ := read_eq_ok h
  rw [hsource]
  exact reader.source.read_append cap

theorem length_read_le (h : reader.read cap = .ok (bytes, reader')) : bytes.length ≤ cap := by
  obtain ⟨rfl, -⟩ := read_eq_ok h
  exact reader.source.length_read_le cap

theorem bytes_eq_nil (hcap : 0 < cap) (h : reader.read cap = .ok ([], reader')) : reader.source.bytes = [] := by
  by_contra hne
  exact Source.read_ne_nil hcap hne (read_eq_ok h).1.symm

theorem read_of_sound (hbroken : reader.broken = none) (cap : Nat) :
    ∃ bytes reader', reader.read cap = .ok (bytes, reader') := by
  unfold read
  rw [hbroken]
  dsimp only
  split
  · next h => cases h
  · exact ⟨_, _, rfl⟩

end Inflow

/-- From a round of the outer loop on, with the total so far. -/
def copyWithLimit (limiter : Option Grants) (buffer : List UInt8) (reader : Inflow) (total : Nat)
    (progress : Progress) : Exec String (Nat × Progress) :=
  match _hread : reader.read buffer.length with
  | .error fault => .error fault
  | .ok (bytes, reader') =>
    if _hend : bytes = [] then do
      let writer ← progress.writer.call .shutdown
      return (total, { progress with writer })
    else do
      let buffer := overlay bytes buffer
      let progress ← writeChunks limiter buffer bytes.length 0 progress
      copyWithLimit limiter buffer reader' (min (total + bytes.length) u64Max) progress
termination_by reader.source.bytes.length
decreasing_by exact Inflow.read_lt _hread _hend

theorem Sink.call_eq_ok {writer writer' : Sink} {op : SinkOp} (h : writer.call op = .ok writer') :
    writer'.ops = writer.ops ++ [op] ∧ writer'.faults = writer.faults.tail := by
  unfold call at h
  split at h
  · cases h
  · cases h
    exact ⟨rfl, rfl⟩

theorem Sink.call_of_sound {writer : Sink} (h : ∀ fault ∈ writer.faults, fault = none) (op : SinkOp) :
    writer.call op = .ok ⟨writer.ops ++ [op], writer.faults.tail⟩ := by
  unfold call
  split
  · next err faults hfaults => cases h (some err) (by rw [hfaults]; exact List.mem_cons_self)
  · rfl

section
variable {limiter : Option Grants} {buffer : List UInt8} {read written : Nat} {progress after : Progress}

theorem writeChunks_round (hlt : written < read) (hread : read ≤ buffer.length) :
    let chunk := chunkSize limiter progress.calls (read - written)
    writeChunks limiter buffer read written progress = (do
      let writer ← progress.writer.call (.write ((buffer.take (written + chunk)).drop written))
      writeChunks limiter buffer read (written + chunk)
        ⟨if limiter.isSome then progress.calls + 1 else progress.calls, writer⟩) := by
  intro chunk
  have hle := (chunkSize_bounds limiter progress.calls (Nat.sub_pos_of_lt hlt)).2
  have hslice : (slice buffer written (written + chunk) : Exec String _) =
      .ok ((buffer.take (written + chunk)).drop written) := slice_ok (Nat.le_add_right _ _) (by omega)
  rw [writeChunks, dif_pos hlt]
  exact congrArg (· >>= _) hslice

theorem take_drop_chunk {chunk : Nat} (h : written + chunk ≤ read) :
    (buffer.take (written + chunk)).drop written ++ (buffer.take read).drop (written + chunk) =
      (buffer.take read).drop written := by
  have hshort : buffer.take (written + chunk) = (buffer.take read).take (written + chunk) := by
    rw [List.take_take, Nat.min_eq_left h]
  rw [hshort, List.drop_take, Nat.add_sub_cancel_left, ← List.drop_drop]
  exact List.take_append_drop chunk _

/-- Whatever the limiter grants, the inner loop writes the rest of what was read, with at most one
grant a byte. -/
theorem writeChunks_eq_ok (hread : read ≤ buffer.length)
    (h : writeChunks limiter buffer read written progress = .ok after) :
    ∃ chunks : List (List UInt8), after.writer.ops = progress.writer.ops ++ chunks.map .write ∧
      chunks.flatten = (buffer.take read).drop written ∧ after.calls ≤ progress.calls + (read - written) := by
  induction hleft : read - written using Nat.strongRecOn generalizing written progress with
  | ind left ih =>
    by_cases hlt : written < read
    · obtain ⟨hpos, hle⟩ := chunkSize_bounds limiter progress.calls (Nat.sub_pos_of_lt hlt)
      rw [writeChunks_round hlt hread] at h
      obtain ⟨writer, hcall, hmore⟩ := bind_eq_ok.mp h
      obtain ⟨chunks, hops, hflat, hcalls⟩ := ih _ (by omega) hmore rfl
      refine ⟨(buffer.take (written + chunkSize limiter progress.calls (read - written))).drop written :: chunks,
        ?_, ?_, ?_⟩
      · rw [hops, (Sink.call_eq_ok hcall).1, List.map_cons, List.append_assoc, List.singleton_append]
      · rw [List.flatten_cons, hflat]
        exact take_drop_chunk (by omega)
      · have hcount : (if limiter.isSome then progress.calls + 1 else progress.calls) ≤ progress.calls + 1 := by
          split <;> omega
        dsimp only at hcalls
        omega
    · rw [writeChunks, dif_neg hlt] at h
      cases h
      refine ⟨[], by simp, ?_, by omega⟩
      rw [List.flatten_nil, List.drop_eq_nil_of_le]
      rw [List.length_take]
      omega

theorem writeChunks_returns (hread : read ≤ buffer.length) (hsound : ∀ fault ∈ progress.writer.faults, fault = none) :
    ∃ after, writeChunks limiter buffer read written progress = .ok after ∧
      ∀ fault ∈ after.writer.faults, fault = none := by
  induction hleft : read - written using Nat.strongRecOn generalizing written progress with
  | ind left ih =>
    by_cases hlt : written < read
    · obtain ⟨hpos, -⟩ := chunkSize_bounds limiter progress.calls (Nat.sub_pos_of_lt hlt)
      rw [writeChunks_round hlt hread, Sink.call_of_sound hsound]
      exact ih _ (by omega) (fun fault hmem => hsound fault (List.mem_of_mem_tail hmem)) rfl
    · exact ⟨progress, by rw [writeChunks, dif_neg hlt], hsound⟩

end

section
variable {limiter : Option Grants} {buffer : List UInt8} {reader : Inflow} {total total' : Nat}
  {progress after : Progress}

/-- A copy that returns has written the stream, in order, and then shut the writer down. -/
theorem copyWithLimit_eq_ok (hbuffer : buffer ≠ []) (htotal : total ≤ u64Max)
    (h : copyWithLimit limiter buffer reader total progress = .ok (total', after)) :
    ∃ chunks : List (List UInt8), after.writer.ops = progress.writer.ops ++ chunks.map .write ++ [.shutdown] ∧
      chunks.flatten = reader.source.bytes ∧ total' = min (total + reader.source.bytes.length) u64Max ∧
      after.calls ≤ progress.calls + reader.source.bytes.length := by
  induction hleft : reader.source.bytes.length using Nat.strongRecOn generalizing buffer reader total progress with
  | ind left ih =>
    rw [copyWithLimit] at h
    split at h
    · cases h
    · next bytes reader' hread =>
      have happend := Inflow.read_append hread
      split at h
      · next hend =>
        subst hend
        obtain ⟨writer, hcall, hreturn⟩ := bind_eq_ok.mp h
        cases hreturn
        have hnil := Inflow.bytes_eq_nil (List.length_pos_iff.mpr hbuffer) hread
        refine ⟨[], ?_, hnil.symm, ?_, Nat.le_add_right _ _⟩
        · rw [(Sink.call_eq_ok hcall).1, List.map_nil, List.append_nil]
        · rw [← hleft, hnil, List.length_nil, Nat.add_zero, Nat.min_eq_left htotal]
      · next hne =>
        obtain ⟨progress', hwrite, hmore⟩ := bind_eq_ok.mp h
        have hfits := Inflow.length_read_le hread
        have hlength : (overlay bytes buffer).length = buffer.length := length_overlay hfits
        obtain ⟨chunks, hops, hflat, hcalls⟩ := writeChunks_eq_ok (hlength.symm ▸ hfits) hwrite
        rw [take_overlay buffer rfl, List.drop_zero] at hflat
        have hsplit := congrArg List.length happend
        rw [List.length_append] at hsplit
        have hnext : overlay bytes buffer ≠ [] := by
          rw [← List.length_pos_iff, hlength]
          exact List.length_pos_iff.mpr hbuffer
        obtain ⟨chunks', hops', hflat', htotal', hcalls'⟩ :=
          ih _ (hleft ▸ Inflow.read_lt hread hne) hnext (Nat.min_le_right _ _) hmore rfl
        refine ⟨chunks ++ chunks', ?_, ?_, ?_, by omega⟩
        · rw [hops', hops, List.map_append, List.append_assoc _ (chunks.map _)]
        · rw [List.flatten_append, hflat, hflat', happend]
        · rw [htotal']
          omega

theorem copyWithLimit_returns (hbroken : reader.broken = none)
    (hsound : ∀ fault ∈ progress.writer.faults, fault = none) :
    ∃ result, copyWithLimit limiter buffer reader total progress = .ok result := by
  induction hleft : reader.source.bytes.length using Nat.strongRecOn generalizing buffer reader total progress with
  | ind left ih =>
    rw [copyWithLimit]
    split
    · next fault hread =>
      obtain ⟨bytes, reader', hok⟩ := Inflow.read_of_sound hbroken buffer.length
      rw [hok] at hread
      cases hread
    · next bytes reader' hread =>
      have hfits := Inflow.length_read_le hread
      split
      · rw [Sink.call_of_sound hsound]
        exact ⟨_, rfl⟩
      · next hne =>
        obtain ⟨progress', hwrite, hsound'⟩ := @writeChunks_returns limiter (overlay bytes buffer) bytes.length 0
          progress (by rw [length_overlay hfits]; exact hfits) hsound
        dsimp only
        rw [hwrite]
        exact ih _ (hleft ▸ Inflow.read_lt hread hne) ((Inflow.read_eq_ok hread).2.2.trans hbroken) hsound' rfl

end

def Progress.start : Progress := ⟨0, ⟨[], []⟩⟩

/-- If nothing fails, a copy writes the bytes of the stream in order, however they were cut and
whatever the limiter grants, and shuts the writer down once, behind them. A round of the outer loop
takes at most one grant for each byte that it has read. -/
theorem copied (limiter : Option Grants) (buffer : List UInt8) (hbuffer : buffer ≠ []) (source : Source) :
    (∃ (chunks : List (List UInt8)) (after : Progress),
      copyWithLimit limiter buffer ⟨source, none⟩ 0 .start = .ok (min source.bytes.length u64Max, after) ∧
      after.writer.ops = chunks.map .write ++ [.shutdown] ∧ chunks.flatten = source.bytes) ∧
    ∀ read ≤ buffer.length, ∀ progress : Progress, (∀ fault ∈ progress.writer.faults, fault = none) →
      ∃ after, writeChunks limiter buffer read 0 progress = .ok after ∧ after.calls ≤ progress.calls + read := by
  constructor
  · obtain ⟨⟨total, after⟩, hcopy⟩ :=
      @copyWithLimit_returns limiter buffer ⟨source, none⟩ 0 .start rfl (fun _ => nofun)
    obtain ⟨chunks, hops, hflat, rfl, -⟩ := copyWithLimit_eq_ok hbuffer (Nat.zero_le _) hcopy
    rw [Nat.zero_add] at hcopy
    exact ⟨chunks, after, hcopy, hops, hflat⟩
  · intro read hread progress hsound
    obtain ⟨after, hwrite, -⟩ := @writeChunks_returns limiter buffer read 0 progress hread hsound
    obtain ⟨-, -, -, hcalls⟩ := writeChunks_eq_ok hread hwrite
    exact ⟨after, hwrite, hcalls⟩

def oneByOne : Grants where
  answer _ _ := 1
  pos _ _ _ := Nat.one_pos
  le _ _ h := h

theorem copied_oneByOne :
    ∃ (chunks : List (List UInt8)) (after : Progress),
      copyWithLimit (some oneByOne) (List.replicate 4 0) ⟨.ofPieces [[1, 2, 3], [4]], none⟩ 0 .start = .ok (4, after) ∧
      after.writer.ops = chunks.map .write ++ [.shutdown] ∧ chunks.flatten = [1, 2, 3, 4] :=
  (copied (some oneByOne) (List.replicate 4 0) (by decide) (.ofPieces [[1, 2, 3], [4]])).1

end Hysteria.Core
