import Hysteria.Lib.Bytes
import Hysteria.Lib.Session
import Hysteria.Lib.Utf8
import Mathlib.Algebra.Group.Nat.Defs

/-! The speed test of `speedtest.rs` over a connection: the client without a time limit, and
the server, which takes the largest size for a test with one. A state is a place where a
party waits for the connection. -/
namespace Hysteria.Extras
open Lib

def chunkSize : Nat := 64 * 1024
def u32Max : Nat := 2 ^ 32 - 1
def u64Max : Nat := 2 ^ 64 - 1

inductive TestKind where
  | download
  | upload
deriving DecidableEq, Repr

def TestKind.typ : TestKind → UInt8
  | .download => 0x01
  | .upload => 0x02

def TestKind.rejected : TestKind → String
  | .download => "server rejected download request: "
  | .upload => "server rejected upload request: "

/-- `write_download_request` and `write_upload_request` -/
def request (kind : TestKind) (length : Nat) : List UInt8 := kind.typ :: beBytes 4 length

/-- `write_status_message`, for a message that is not too long. -/
def statusMessage (ok : Bool) (message : String) : List UInt8 :=
  (if ok then 0 else 1) :: beBytes 2 message.utf8ByteSize ++ utf8Bytes message

def uploadSummary (millis bytes : Nat) : List UInt8 := beBytes 4 millis ++ beBytes 4 bytes

/-- How much the next read of `read_download_response` or `read_upload_response` asks for:
the status, the length of the message and the message are read one after the other. -/
def missingResponse (got : List UInt8) : Nat :=
  if got.length < 1 then 1
  else if got.length < 3 then 3 - got.length
  else 3 + beNat ((got.drop 1).take 2) - got.length

/-- The same for `read_upload_summary`. -/
def missingSummary (got : List UInt8) : Nat := if got.length < 4 then 4 - got.length else 8 - got.length

inductive ClientState where
  | requesting (rest : List UInt8)
  | answered (got : List UInt8)
  | downloading (remaining totalBytes : Nat)
  | uploading (remaining : Nat)
  | summary (got : List UInt8)
  | done (bytes : Nat)
  | failed (error : String)
deriving DecidableEq, Repr

namespace ClientState

def download (remaining totalBytes : Nat) : ClientState :=
  if remaining = 0 then .done totalBytes else .downloading remaining totalBytes

def upload (remaining : Nat) : ClientState := if remaining = 0 then .summary [] else .uploading remaining

def transfer (dataSize : Nat) : TestKind → ClientState
  | .download => download dataSize 0
  | .upload => upload dataSize

def wants : ClientState → Wants UInt8
  | .requesting rest => .write rest
  | .answered got => .read (missingResponse got)
  | .downloading remaining _ => .read (min remaining chunkSize)
  | .uploading remaining => .write (List.replicate (min remaining chunkSize) 0)
  | .summary got => .read (missingSummary got)
  | .done _ | .failed _ => .nothing

def wrote (s : ClientState) (size : Nat) : ClientState :=
  match s with
  | .requesting rest => if rest.drop size = [] then .answered [] else .requesting (rest.drop size)
  | .uploading remaining => upload (remaining - size)
  | s => s

def read (kind : TestKind) (dataSize : Nat) (s : ClientState) (bytes : List UInt8) : ClientState :=
  match s with
  | .answered got =>
    if bytes = [] then .failed "early eof"
    else if missingResponse (got ++ bytes) ≠ 0 then .answered (got ++ bytes)
    else if (got ++ bytes).head? = some 0 then transfer dataSize kind
    else .failed (kind.rejected ++ fromUtf8Lossy ((got ++ bytes).drop 3))
  | .downloading remaining totalBytes =>
    if bytes = [] then .failed "download stream closed early"
    else download (remaining - bytes.length) (totalBytes + bytes.length)
  | .summary got =>
    if bytes = [] then .failed "early eof"
    else if missingSummary (got ++ bytes) ≠ 0 then .summary (got ++ bytes)
    else .done (beNat ((got ++ bytes).drop 4))
  | s => s

end ClientState

def client (kind : TestKind) (dataSize : Nat) : Party ClientState UInt8 where
  wants := ClientState.wants
  wrote := ClientState.wrote
  read := ClientState.read kind dataSize
  broken _ := .failed "broken pipe"

/-- `received` is not in the source: the bytes of the upload that were read. -/
inductive ServerState where
  | accepting
  | requested (kind : TestKind) (got : List UInt8)
  | responding (kind : TestKind) (requested : Nat) (rest : List UInt8)
  | downloading (rest : List UInt8) (remaining : Nat)
  | flooding (rest : List UInt8)
  | uploading (requested remaining received : Nat)
  | draining (totalBytes : Nat)
  | summarizing (received : Nat) (rest : List UInt8)
  | done (received : Nat)
  | failed (error : String)
deriving DecidableEq, Repr

structure ServerRun where
  chunk : List UInt8
  length_chunk : chunk.length = chunkSize
  millis : UInt32

namespace ServerRun

variable (server : ServerRun)

def download (remaining : Nat) : ServerState :=
  if remaining = 0 then .done 0
  else .downloading (server.chunk.take (min remaining chunkSize)) (remaining - min remaining chunkSize)

def upload (requested remaining received : Nat) : ServerState :=
  if remaining = 0 then .summarizing received (uploadSummary server.millis.toNat requested)
  else .uploading requested remaining received

def handle (requested : Nat) : TestKind → ServerState
  | .download => if requested = u32Max then .flooding server.chunk else server.download requested
  | .upload => if requested = u32Max then .draining 0 else server.upload requested requested 0

def wants : ServerState → Wants UInt8
  | .accepting => .read 1
  | .requested _ got => .read (4 - got.length)
  | .responding _ _ rest | .downloading rest _ | .flooding rest | .summarizing _ rest => .write rest
  | .uploading _ remaining _ => .read (min remaining chunkSize)
  | .draining _ => .read chunkSize
  | .done _ | .failed _ => .nothing

def wrote (s : ServerState) (size : Nat) : ServerState :=
  match s with
  | .responding kind requested rest =>
    if rest.drop size = [] then server.handle requested kind else .responding kind requested (rest.drop size)
  | .downloading rest remaining =>
    if rest.drop size = [] then server.download remaining else .downloading (rest.drop size) remaining
  | .flooding rest => .flooding (if rest.drop size = [] then server.chunk else rest.drop size)
  | .summarizing received rest =>
    if rest.drop size = [] then .done received else .summarizing received (rest.drop size)
  | s => s

def read (s : ServerState) (bytes : List UInt8) : ServerState :=
  match s with
  | .accepting =>
    match bytes.head? with
    | none => .failed "early eof"
    | some typ =>
      if typ = TestKind.typ .download then .requested .download []
      else if typ = TestKind.typ .upload then .requested .upload []
      else .failed ("unknown speedtest request type " ++ toString typ.toNat)
  | .requested kind got =>
    if bytes = [] then .failed "early eof"
    else if (got ++ bytes).length < 4 then .requested kind (got ++ bytes)
    else .responding kind (beNat (got ++ bytes)) (statusMessage true "OK")
  | .uploading requested remaining received =>
    if bytes = [] then .failed "upload stream closed early"
    else server.upload requested (remaining - bytes.length) (received + bytes.length)
  | .draining totalBytes =>
    if bytes = [] then .summarizing totalBytes (uploadSummary server.millis.toNat (min totalBytes u32Max))
    else .draining (min (totalBytes + bytes.length) u64Max)
  | s => s

/-- A server that sends until its peer is gone takes that for the end. -/
def broken : ServerState → ServerState
  | .flooding _ => .done 0
  | _ => .failed "broken pipe"

def party : Party ServerState UInt8 where
  wants := ServerRun.wants
  wrote := server.wrote
  read := server.read
  broken := ServerRun.broken

end ServerRun

structure Test where
  kind : TestKind
  dataSize : UInt32
  server : ServerRun

namespace Test

variable (test : Test)

def size : Nat := test.dataSize.toNat

def start : Duplex ClientState ServerState UInt8 where
  near := .requesting (request test.kind test.size)
  far := .accepting
  outgoing := []
  incoming := []

def step (toServer toClient : Nat) :
    Duplex ClientState ServerState UInt8 → Side × Move → Option (Duplex ClientState ServerState UInt8) :=
  Duplex.step (client test.kind test.size) test.server.party toServer toClient

structure Completed (s : Duplex ClientState ServerState UInt8) : Prop where
  client : s.near = .done test.size
  server : ∃ received, s.far = .done received ∧ (test.kind = .upload → received = test.size)

def okResponse : List UInt8 := statusMessage true "OK"

def payload (chunk : List UInt8) (n : Nat) : List UInt8 :=
  if n = 0 then [] else chunk.take (min n chunkSize) ++ payload chunk (n - min n chunkSize)
termination_by n
decreasing_by
  have hchunk : chunkSize = 65536 := rfl
  omega

def summary : List UInt8 := uploadSummary test.server.millis.toNat test.size

def tail : List (Side × UInt8) :=
  match test.kind with
  | .download => sends .right (payload test.server.chunk test.size)
  | .upload => sends .left (List.replicate test.size 0) ++ sends .right test.summary

def session : List (Side × UInt8) :=
  sends .left (request test.kind test.size) ++ (sends .right okResponse ++ test.tail)

def ClientAt : ClientState → List (Side × UInt8) → Prop
  | .requesting rest, session => rest ≠ [] ∧ session = sends .left rest ++ (sends .right okResponse ++ test.tail)
  | .answered got, session =>
    ∃ rest, rest ≠ [] ∧ got ++ rest = okResponse ∧ session = sends .right rest ++ test.tail
  | .downloading remaining totalBytes, session => 0 < remaining ∧ totalBytes + remaining = test.size ∧
    ∃ bytes, bytes.length = remaining ∧ session = sends .right bytes
  | .uploading remaining, session =>
    0 < remaining ∧ session = sends .left (List.replicate remaining 0) ++ sends .right test.summary
  | .summary got, session => ∃ rest, rest ≠ [] ∧ got ++ rest = test.summary ∧ session = sends .right rest
  | .done bytes, session => bytes = test.size ∧ session = []
  | .failed _, _ => False

def ServerAt : ServerState → List (Side × UInt8) → Prop
  | .accepting, session => session = test.session
  | .requested kind got, session => kind = test.kind ∧ ∃ rest, rest ≠ [] ∧ got ++ rest = beBytes 4 test.size ∧
    session = sends .left rest ++ (sends .right okResponse ++ test.tail)
  | .responding kind requested rest, session => kind = test.kind ∧ requested = test.size ∧ rest ≠ [] ∧
    session = sends .right rest ++ test.tail
  | .downloading rest remaining, session => test.kind = .download ∧ rest ≠ [] ∧
    session = sends .right (rest ++ payload test.server.chunk remaining)
  | .uploading requested remaining received, session => requested = test.size ∧ 0 < remaining ∧
    received + remaining = test.size ∧
    ∃ bytes, bytes.length = remaining ∧ session = sends .left bytes ++ sends .right test.summary
  | .summarizing received rest, session => received = test.size ∧ rest ≠ [] ∧ session = sends .right rest
  | .done received, session => (test.kind = .upload → received = test.size) ∧ session = []
  | .flooding _, _ | .draining _, _ | .failed _, _ => False

theorem size_lt : test.size < 256 ^ 4 := test.dataSize.toNat_lt

theorem length_payload (n : Nat) : (payload test.server.chunk n).length = n := by
  induction n using Nat.strongRecOn with
  | ind n ih =>
    have hchunk : chunkSize = 65536 := rfl
    have hlength := test.server.length_chunk
    rw [payload]
    split
    · next hzero => rw [hzero, List.length_nil]
    · rw [List.length_append, List.length_take, ih _ (by omega)]
      omega

theorem missingResponse_spec {got rest : List UInt8} (h : got ++ rest = okResponse) :
    missingResponse got ≤ rest.length ∧ (missingResponse got = 0 ↔ rest = []) := by
  have hlength : got.length + rest.length = 5 := by
    rw [← List.length_append, h]
    rfl
  have hgot : got = okResponse.take got.length := by rw [← h, List.take_left]
  have hall : ∀ n < 6, missingResponse (okResponse.take n) ≤ 5 - n ∧
      (missingResponse (okResponse.take n) = 0 ↔ n = 5) := by decide
  obtain ⟨hle, hzero⟩ := hall got.length (by omega)
  rw [← hgot] at hle hzero
  rw [hzero, ← List.length_eq_zero_iff]
  omega

theorem length_summary : test.summary.length = 8 := by
  rw [summary, uploadSummary, List.length_append, length_beBytes, length_beBytes]

theorem missingSummary_spec {got rest : List UInt8} (h : got ++ rest = test.summary) :
    missingSummary got ≤ rest.length ∧ (missingSummary got = 0 ↔ rest = []) := by
  have hlength := congrArg List.length h
  rw [List.length_append, length_summary] at hlength
  rw [← List.length_eq_zero_iff]
  unfold missingSummary
  split <;> omega

theorem beNat_summary : beNat (test.summary.drop 4) = test.size := by
  rw [summary, uploadSummary, List.drop_left' (length_beBytes 4 _), beNat_beBytes_of_lt test.size_lt]

theorem clientAt_download {remaining totalBytes : Nat} (htotal : totalBytes + remaining = test.size)
    {bytes : List UInt8} (hbytes : bytes.length = remaining) :
    test.ClientAt (.download remaining totalBytes) (sends .right bytes) := by
  unfold ClientState.download
  split
  · next hzero =>
    subst hzero
    exact ⟨htotal, by rw [List.length_eq_zero_iff.mp hbytes, sends_nil]⟩
  · next hne => exact ⟨Nat.pos_of_ne_zero hne, htotal, bytes, hbytes, rfl⟩

theorem summary_ne_nil : test.summary ≠ [] := by
  rw [ne_eq, ← List.length_eq_zero_iff, length_summary]
  decide

theorem clientAt_upload (remaining : Nat) : test.ClientAt (.upload remaining)
    (sends .left (List.replicate remaining 0) ++ sends .right test.summary) := by
  unfold ClientState.upload
  split
  · next hzero =>
    subst hzero
    exact ⟨test.summary, test.summary_ne_nil, rfl, rfl⟩
  · next hne => exact ⟨Nat.pos_of_ne_zero hne, rfl⟩

theorem clientAt_transfer : test.ClientAt (.transfer test.size test.kind) test.tail := by
  unfold ClientState.transfer tail
  split
  · exact test.clientAt_download (Nat.zero_add _) (test.length_payload _)
  · exact test.clientAt_upload _

theorem client_writes {s : ClientState} {session : List (Side × UInt8)} {bytes : List UInt8}
    (hat : test.ClientAt s session) (hwants : s.wants = .write bytes) : bytes ≠ [] ∧
      ∀ n, 0 < n → n ≤ bytes.length →
        ∃ rest, session = sends .left (bytes.take n) ++ rest ∧ test.ClientAt (s.wrote n) rest := by
  cases s with
  | requesting rest =>
    cases hwants
    obtain ⟨hne, rfl⟩ := hat
    refine ⟨hne, fun n _ _ => ⟨_, sends_take_drop _ _ n _, ?_⟩⟩
    unfold ClientState.wrote
    dsimp only
    split
    · next hnil => exact ⟨okResponse, by decide, rfl, by rw [hnil]; rfl⟩
    · next hrest => exact ⟨hrest, rfl⟩
  | uploading remaining =>
    cases hwants
    obtain ⟨hpos, rfl⟩ := hat
    have hchunk : chunkSize = 65536 := rfl
    refine ⟨?_, fun n _ hle => ?_⟩
    · rw [ne_eq, List.replicate_eq_nil_iff]
      omega
    · rw [List.length_replicate] at hle
      refine ⟨_, ?_, test.clientAt_upload (remaining - n)⟩
      rw [← List.append_assoc, ← sends_append, List.take_replicate, ← List.replicate_add]
      congr 3
      omega
  | answered | downloading | summary | done | failed => cases hwants

theorem client_reads {s : ClientState} {session : List (Side × UInt8)} {capacity : Nat}
    (hat : test.ClientAt s session) (hwants : s.wants = .read capacity) : 0 < capacity ∧
      (∃ b rest, session = (.right, b) :: rest) ∧
      ∀ bytes rest, bytes ≠ [] → bytes.length ≤ capacity → session = sends .right bytes ++ rest →
        test.ClientAt (s.read test.kind test.size bytes) rest := by
  cases s with
  | answered got =>
    cases hwants
    obtain ⟨rest, hne, hgot, rfl⟩ := hat
    obtain ⟨hle, hzero⟩ := missingResponse_spec hgot
    refine reads_expected (Nat.pos_of_ne_zero fun h => hne (hzero.mp h)) hle ?_
    rintro bytes rest' hbytes - rfl
    rw [← List.append_assoc] at hgot
    obtain ⟨-, hzero⟩ := missingResponse_spec hgot
    simp only [ClientState.read, if_neg hbytes]
    split
    · next hmissing => exact ⟨rest', fun h => hmissing (hzero.mpr h), hgot, rfl⟩
    · next hmissing =>
      obtain rfl := hzero.mp (not_not.mp hmissing)
      rw [List.append_nil] at hgot
      rw [hgot, if_pos (by decide), sends_nil, List.nil_append]
      exact test.clientAt_transfer
  | downloading remaining totalBytes =>
    cases hwants
    obtain ⟨hpos, htotal, payload, hpayload, rfl⟩ := hat
    have hchunk : chunkSize = 65536 := rfl
    rw [← List.append_nil (sends .right payload)]
    refine reads_expected (by omega) (by omega) ?_
    rintro bytes rest hbytes hlength rfl
    rw [List.length_append] at hpayload
    rw [List.append_nil]
    simp only [ClientState.read, if_neg hbytes]
    exact test.clientAt_download (by omega) (by omega)
  | summary got =>
    cases hwants
    obtain ⟨rest, hne, hgot, rfl⟩ := hat
    obtain ⟨hle, hzero⟩ := test.missingSummary_spec hgot
    rw [← List.append_nil (sends .right rest)]
    refine reads_expected (Nat.pos_of_ne_zero fun h => hne (hzero.mp h)) hle ?_
    rintro bytes rest' hbytes - rfl
    rw [← List.append_assoc] at hgot
    obtain ⟨-, hzero⟩ := test.missingSummary_spec hgot
    rw [List.append_nil]
    simp only [ClientState.read, if_neg hbytes]
    split
    · next hmissing => exact ⟨rest', fun h => hmissing (hzero.mpr h), hgot, rfl⟩
    · next hmissing =>
      obtain rfl := hzero.mp (not_not.mp hmissing)
      rw [List.append_nil] at hgot
      exact ⟨by rw [hgot, beNat_summary], rfl⟩
  | requesting | uploading | done | failed => cases hwants

theorem client_follows : Follows (client test.kind test.size) .left test.ClientAt where
  writes := test.client_writes
  reads := test.client_reads
  ends {s session} hat hwants := by
    cases s with
    | done => exact hat.2
    | failed => cases hat
    | requesting | answered | downloading | uploading | summary => cases hwants

theorem serverAt_download (hkind : test.kind = .download) (remaining : Nat) :
    test.ServerAt (test.server.download remaining) (sends .right (payload test.server.chunk remaining)) := by
  rw [payload, ServerRun.download]
  split
  · exact ⟨by rw [hkind]; rintro ⟨⟩, rfl⟩
  · have hchunk : chunkSize = 65536 := rfl
    have hlength := test.server.length_chunk
    refine ⟨hkind, ?_, rfl⟩
    exact take_ne_nil (by omega) (by omega)

theorem serverAt_upload {remaining received : Nat} (hreceived : received + remaining = test.size)
    {bytes : List UInt8} (hbytes : bytes.length = remaining) :
    test.ServerAt (test.server.upload test.size remaining received)
      (sends .left bytes ++ sends .right test.summary) := by
  unfold ServerRun.upload
  split
  · next hzero =>
    subst hzero
    exact ⟨hreceived, test.summary_ne_nil, by rw [List.length_eq_zero_iff.mp hbytes]; rfl⟩
  · next hne => exact ⟨rfl, Nat.pos_of_ne_zero hne, hreceived, bytes, hbytes, rfl⟩

theorem serverAt_handle (hsize : test.size ≠ u32Max) :
    test.ServerAt (test.server.handle test.size test.kind) test.tail := by
  unfold ServerRun.handle tail
  split
  · next hkind =>
    rw [if_neg hsize]
    exact test.serverAt_download hkind _
  · rw [if_neg hsize]
    exact test.serverAt_upload (Nat.zero_add _) List.length_replicate

theorem server_writes (hsize : test.size ≠ u32Max) {s : ServerState} {session : List (Side × UInt8)}
    {bytes : List UInt8} (hat : test.ServerAt s session) (hwants : ServerRun.wants s = .write bytes) : bytes ≠ [] ∧
      ∀ n, 0 < n → n ≤ bytes.length →
        ∃ rest, session = sends .right (bytes.take n) ++ rest ∧ test.ServerAt (test.server.wrote s n) rest := by
  cases s with
  | responding kind requested rest =>
    cases hwants
    obtain ⟨rfl, rfl, hne, rfl⟩ := hat
    refine ⟨hne, fun n _ _ => ⟨_, sends_take_drop _ _ n _, ?_⟩⟩
    unfold ServerRun.wrote
    dsimp only
    split
    · next hnil =>
      rw [hnil]
      exact test.serverAt_handle hsize
    · next hrest => exact ⟨rfl, rfl, hrest, rfl⟩
  | downloading rest remaining =>
    cases hwants
    obtain ⟨hkind, hne, rfl⟩ := hat
    refine ⟨hne, fun n _ _ => ⟨_, by rw [sends_append]; exact sends_take_drop _ _ n _, ?_⟩⟩
    unfold ServerRun.wrote
    dsimp only
    split
    · next hnil =>
      rw [hnil]
      exact test.serverAt_download hkind remaining
    · next hrest => exact ⟨hkind, hrest, (sends_append _ _ _).symm⟩
  | summarizing received rest =>
    cases hwants
    obtain ⟨rfl, hne, rfl⟩ := hat
    refine ⟨hne, fun n _ _ => ⟨sends .right (bytes.drop n), ?_, ?_⟩⟩
    · rw [← sends_append, List.take_append_drop]
    · unfold ServerRun.wrote
      dsimp only
      split
      · next hnil => exact ⟨fun _ => rfl, by rw [hnil]; rfl⟩
      · next hrest => exact ⟨rfl, hrest, rfl⟩
  | flooding => cases hat
  | accepting | requested | uploading | draining | done | failed => cases hwants

theorem server_reads {s : ServerState} {session : List (Side × UInt8)} {capacity : Nat}
    (hat : test.ServerAt s session) (hwants : ServerRun.wants s = .read capacity) : 0 < capacity ∧
      (∃ b rest, session = (.left, b) :: rest) ∧
      ∀ bytes rest, bytes ≠ [] → bytes.length ≤ capacity → session = sends .left bytes ++ rest →
        test.ServerAt (test.server.read s bytes) rest := by
  cases s with
  | accepting =>
    cases hwants
    obtain rfl := hat
    refine reads_expected Nat.one_pos (by rw [request, List.length_cons]; omega) ?_
    intro bytes rest hbytes hlength hrequest
    obtain ⟨b, bytes, rfl⟩ := List.exists_cons_of_ne_nil hbytes
    obtain rfl : bytes = [] := List.length_eq_zero_iff.mp (Nat.le_zero.mp (Nat.le_of_succ_le_succ hlength))
    rw [request, List.singleton_append, List.cons.injEq] at hrequest
    obtain ⟨rfl, rfl⟩ := hrequest
    have hread : test.server.read .accepting [test.kind.typ] = .requested test.kind [] := by
      cases test.kind <;> rfl
    rw [hread]
    exact ⟨rfl, beBytes 4 test.size, by simp [beBytes], rfl, rfl⟩
  | requested kind got =>
    cases hwants
    obtain ⟨rfl, rest, hne, hgot, rfl⟩ := hat
    have hlength := congrArg List.length hgot
    rw [List.length_append, length_beBytes] at hlength
    have hpos := List.length_pos_iff.mpr hne
    refine reads_expected (by omega) (by omega) ?_
    rintro bytes rest' hbytes hle rfl
    rw [← List.append_assoc] at hgot
    simp only [ServerRun.read, if_neg hbytes]
    rw [List.length_append] at hlength
    split
    · next hshort =>
      refine ⟨rfl, rest', ?_, hgot, rfl⟩
      rintro rfl
      rw [List.length_append] at hshort
      rw [List.length_nil] at hlength
      omega
    · next hall =>
      rw [List.length_append] at hall
      obtain rfl : rest' = [] := List.length_eq_zero_iff.mp (by omega)
      rw [List.append_nil] at hgot
      rw [hgot, beNat_beBytes_of_lt test.size_lt]
      exact ⟨rfl, rfl, by decide, rfl⟩
  | uploading requested remaining received =>
    cases hwants
    obtain ⟨rfl, hpos, hreceived, payload, hpayload, rfl⟩ := hat
    have hchunk : chunkSize = 65536 := rfl
    refine reads_expected (by omega) (by omega) ?_
    rintro bytes rest hbytes hlength rfl
    rw [List.length_append] at hpayload
    simp only [ServerRun.read, if_neg hbytes]
    exact test.serverAt_upload (by omega) (by omega)
  | draining => cases hat
  | responding | downloading | flooding | summarizing | done | failed => cases hwants

theorem server_follows (hsize : test.size ≠ u32Max) : Follows test.server.party .right test.ServerAt where
  writes := test.server_writes hsize
  reads := test.server_reads
  ends {s session} hat hwants := by
    cases s with
    | done => exact hat.2
    | failed => cases hat
    | accepting | requested | responding | downloading | flooding | uploading | draining | summarizing => cases hwants

/-- A test of any size but the largest comes to its end, however its bytes are cut: a run is
no longer than twice the number of bytes, and one that cannot go on has completed. -/
theorem size_based_completes (test : Test) (hsize : test.size ≠ u32Max) {toServer toClient : Nat}
    (htoServer : 1 ≤ toServer) (htoClient : 1 ≤ toClient) {events : List (Side × Move)}
    {s : Duplex ClientState ServerState UInt8} (hrun : run (test.step toServer toClient) test.start events = some s) :
    events.length ≤ test.session.length + test.session.length ∧
      ((∃ event next, test.step toServer toClient s event = some next) ∨ test.Completed s) := by
  have hstart : Tracks .left test.ClientAt test.ServerAt test.session test.session test.start :=
    ⟨⟨List.cons_ne_nil _ _, rfl⟩, rfl, .inl ⟨rfl, rfl⟩⟩
  obtain ⟨hlength, hend⟩ := session_completes test.client_follows (test.server_follows hsize) htoServer htoClient
    hstart hrun
  refine ⟨hlength, hend.imp_right ?_⟩
  rintro ⟨hnear, hfar, hclient, hserver⟩
  constructor
  · cases hs : s.near with
    | done bytes =>
      rw [hs] at hclient
      rw [hclient.1]
    | failed =>
      rw [hs] at hclient
      cases hclient
    | requesting | answered | downloading | uploading | summary =>
      rw [hs] at hnear
      cases hnear
  · cases hs : s.far with
    | done received =>
      rw [hs] at hserver
      exact ⟨received, rfl, hserver.1⟩
    | failed =>
      rw [hs] at hserver
      cases hserver
    | accepting | requested | responding | downloading | flooding | uploading | draining | summarizing =>
      rw [hs] at hfar
      cases hfar

def zeros : ServerRun := ⟨List.replicate chunkSize 0, List.length_replicate, 0⟩

def opening : List (Side × Move) :=
  [(.left, .wrote 5), (.right, .read 1), (.right, .read 4), (.right, .wrote 5), (.left, .read 1), (.left, .read 2),
    (.left, .read 2)]

def smallUpload : List (Side × Move) :=
  opening ++ [(.left, .wrote 1), (.left, .wrote 2), (.right, .read 3), (.right, .wrote 8), (.left, .read 4),
    (.left, .read 4)]

theorem isSome_smallUpload : (run (step ⟨.upload, 3, zeros⟩ 8 8) (start ⟨.upload, 3, zeros⟩) smallUpload).isSome := by
  decide +kernel

theorem size_based_completes_small :
    ∃ s, run (step ⟨.upload, 3, zeros⟩ 8 8) (start ⟨.upload, 3, zeros⟩) smallUpload = some s ∧
      s.near = .done 3 ∧ s.far = .done 3 ∧
      ((∃ event next, step ⟨.upload, 3, zeros⟩ 8 8 s event = some next) ∨ Completed ⟨.upload, 3, zeros⟩ s) := by
  have hrun := (Option.some_get isSome_smallUpload).symm
  exact ⟨_, hrun, by decide +kernel, by decide +kernel,
    (size_based_completes ⟨.upload, 3, zeros⟩ (by decide) (by decide) (by decide) hrun).2⟩

theorem exists_drained (n totalBytes : Nat) :
    ∃ events totalBytes', run (step ⟨.upload, 0xffffffff, zeros⟩ 5 5) ⟨.upload n, .draining totalBytes, [], []⟩ events =
      some ⟨.summary [], .draining totalBytes', [], []⟩ := by
  induction n generalizing totalBytes with
  | zero => exact ⟨[], totalBytes, rfl⟩
  | succ n ih =>
    obtain ⟨events, totalBytes', hrun⟩ := ih (min (totalBytes + 1) u64Max)
    refine ⟨(.left, .wrote 1) :: (.right, .read 1) :: events, totalBytes', ?_⟩
    refine run_cons.mpr ⟨⟨.upload n, .draining totalBytes, [0], []⟩, ?_, run_cons.mpr ⟨_, rfl, hrun⟩⟩
    obtain ⟨k, hk⟩ : ∃ k, min (n + 1) chunkSize = k + 1 := Nat.exists_eq_succ_of_ne_zero (by simp [chunkSize])
    have hupload : ClientState.upload (n + 1) = .uploading (n + 1) := if_neg (Nat.succ_ne_zero n)
    simp only [step, Duplex.step, Duplex.move, client, hupload, ClientState.wants, hk, List.length_replicate]
    rw [if_pos (by simp)]
    rfl

/-- The client waits for the summary and the server for the end of the upload. -/
theorem upload_u32Max_deadlock :
    ∃ events s, run (step ⟨.upload, 0xffffffff, zeros⟩ 5 5) (start ⟨.upload, 0xffffffff, zeros⟩) events = some s ∧
      s.near = .summary [] ∧ (∃ totalBytes, s.far = .draining totalBytes) ∧
      ∀ event, step ⟨.upload, 0xffffffff, zeros⟩ 5 5 s event = none := by
  have hopening : run (step ⟨.upload, 0xffffffff, zeros⟩ 5 5) (start ⟨.upload, 0xffffffff, zeros⟩) opening =
      some ⟨.upload u32Max, .draining 0, [], []⟩ := by decide +kernel
  obtain ⟨events, totalBytes, hrun⟩ := exists_drained u32Max 0
  refine ⟨opening ++ events, _, run_append hopening hrun, rfl, ⟨totalBytes, rfl⟩, ?_⟩
  rintro ⟨side, m⟩
  have hempty (n capacity : Nat) : ¬ (n + 1 ≤ capacity ∧ n + 1 ≤ ([] : List UInt8).length) := by simp
  cases side with
  | left =>
    cases m with
    | wrote | broken => rfl
    | read n =>
      cases n with
      | zero => rfl
      | succ n => exact if_neg (hempty n _)
  | right =>
    cases m with
    | wrote | broken => rfl
    | read n =>
      cases n with
      | zero => rfl
      | succ n =>
        change Option.map _ (if n + 1 ≤ chunkSize ∧ n + 1 ≤ ([] : List UInt8).length then _ else none) = none
        rw [if_neg (hempty n _)]
        rfl

end Test
end Hysteria.Extras
