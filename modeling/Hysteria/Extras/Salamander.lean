import Hysteria.Lib.Exec

/-! The Salamander obfuscator of `obfs.rs`. A datagram is xored with a key derived
from the pre-shared key and a fresh salt, and the salt travels in front of it. The
hash is a parameter: nothing here needs more than that it is a function. -/
namespace Hysteria.Extras
open Lib

def salamanderPskMinLen : Nat := 4

def salamanderSaltLen : Nat := 8

def salamanderKeyLen : Nat := 32

inductive SalamanderError where
  | pskTooShort
deriving DecidableEq, Repr

/-- `Blake2b256::digest` -/
abbrev Digest := List UInt8 → Vector UInt8 salamanderKeyLen

abbrev Salt := Vector UInt8 salamanderSaltLen

structure SalamanderObfuscator where
  psk : List UInt8
  psk_long : salamanderPskMinLen ≤ psk.length

def keyByte (key : Vector UInt8 salamanderKeyLen) (i : Nat) : UInt8 :=
  key.get ⟨i % salamanderKeyLen, Nat.mod_lt _ (by decide)⟩

/-- The loop of both directions: `output[index + offset] = *byte ^ key[index % 32]`. -/
def xorLoop (key : Vector UInt8 salamanderKeyLen) (offset : Nat) :
    Nat → List UInt8 → List UInt8 → Exec ε (List UInt8)
  | _, [], output => .ok output
  | i, byte :: input, output => do
    let output ← setIndex output (i + offset) (byte ^^^ keyByte key i)
    xorLoop key offset (i + 1) input output

namespace SalamanderObfuscator

def new (psk : List UInt8) : Except SalamanderError SalamanderObfuscator :=
  if h : psk.length < salamanderPskMinLen then .error .pskTooShort
  else .ok ⟨psk, Nat.le_of_not_lt h⟩

variable (digest : Digest) (obfs : SalamanderObfuscator)

def key (salt : List UInt8) : Vector UInt8 salamanderKeyLen := digest (obfs.psk ++ salt)

/-- The number of bytes written and the output buffer after the call. -/
def obfuscate (profile : Profile) (salt : Salt) (input output : List UInt8) :
    Exec ε (Nat × List UInt8) := do
  let outLen ← addUsize profile input.length salamanderSaltLen
  if output.length < outLen then return (0, output)
  let output ← writeSlice output 0 salt.toList
  let salt ← slice output 0 salamanderSaltLen
  let output ← xorLoop (obfs.key digest salt) salamanderSaltLen 0 input output
  return (outLen, output)

def deobfuscate (input output : List UInt8) : Exec ε (Nat × List UInt8) := do
  let outLen := input.length - salamanderSaltLen
  if outLen = 0 ∨ output.length < outLen then return (0, output)
  let salt ← slice input 0 salamanderSaltLen
  let body ← slice input salamanderSaltLen input.length
  let output ← xorLoop (obfs.key digest salt) 0 0 body output
  return (outLen, output)

end SalamanderObfuscator

def xorFrom (key : Vector UInt8 salamanderKeyLen) : Nat → List UInt8 → List UInt8
  | _, [] => []
  | i, byte :: bytes => (byte ^^^ keyByte key i) :: xorFrom key (i + 1) bytes

@[simp] theorem length_xorFrom (key : Vector UInt8 salamanderKeyLen) (i : Nat)
    (bytes : List UInt8) : (xorFrom key i bytes).length = bytes.length := by
  induction bytes generalizing i with
  | nil => rfl
  | cons byte bytes ih => simp [xorFrom, ih]

@[simp] theorem xorFrom_xorFrom (key : Vector UInt8 salamanderKeyLen) (i : Nat)
    (bytes : List UInt8) : xorFrom key i (xorFrom key i bytes) = bytes := by
  induction bytes generalizing i with
  | nil => rfl
  | cons byte bytes ih =>
    simp only [xorFrom, ih, UInt8.xor_assoc, UInt8.xor_self, UInt8.xor_zero]

theorem xorLoop_eq (key : Vector UInt8 salamanderKeyLen) {offset i : Nat}
    {input written buf : List UInt8} (hwritten : written.length = i + offset)
    (hfits : i + offset + input.length ≤ buf.length) :
    (xorLoop key offset i input (overlay written buf) : Exec ε (List UInt8)) =
      .ok (overlay (written ++ xorFrom key i input) buf) := by
  induction input generalizing i written with
  | nil => simp [xorLoop, xorFrom]
  | cons byte input ih =>
    rw [List.length_cons] at hfits
    rw [xorLoop, setIndex_overlay hwritten _ (by omega), ok_bind, ih _ (by omega)]
    · simp [xorFrom]
    · simp only [List.length_append, List.length_singleton]
      omega

theorem xorLoop_full (key : Vector UInt8 salamanderKeyLen) {input output : List UInt8}
    (h : output.length = input.length) :
    (xorLoop key 0 0 input output : Exec ε (List UInt8)) = .ok (xorFrom key 0 input) := by
  have hloop := xorLoop_eq (ε := ε) key (show ([] : List UInt8).length = 0 + 0 from rfl)
    (show 0 + 0 + input.length ≤ output.length by omega)
  rw [overlay_nil] at hloop
  rw [hloop]
  simp [overlay, h]

namespace SalamanderObfuscator

variable (digest : Digest) (obfs : SalamanderObfuscator)

def encode (salt : Salt) (input : List UInt8) : List UInt8 :=
  salt.toList ++ xorFrom (obfs.key digest salt.toList) 0 input

def decode (input : List UInt8) : List UInt8 :=
  xorFrom (obfs.key digest (input.take salamanderSaltLen)) 0 (input.drop salamanderSaltLen)

@[simp] theorem length_encode (salt : Salt) (input : List UInt8) :
    (obfs.encode digest salt input).length = input.length + salamanderSaltLen := by
  simp [encode, Nat.add_comm]

@[simp] theorem length_decode (input : List UInt8) :
    (obfs.decode digest input).length = input.length - salamanderSaltLen := by
  simp [decode]

@[simp] theorem decode_encode (salt : Salt) (input : List UInt8) :
    obfs.decode digest (obfs.encode digest salt input) = input := by
  have hsalt : salt.toList.length = salamanderSaltLen := salt.length_toList
  rw [decode, encode, List.take_left' hsalt, List.drop_left' hsalt, xorFrom_xorFrom]

theorem obfuscate_eq (profile : Profile) (salt : Salt) {input output : List UInt8}
    (hinput : input.length + salamanderSaltLen < usizeSize)
    (hfits : input.length + salamanderSaltLen ≤ output.length) :
    (obfs.obfuscate digest profile salt input output : Exec ε _) =
      .ok (input.length + salamanderSaltLen, overlay (obfs.encode digest salt input) output) := by
  have hsalt : salt.toList.length = salamanderSaltLen := salt.length_toList
  have hread : (slice (overlay salt.toList output) 0 salamanderSaltLen : Exec ε (List UInt8)) =
      .ok salt.toList := by
    have hlength := length_overlay (show salt.toList.length ≤ output.length by omega)
    rw [slice_ok (Nat.zero_le _) (by omega), take_overlay output hsalt]
    rfl
  unfold obfuscate
  rw [addUsize_ok profile hinput, ok_bind, if_neg (by omega)]
  refine bind_eq_ok.mpr ⟨_, writeSlice_zero (by omega), bind_eq_ok.mpr ⟨_, hread, ?_⟩⟩
  rw [xorLoop_eq _ (by omega) (by omega)]
  rfl

theorem deobfuscate_eq {input output : List UInt8}
    (hfits : output.length = input.length - salamanderSaltLen) :
    (obfs.deobfuscate digest input output : Exec ε _) =
      .ok (input.length - salamanderSaltLen, obfs.decode digest input) := by
  have hlength := obfs.length_decode digest input
  unfold deobfuscate
  by_cases hzero : input.length - salamanderSaltLen = 0
  · -- Nothing follows the salt: the call reports zero bytes and writes none.
    have houtput : output = [] := List.eq_nil_of_length_eq_zero (hfits.trans hzero)
    have hdecode : obfs.decode digest input = [] := List.eq_nil_of_length_eq_zero (hlength.trans hzero)
    rw [if_pos (.inl hzero), hzero, houtput, hdecode]
    rfl
  · rw [if_neg (by omega)]
    refine bind_eq_ok.mpr ⟨_, slice_ok (Nat.zero_le _) (by omega), ?_⟩
    refine bind_eq_ok.mpr ⟨_, slice_ok (by omega) (Nat.le_refl _), ?_⟩
    rw [List.take_length, xorLoop_full]
    · rfl
    · rw [hfits, List.length_drop]

end SalamanderObfuscator
end Hysteria.Extras
