import Mathlib.Data.List.Basic
import Mathlib.Tactic.Common
import Mathlib.Tactic.Ring

/-! Big-endian natural numbers of a fixed number of bytes. -/
namespace Hysteria.Lib

theorem forall_byte {P : UInt8 → Prop} (h : ∀ n : Fin 256, P (UInt8.ofFin n)) (b : UInt8) : P b :=
  h b.toFin

/-- The low `width` bytes of a number, most significant first. -/
def beBytes : Nat → Nat → List UInt8
  | 0, _ => []
  | width + 1, n => UInt8.ofNat (n / 256 ^ width) :: beBytes width n

def beStep (n : Nat) (b : UInt8) : Nat := n * 256 + b.toNat

def beNat (bytes : List UInt8) : Nat := bytes.foldl beStep 0

@[simp] theorem length_beBytes (width n : Nat) : (beBytes width n).length = width := by
  induction width with
  | zero => rfl
  | succ width ih => simp [beBytes, ih]

theorem foldl_beStep (bytes : List UInt8) (n : Nat) :
    bytes.foldl beStep n = n * 256 ^ bytes.length + beNat bytes := by
  induction bytes generalizing n with
  | nil => simp [beNat]
  | cons b bytes ih =>
    have hcons : beNat (b :: bytes) = beStep 0 b * 256 ^ bytes.length + beNat bytes := ih _
    rw [List.foldl_cons, ih, hcons, List.length_cons]
    simp only [beStep]
    ring

theorem beNat_cons (b : UInt8) (bytes : List UInt8) :
    beNat (b :: bytes) = b.toNat * 256 ^ bytes.length + beNat bytes := by
  rw [beNat, List.foldl_cons, foldl_beStep]
  simp [beStep]

theorem beNat_beBytes (width n : Nat) : beNat (beBytes width n) = n % 256 ^ width := by
  induction width with
  | zero => simp [beBytes, beNat, Nat.mod_one]
  | succ width ih =>
    have hbyte : (UInt8.ofNat (n / 256 ^ width)).toNat = n / 256 ^ width % 256 := by
      simp [UInt8.toNat_ofNat']
    rw [beBytes, beNat_cons, ih, length_beBytes, hbyte, Nat.pow_succ, Nat.mod_mul]
    ring

theorem beNat_beBytes_of_lt {width n : Nat} (h : n < 256 ^ width) :
    beNat (beBytes width n) = n := by
  rw [beNat_beBytes, Nat.mod_eq_of_lt h]

theorem beNat_lt (bytes : List UInt8) : beNat bytes < 256 ^ bytes.length := by
  induction bytes with
  | nil => simp [beNat]
  | cons b bytes ih =>
    have hb : b.toNat < 256 := b.toNat_lt
    rw [beNat_cons, List.length_cons, Nat.pow_succ]
    calc b.toNat * 256 ^ bytes.length + beNat bytes
        < b.toNat * 256 ^ bytes.length + 256 ^ bytes.length := Nat.add_lt_add_left ih _
      _ = (b.toNat + 1) * 256 ^ bytes.length := by ring
      _ ≤ 256 * 256 ^ bytes.length := Nat.mul_le_mul_right _ hb
      _ = 256 ^ bytes.length * 256 := Nat.mul_comm _ _

theorem beBytes_beNat (bytes : List UInt8) (high : Nat) :
    beBytes bytes.length (high * 256 ^ bytes.length + beNat bytes) = bytes := by
  induction bytes generalizing high with
  | nil => rfl
  | cons b bytes ih =>
    have hlow := beNat_lt bytes
    have hsplit : high * 256 ^ (bytes.length + 1) + (b.toNat * 256 ^ bytes.length + beNat bytes) =
        (high * 256 + b.toNat) * 256 ^ bytes.length + beNat bytes := by ring
    have hdiv : ((high * 256 + b.toNat) * 256 ^ bytes.length + beNat bytes) / 256 ^ bytes.length =
        high * 256 + b.toNat := by
      rw [Nat.add_comm, Nat.add_mul_div_right _ _ (Nat.pow_pos (by decide)),
        Nat.div_eq_of_lt hlow, Nat.zero_add]
    have hbyte : UInt8.ofNat (high * 256 + b.toNat) = b := by
      apply UInt8.toNat_inj.mp
      have hb : b.toNat < 256 := b.toNat_lt
      rw [UInt8.toNat_ofNat']
      omega
    rw [List.length_cons, beNat_cons, hsplit, beBytes, hdiv, hbyte, ih]

theorem beBytes_beNat_mod {bytes : List UInt8} {width size : Nat} (h : bytes.length = width)
    (hsize : 256 ^ width = size) : beBytes width (beNat bytes % size) = bytes := by
  subst h hsize
  rw [Nat.mod_eq_of_lt (beNat_lt bytes)]
  simpa using beBytes_beNat bytes 0

end Hysteria.Lib
