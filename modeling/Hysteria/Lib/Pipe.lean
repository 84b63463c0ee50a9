import Mathlib.Tactic.Common

/-! A pipe that loses and reorders nothing. It keeps everything that was ever written to it,
so that what its reader has seen and what is still under way are parts of one list. -/
namespace Hysteria.Lib

structure Pipe (α : Type u) where
  sent : List α
  read : Nat
  finished : Bool
  read_le : read ≤ sent.length
deriving DecidableEq

namespace Pipe
variable {α : Type u} (p : Pipe α)

def empty : Pipe α := ⟨[], 0, false, Nat.le_refl 0⟩

def taken : List α := p.sent.take p.read

def pending : List α := p.sent.drop p.read

def write (items : List α) : Pipe α where
  sent := p.sent ++ items
  read := p.read
  finished := p.finished
  read_le := by
    rw [List.length_append]
    exact Nat.le_add_right_of_le p.read_le

def take (n : Nat) : Pipe α where
  sent := p.sent
  read := min (p.read + n) p.sent.length
  finished := p.finished
  read_le := Nat.min_le_right _ _

def finish : Pipe α := { p with finished := true }

theorem taken_append_pending : p.taken ++ p.pending = p.sent := List.take_append_drop _ _

@[simp] theorem sent_empty : (empty : Pipe α).sent = [] := rfl

@[simp] theorem taken_empty : (empty : Pipe α).taken = [] := rfl

@[simp] theorem pending_empty : (empty : Pipe α).pending = [] := rfl

@[simp] theorem finished_empty : (empty : Pipe α).finished = false := rfl

@[simp] theorem sent_write (items : List α) : (p.write items).sent = p.sent ++ items := rfl

@[simp] theorem taken_write (items : List α) : (p.write items).taken = p.taken :=
  List.take_append_of_le_length p.read_le

@[simp] theorem pending_write (items : List α) : (p.write items).pending = p.pending ++ items :=
  List.drop_append_of_le_length p.read_le

@[simp] theorem finished_write (items : List α) : (p.write items).finished = p.finished := rfl

@[simp] theorem sent_take (n : Nat) : (p.take n).sent = p.sent := rfl

@[simp] theorem taken_take (n : Nat) : (p.take n).taken = p.taken ++ p.pending.take n := by
  rw [taken, taken, pending, take]
  dsimp only
  rw [← List.take_eq_take_min, List.take_add]

@[simp] theorem pending_take (n : Nat) : (p.take n).pending = p.pending.drop n := by
  rw [pending, pending, take]
  dsimp only
  rw [List.drop_drop, ← List.drop_eq_drop_min]

@[simp] theorem finished_take (n : Nat) : (p.take n).finished = p.finished := rfl

@[simp] theorem sent_finish : p.finish.sent = p.sent := rfl

@[simp] theorem taken_finish : p.finish.taken = p.taken := rfl

@[simp] theorem pending_finish : p.finish.pending = p.pending := rfl

@[simp] theorem finished_finish : p.finish.finished = true := rfl

theorem taken_isPrefix : p.taken <+: p.sent := ⟨p.pending, p.taken_append_pending⟩

end Pipe
end Hysteria.Lib
