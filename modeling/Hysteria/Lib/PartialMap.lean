import Mathlib.Tactic.Common

/-! Finite maps seen through lookup. Only `get`, `insert` and `remove` are
observable of a hash map whose iteration order is unspecified, so a map is the
function its lookup computes. -/
namespace Hysteria.Lib

def PartialMap (K : Type u) (V : Type v) := K → Option V

namespace PartialMap

variable {K : Type u} {V : Type v}

def empty : PartialMap K V := fun _ => none

def get (m : PartialMap K V) (k : K) : Option V := m k

@[ext] theorem ext {m m' : PartialMap K V} (h : ∀ k, m.get k = m'.get k) : m = m' :=
  funext h

@[simp] theorem get_empty (k : K) : (empty : PartialMap K V).get k = none := rfl

variable [DecidableEq K]

def insert (m : PartialMap K V) (k : K) (v : V) : PartialMap K V :=
  fun k' => if k' = k then some v else m k'

def remove (m : PartialMap K V) (k : K) : PartialMap K V :=
  fun k' => if k' = k then none else m k'

theorem get_insert (m : PartialMap K V) (k k' : K) (v : V) :
    (m.insert k v).get k' = if k' = k then some v else m.get k' := rfl

theorem get_remove (m : PartialMap K V) (k k' : K) :
    (m.remove k).get k' = if k' = k then none else m.get k' := rfl

@[simp] theorem get_insert_self (m : PartialMap K V) (k : K) (v : V) :
    (m.insert k v).get k = some v := by
  simp [get_insert]

@[simp] theorem get_remove_self (m : PartialMap K V) (k : K) : (m.remove k).get k = none := by
  simp [get_remove]

theorem get_insert_of_ne (m : PartialMap K V) {k k' : K} (h : k' ≠ k) (v : V) :
    (m.insert k v).get k' = m.get k' := by
  simp [get_insert, h]

theorem get_remove_of_ne (m : PartialMap K V) {k k' : K} (h : k' ≠ k) :
    (m.remove k).get k' = m.get k' := by
  simp [get_remove, h]

theorem insert_of_get {m : PartialMap K V} {k : K} {v : V} (h : m.get k = some v) :
    m.insert k v = m := by
  ext1 k'
  rw [get_insert]
  split
  · next hk => rw [hk, h]
  · rfl

theorem remove_insert (m : PartialMap K V) (k : K) (v : V) :
    (m.insert k v).remove k = m.remove k := by
  ext1 k'
  simp only [get_remove, get_insert]
  split <;> rfl

theorem get_of_get_remove {m : PartialMap K V} {k k' : K} {v : V}
    (h : (m.remove k).get k' = some v) : k' ≠ k ∧ m.get k' = some v := by
  rw [get_remove] at h
  split at h
  · contradiction
  · exact ⟨‹_›, h⟩

theorem get_of_get_insert {m : PartialMap K V} {k k' : K} {v v' : V}
    (h : (m.insert k v).get k' = some v') : k' = k ∧ v' = v ∨ k' ≠ k ∧ m.get k' = some v' := by
  rw [get_insert] at h
  split at h
  · exact .inl ⟨‹_›, (Option.some.inj h).symm⟩
  · exact .inr ⟨‹_›, h⟩

/-- A map collected from pairs, where a later pair replaces an earlier one of its key. -/
def ofPairs (pairs : List (K × V)) : PartialMap K V :=
  pairs.foldl (fun m pair => m.insert pair.1 pair.2) empty

theorem get_foldl_insert_of_notMem {pairs : List (K × V)} {k : K} (h : k ∉ pairs.map Prod.fst)
    (m : PartialMap K V) : (pairs.foldl (fun m pair => m.insert pair.1 pair.2) m).get k = m.get k := by
  induction pairs generalizing m with
  | nil => rfl
  | cons pair pairs ih =>
    rw [List.map_cons, List.mem_cons, not_or] at h
    rw [List.foldl_cons, ih h.2, get_insert_of_ne m h.1]

theorem get_ofPairs_of_notMem {pairs : List (K × V)} {k : K} (h : k ∉ pairs.map Prod.fst) :
    (ofPairs pairs).get k = none := (get_foldl_insert_of_notMem h empty).trans (get_empty k)

theorem get_ofPairs_of_mem {pairs : List (K × V)} (hnodup : (pairs.map Prod.fst).Nodup) {k : K} {v : V}
    (h : (k, v) ∈ pairs) : (ofPairs pairs).get k = some v := by
  rw [ofPairs]
  generalize empty = m
  induction pairs generalizing m with
  | nil => cases h
  | cons pair pairs ih =>
    obtain ⟨hfirst, hnodup⟩ := List.nodup_cons.mp hnodup
    rw [List.foldl_cons]
    rcases List.mem_cons.mp h with rfl | h
    · rw [get_foldl_insert_of_notMem hfirst, get_insert_self]
    · exact ih hnodup h _

end PartialMap

end Hysteria.Lib
