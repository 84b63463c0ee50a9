import Hysteria.Lib.Text

/-! The bandwidths of a configuration: `parse_bandwidth`, which `config.rs` and the mobile client
have in the same words, and what is done with its result. An error is the list of its messages,
the outermost first. -/
namespace Hysteria.App.Bandwidth
open Lib

def u64Max : Nat := 2 ^ 64 - 1

def byte : Nat := 1
def kilobyte : Nat := byte * 1000
def megabyte : Nat := kilobyte * 1000
def gigabyte : Nat := megabyte * 1000
def terabyte : Nat := gigabyte * 1000

def bandwidthUnits : List (String × Nat) :=
  [("b", byte), ("bps", byte), ("k", kilobyte), ("kb", kilobyte), ("kbps", kilobyte), ("m", megabyte),
    ("mb", megabyte), ("mbps", megabyte), ("g", gigabyte), ("gb", gigabyte), ("gbps", gigabyte), ("t", terabyte),
    ("tb", terabyte), ("tbps", terabyte)]

def unitMultiplier (unit : Text) : Option Nat :=
  (bandwidthUnits.find? fun entry => entry.1.toList = unit).map Prod.snd

def parseBandwidth (input : Text) : Except (List String) Nat :=
  let normalized := (trim input).map Char.toLower
  if normalized = [] then .ok 0
  else
    -- the loop leaves 0 where there are digits only
    let split := (normalized.findIdx? fun ch => !ch.isDigit).getD 0
    if split = 0 then .error ["invalid bandwidth format"]
    else
      match fromStrRadix 64 10 (normalized.take split) with
      | none =>
        .error ["invalid bandwidth value " ++ String.ofList (normalized.take split),
          "number too large to fit in target type"]
      | some value =>
        match unitMultiplier (trim (normalized.drop split)) with
        | none => .error ["unsupported bandwidth unit"]
        | some multiplier => .ok (min (value * multiplier) u64Max / 8)

def validateMinBandwidth (field : String) (value : Nat) : Except (List String) Unit :=
  if value ≠ 0 ∧ value < 65536 then .error [field ++ " must be at least 65536 bytes per second"] else .ok ()

/-- `parse_bandwidth_field` of the mobile client, and what the app writes out for each field. -/
def parseBandwidthField (field : String) (input : Text) : Except (List String) Nat :=
  (parseBandwidth input).mapError fun causes => ("invalid " ++ field) :: causes

def serverBandwidth (up down : Text) : Except (List String) (Nat × Nat) := do
  let bandwidthMaxTx ← parseBandwidthField "bandwidth.up" up
  let bandwidthMaxRx ← parseBandwidthField "bandwidth.down" down
  validateMinBandwidth "bandwidth.up" bandwidthMaxTx
  validateMinBandwidth "bandwidth.down" bandwidthMaxRx
  return (bandwidthMaxTx, bandwidthMaxRx)

/-- A number and a unit in any case, with blanks around them and between. -/
def Spells (input : Text) (value multiplier : Nat) : Prop :=
  ∃ (before digits between unit after : Text) (name : String),
    input = before ++ (digits ++ (between ++ unit)) ++ after ∧ (∀ c ∈ before, isWhitespace c) ∧
      (∀ c ∈ between, isWhitespace c) ∧ (∀ c ∈ after, isWhitespace c) ∧ numeral 10 digits = some value ∧
      (name, multiplier) ∈ bandwidthUnits ∧ eqIgnoreAsciiCase unit name

theorem isDigit_iff {c : Char} : c.isDigit ↔ 48 ≤ c.toNat ∧ c.toNat ≤ 57 := by
  simp only [Char.isDigit, Bool.and_eq_true, decide_eq_true_eq, ge_iff_le]
  exact Iff.rfl

theorem toLower_of_isDigit {c : Char} (h : c.isDigit) : c.toLower = c := by
  have hrange := isDigit_iff.mp h
  rcases toLower_cases c with hsame | ⟨hupper, -⟩
  · exact hsame
  · omega

theorem isDigit_of_toLower {c : Char} (h : c.toLower.isDigit) : c.isDigit := by
  have hrange := isDigit_iff.mp h
  rcases toLower_cases c with hsame | ⟨hupper, hlower⟩
  · rwa [hsame] at h
  · omega

theorem not_isDigit_of_isWhitespace {c : Char} (h : isWhitespace c) : ¬ c.isDigit := by
  have hspace := isWhitespace_range h
  rw [isDigit_iff]
  omega

theorem isDigit_of_toDigit {c : Char} (h : (toDigit 10 c).isSome) : c.isDigit := isDigit_iff.mpr (toDigit_decimal_range h)

theorem map_toLower_eq {text : Text} (h : ∀ c ∈ text, c.toLower = c) : text.map Char.toLower = text :=
  (List.map_congr_left h).trans (List.map_id text)

def unitOk (entry : String × Nat) : Bool :=
  entry.1.toList ≠ [] && entry.1.toList.all (fun c => !isWhitespace c && !c.isDigit) &&
    entry.1.toList.map Char.toLower = entry.1.toList && unitMultiplier entry.1.toList = some entry.2

theorem bandwidthUnits_ok : bandwidthUnits.all unitOk = true := by decide +kernel

structure IsUnit (name : Text) (multiplier : Nat) : Prop where
  ne_nil : name ≠ []
  plain : ∀ c ∈ name, ¬ isWhitespace c ∧ ¬ c.isDigit
  lower : name.map Char.toLower = name
  found : unitMultiplier name = some multiplier

theorem isUnit {name : String} {multiplier : Nat} (h : (name, multiplier) ∈ bandwidthUnits) :
    IsUnit name.toList multiplier := by
  have hok := List.all_eq_true.mp bandwidthUnits_ok _ h
  simp only [unitOk, Bool.and_eq_true, decide_eq_true_eq, List.all_eq_true, Bool.not_eq_true'] at hok
  obtain ⟨⟨⟨hne, hplain⟩, hlower⟩, hfound⟩ := hok
  exact ⟨hne, fun c hc => by simpa using hplain c hc, hlower, hfound⟩

theorem mem_of_unitMultiplier {unit : Text} {multiplier : Nat} (h : unitMultiplier unit = some multiplier) :
    ∃ name : String, name.toList = unit ∧ (name, multiplier) ∈ bandwidthUnits := by
  obtain ⟨⟨name, factor⟩, hfind, hfactor⟩ := Option.map_eq_some_iff.mp h
  subst hfactor
  have hname := List.find?_some hfind
  exact ⟨name, of_decide_eq_true hname, List.mem_of_find?_eq_some hfind⟩

theorem findIdx_digits {digits rest : Text} (hdigits : ∀ c ∈ digits, c.isDigit) (hne : rest ≠ [])
    (hrest : ∀ c ∈ rest.head?, ¬ c.isDigit) :
    (digits ++ rest).findIdx? (fun ch => !ch.isDigit) = some digits.length := by
  have hnone : digits.findIdx? (fun ch => !ch.isDigit) = none := by
    rw [List.findIdx?_eq_none_iff]
    intro c hc
    simp [hdigits c hc]
  cases rest with
  | nil => exact absurd rfl hne
  | cons c rest =>
    have hc := hrest c rfl
    simp [List.findIdx?_append, hnone, List.findIdx?_cons, hc]

section
variable {unit : Text} {name : String} {multiplier : Nat} (hmem : (name, multiplier) ∈ bandwidthUnits)
  (hname : eqIgnoreAsciiCase unit name)
include hmem hname

theorem map_toLower_unit : unit.map Char.toLower = name.toList :=
  (eqIgnoreAsciiCase_iff.mp hname).trans (isUnit hmem).lower

theorem unit_ne_nil : unit ≠ [] := by
  rintro rfl
  exact (isUnit hmem).ne_nil (map_toLower_unit hmem hname).symm

theorem not_isWhitespace_unit : ∀ c ∈ unit, ¬ isWhitespace c := by
  intro c hc hspace
  have hlower := List.mem_map_of_mem (f := Char.toLower) hc
  rw [map_toLower_unit hmem hname, toLower_of_isWhitespace hspace] at hlower
  exact ((isUnit hmem).plain c hlower).1 hspace

variable {before digits between after : Text} {value : Nat} (hnumeral : numeral 10 digits = some value)
  (hbetween : ∀ c ∈ between, isWhitespace c)
include hnumeral

theorem trim_spelled (hbefore : ∀ c ∈ before, isWhitespace c) (hafter : ∀ c ∈ after, isWhitespace c) :
    trim (before ++ (digits ++ (between ++ unit)) ++ after) = digits ++ (between ++ unit) := by
  obtain ⟨hne, hdigits⟩ := numeral_digits hnumeral
  apply trimBy_eq hbefore _ hafter
  constructor
  · rw [List.head?_append_of_ne_nil _ hne]
    intro c hc
    exact not_isWhitespace_of_toDigit (hdigits c (List.mem_of_mem_head? hc))
  · rw [← List.append_assoc, List.getLast?_append_of_ne_nil _ (unit_ne_nil hmem hname)]
    intro c hc
    exact not_isWhitespace_unit hmem hname c (List.mem_of_mem_getLast? hc)

include hbetween

theorem map_toLower_spelled : (digits ++ (between ++ unit)).map Char.toLower = digits ++ (between ++ name.toList) := by
  obtain ⟨-, hdigits⟩ := numeral_digits hnumeral
  rw [List.map_append, List.map_append, map_toLower_unit hmem hname,
    map_toLower_eq fun c hc => toLower_of_isDigit (isDigit_of_toDigit (hdigits c hc)),
    map_toLower_eq fun c hc => toLower_of_isWhitespace (hbetween c hc)]

omit hname

theorem findIdx_spelled :
    (digits ++ (between ++ name.toList)).findIdx? (fun ch => !ch.isDigit) = some digits.length := by
  obtain ⟨-, hdigits⟩ := numeral_digits hnumeral
  apply findIdx_digits
  · exact fun c hc => isDigit_of_toDigit (hdigits c hc)
  · exact List.append_ne_nil_of_right_ne_nil _ (isUnit hmem).ne_nil
  · intro c hc
    rcases List.mem_append.mp (List.mem_of_mem_head? hc) with hc | hc
    · exact not_isDigit_of_isWhitespace (hbetween c hc)
    · exact ((isUnit hmem).plain c hc).2

omit hnumeral

theorem trim_unit : trim (between ++ name.toList) = name.toList := by
  have hplain : Trimmed isWhitespace name.toList := .of_forall fun c hc => ((isUnit hmem).plain c hc).1
  have htrim := @trimBy_eq isWhitespace between name.toList [] hbetween hplain (by simp)
  rwa [List.append_nil] at htrim

end

theorem parseBandwidth_of_spells {input : Text} {value multiplier : Nat} (h : Spells input value multiplier)
    (hvalue : value < 2 ^ 64) : parseBandwidth input = .ok (min (value * multiplier) u64Max / 8) := by
  obtain ⟨before, digits, between, unit, after, name, rfl, hbefore, hbetween, hafter, hnumeral, hmem, hname⟩ := h
  have hne := (numeral_digits hnumeral).1
  unfold parseBandwidth
  rw [trim_spelled hmem hname hnumeral hbefore hafter, map_toLower_spelled hmem hname hnumeral hbetween]
  dsimp only
  rw [if_neg (List.append_ne_nil_of_left_ne_nil hne _), findIdx_spelled hmem hnumeral hbetween, Option.getD_some,
    if_neg (by simpa using hne), List.take_left, List.drop_left,
    fromStrRadix_of_numeral (by decide) hnumeral hvalue, trim_unit hmem hbetween, (isUnit hmem).found]

theorem spells_of_parts {input digits rest : Text} {value multiplier : Nat}
    (hparts : (trim input).map Char.toLower = digits ++ rest) (hdigits : ∀ c ∈ digits, c.isDigit)
    (hvalue : numeral 10 digits = some value) (hunit : unitMultiplier (trim rest) = some multiplier) :
    Spells input value multiplier := by
  obtain ⟨before, after, hbefore, hafter, hinput⟩ := exists_trimBy isWhitespace input
  obtain ⟨blank, blank', hblank, hblank', hrest⟩ := exists_trimBy isWhitespace rest
  obtain ⟨name, hname, hmem⟩ := mem_of_unitMultiplier hunit
  have hspace {text blank : Text} (hmap : text.map Char.toLower = blank) (hall : ∀ c ∈ blank, isWhitespace c) :
      ∀ c ∈ text, isWhitespace c := by
    subst hmap
    exact fun c hc => isWhitespace_of_toLower (hall _ (List.mem_map_of_mem hc))
  rw [hrest] at hparts
  obtain ⟨written, spaced, htrim, hwritten, hspaced⟩ := List.map_eq_append_iff.mp hparts
  obtain ⟨front, back, rfl, hfront, hback⟩ := List.map_eq_append_iff.mp hspaced
  obtain ⟨between, unit, rfl, hbetween, hunitLower⟩ := List.map_eq_append_iff.mp hfront
  have hsame : written = digits := by
    rw [← hwritten] at hdigits ⊢
    refine (map_toLower_eq fun c hc => toLower_of_isDigit (isDigit_of_toLower ?_)).symm
    exact hdigits _ (List.mem_map_of_mem hc)
  refine ⟨before, digits, between, unit, back ++ after, name, ?_, hbefore, hspace hbetween hblank, ?_, hvalue, hmem, ?_⟩
  · rw [hinput]
    change before ++ trim input ++ after = _
    rw [htrim, hsame]
    simp only [List.append_assoc]
  · exact List.forall_mem_append.mpr ⟨hspace hback hblank', hafter⟩
  · rw [eqIgnoreAsciiCase_iff, (isUnit hmem).lower, hname]
    exact hunitLower

theorem numeral_of_digits {digits : Text} {value : Nat} (hdigits : ∀ c ∈ digits, c.isDigit)
    (h : fromStrRadix 64 10 digits = some value) : numeral 10 digits = some value ∧ value < 2 ^ 64 := by
  obtain ⟨hnumeral, hfits⟩ := Option.filter_eq_some_iff.mp h
  have hplain : withoutPlus digits = digits := by
    apply if_neg
    intro hplus
    exact absurd (hdigits '+' (List.mem_of_mem_head? hplus)) (by decide)
  rw [hplain] at hnumeral
  exact ⟨hnumeral, of_decide_eq_true hfits⟩

theorem spells_of_parseBandwidth {input : Text} {result : Nat} (h : parseBandwidth input = .ok result) :
    trim input = [] ∧ result = 0 ∨
      ∃ value multiplier, Spells input value multiplier ∧ value < 2 ^ 64 ∧
        result = min (value * multiplier) u64Max / 8 := by
  unfold parseBandwidth at h
  dsimp only at h
  split at h
  · next hblank =>
    cases h
    exact .inl ⟨List.map_eq_nil_iff.mp hblank, rfl⟩
  cases hindex : ((trim input).map Char.toLower).findIdx? fun ch => !ch.isDigit with
  | none =>
    rw [hindex, Option.getD_none, if_pos rfl] at h
    cases h
  | some split =>
    rw [hindex, Option.getD_some] at h
    obtain ⟨hlt, -, hbefore⟩ := List.findIdx?_eq_some_iff_getElem.mp hindex
    have hdigits : ∀ c ∈ ((trim input).map Char.toLower).take split, c.isDigit := by
      intro c hc
      obtain ⟨j, hj, rfl⟩ := List.mem_take_iff_getElem.mp hc
      simpa using hbefore j (by omega)
    split_ifs at h
    split at h
    · cases h
    · next value hvalue =>
      split at h
      · cases h
      · next multiplier hmultiplier =>
        cases h
        obtain ⟨hnumeral, hfits⟩ := numeral_of_digits hdigits hvalue
        exact .inr ⟨value, multiplier, spells_of_parts (List.take_append_drop _ _).symm hdigits hnumeral hmultiplier,
          hfits, rfl⟩

/-- The result is the exact one if that is a positive `u64`, and an error otherwise. -/
def Exact (value multiplier : Nat) (result : Except (List String) Nat) : Prop :=
  if 1 ≤ value * multiplier / 8 ∧ value * multiplier / 8 ≤ u64Max then result = .ok (value * multiplier / 8)
  else ∃ causes, result = .error causes

/-- A bandwidth in bits a second is read exactly if it is at least 8 and fits into a `u64`. It is read as 0, which
is no limit, if it is less than 8. -/
theorem exact_iff {input : Text} {value multiplier : Nat} (h : Spells input value multiplier) (hvalue : value < 2 ^ 64) :
    (Exact value multiplier (parseBandwidth input) ↔ 8 ≤ value * multiplier ∧ value * multiplier < 2 ^ 64) ∧
      (parseBandwidth input = .ok 0 ↔ value * multiplier < 8) := by
  have hmax : u64Max = 2 ^ 64 - 1 := rfl
  rw [parseBandwidth_of_spells h hvalue]
  unfold Exact
  generalize value * multiplier = bits
  constructor
  · split_ifs with hrange
    · rw [Except.ok.injEq]
      omega
    · refine iff_of_false ?_ (by omega)
      rintro ⟨causes, ⟨⟩⟩
  · rw [Except.ok.injEq]
    omega

theorem spells_oneMbps : Spells " 1 MBps".toList 1 megabyte :=
  ⟨[' '], ['1'], [' '], "MBps".toList, [], "mbps", rfl, by simp [isWhitespace], by simp [isWhitespace], by simp,
    by decide, by decide, by decide⟩

theorem exact_oneMbps :
    Exact 1 megabyte (parseBandwidth " 1 MBps".toList) ∧ parseBandwidth " 1 MBps".toList ≠ .ok 0 := by
  obtain ⟨hexact, hzero⟩ := exact_iff spells_oneMbps (by decide)
  exact ⟨hexact.mpr (by decide), fun h => absurd (hzero.mp h) (by decide)⟩

/-- One bit a second passes as no limit, and the largest number of terabits as less than it is. -/
theorem bandwidth_not_exact :
    Spells "1 bps".toList 1 byte ∧ serverBandwidth "1 bps".toList "1 bps".toList = .ok (0, 0) ∧
      Spells "18446744073709551615 tbps".toList 18446744073709551615 terabyte ∧
      parseBandwidth "18446744073709551615 tbps".toList = .ok (2 ^ 61 - 1) := by
  refine ⟨?_, by decide +kernel, ?_, by decide +kernel⟩
  · exact ⟨[], ['1'], [' '], "bps".toList, [], "bps", rfl, by simp, by simp [isWhitespace], by simp, by decide,
      by decide, by decide⟩
  · exact ⟨[], "18446744073709551615".toList, [' '], "tbps".toList, [], "tbps", rfl, by simp, by simp [isWhitespace],
      by simp, by decide +kernel, by decide, by decide⟩

end Hysteria.App.Bandwidth
