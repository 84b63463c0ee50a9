import Hysteria.Lib.Bytes
import Hysteria.Lib.Text

/-! Percent-encoding. Encoded text is ASCII; what it stands for is a list of bytes. -/
namespace Hysteria.Lib

def asciiText (bytes : List UInt8) : Text := bytes.map fun b => Char.ofNat b.toNat

theorem utf8_asciiText {bytes : List UInt8} (h : ∀ b ∈ bytes, b.toNat < 128) :
    utf8 (asciiText bytes) = bytes := by
  have hone : ∀ b : UInt8, b.toNat < 128 → String.utf8EncodeChar (Char.ofNat b.toNat) = [b] :=
    forall_byte (by decide +kernel)
  rw [utf8, asciiText, List.flatMap_map]
  induction bytes with
  | nil => rfl
  | cons b bytes ih =>
    rw [List.forall_mem_cons] at h
    rw [List.flatMap_cons, hone b h.1, ih h.2, List.singleton_append]

theorem forall_mem_asciiText {encode : UInt8 → List UInt8} {p : Char → Bool}
    (h : ∀ b, (asciiText (encode b)).all p) (bytes : List UInt8) :
    ∀ c ∈ asciiText (bytes.flatMap encode), p c := by
  intro c hc
  rw [asciiText, List.map_flatMap] at hc
  obtain ⟨b, -, hb⟩ := List.mem_flatMap.mp hc
  exact List.all_eq_true.mp (h b) c hb

def hexDigit (n : UInt8) : UInt8 := if n < 10 then 48 + n else 55 + n

def nibble (b : UInt8) : Option UInt8 :=
  if 48 ≤ b && b ≤ 57 then some (b - 48)
  else if 97 ≤ b && b ≤ 102 then some (b - 97 + 10)
  else if 65 ≤ b && b ≤ 70 then some (b - 65 + 10)
  else none

def percentEncodeByte (keep : UInt8 → Bool) (b : UInt8) : List UInt8 :=
  if keep b then [b] else [37, hexDigit (b >>> 4), hexDigit (b &&& 15)]

def percentEncode (keep : UInt8 → Bool) (bytes : List UInt8) : List UInt8 :=
  bytes.flatMap (percentEncodeByte keep)

def percentEncodeText (keep : UInt8 → Bool) (text : Text) : Text :=
  asciiText (percentEncode keep (utf8 text))

/-- Decoding that refuses a percent sign without two hexadecimal digits behind it. -/
def percentDecode (truncated badDigit : ε) : List UInt8 → Except ε (List UInt8)
  | [] => .ok []
  | b :: rest =>
    if b = 37 then
      match rest with
      | high :: low :: rest =>
        match nibble high, nibble low with
        | some high, some low => (percentDecode truncated badDigit rest).map ((high <<< 4 ||| low) :: ·)
        | _, _ => .error badDigit
      | _ => .error truncated
    else (percentDecode truncated badDigit rest).map (b :: ·)

/-- Decoding that takes such a percent sign as it stands. -/
def percentDecodeLenient : List UInt8 → List UInt8
  | [] => []
  | b :: rest =>
    if b = 37 then
      match rest with
      | high :: low :: rest =>
        match nibble high, nibble low with
        | some high, some low => (high <<< 4 ||| low) :: percentDecodeLenient rest
        | _, _ => 37 :: percentDecodeLenient (high :: low :: rest)
      | rest => 37 :: percentDecodeLenient rest
    else b :: percentDecodeLenient rest

inductive Unescapes : List UInt8 → List UInt8 → Prop
  | nil : Unescapes [] []
  | plain {b : UInt8} {raw bytes : List UInt8} : b ≠ 37 → Unescapes raw bytes → Unescapes (b :: raw) (b :: bytes)
  | escape {high low h l : UInt8} {raw bytes : List UInt8} : nibble high = some h → nibble low = some l →
      Unescapes raw bytes → Unescapes (37 :: high :: low :: raw) ((h <<< 4 ||| l) :: bytes)

/-- Read from the left, some percent sign does not have two hexadecimal digits behind it. -/
inductive BadEscape : List UInt8 → Prop
  | here {rest : List UInt8} :
      (∀ high low more, rest = high :: low :: more → nibble high = none ∨ nibble low = none) → BadEscape (37 :: rest)
  | plain {b : UInt8} {rest : List UInt8} : b ≠ 37 → BadEscape rest → BadEscape (b :: rest)
  | escape {high low h l : UInt8} {rest : List UInt8} : nibble high = some h → nibble low = some l →
      BadEscape rest → BadEscape (37 :: high :: low :: rest)

section
variable {keep : UInt8 → Bool} {raw bytes : List UInt8}

theorem Unescapes.encodeByte {b : UInt8} (h : keep b → b ≠ 37) (hraw : Unescapes raw bytes) :
    Unescapes (percentEncodeByte keep b ++ raw) (b :: bytes) := by
  have hhigh : ∀ b : UInt8, nibble (hexDigit (b >>> 4)) = some (b >>> 4) :=
    forall_byte (by decide +kernel)
  have hlow : ∀ b : UInt8, nibble (hexDigit (b &&& 15)) = some (b &&& 15) :=
    forall_byte (by decide +kernel)
  have hjoin : ∀ b : UInt8, (b >>> 4) <<< 4 ||| (b &&& 15) = b := forall_byte (by decide +kernel)
  rw [percentEncodeByte]
  split
  case isTrue hkeep => exact .plain (h hkeep) hraw
  case isFalse =>
    have hescape := hraw.escape (hhigh b) (hlow b)
    rw [hjoin] at hescape
    exact hescape

theorem unescapes_percentEncode (h : keep 37 = false) (bytes : List UInt8) :
    Unescapes (percentEncode keep bytes) bytes := by
  induction bytes with
  | nil => exact .nil
  | cons b bytes ih =>
    have hb : keep b → b ≠ 37 := by
      rintro hkeep rfl
      rw [h] at hkeep
      cases hkeep
    rw [percentEncode, List.flatMap_cons]
    exact ih.encodeByte hb

theorem Unescapes.reencoded (hpercent : keep 37) (hdigits : ∀ b, (nibble b).isSome → keep b)
    (h : Unescapes raw bytes) : Unescapes (percentEncode keep raw) bytes := by
  have hkept {b : UInt8} (hb : keep b) (rest : List UInt8) :
      percentEncode keep (b :: rest) = b :: percentEncode keep rest := by
    rw [percentEncode, List.flatMap_cons, percentEncodeByte, if_pos hb]
    rfl
  induction h with
  | nil => exact .nil
  | plain hb _ ih =>
    rw [percentEncode, List.flatMap_cons]
    exact ih.encodeByte fun _ => hb
  | escape hhigh hlow _ ih =>
    rw [hkept hpercent, hkept (hdigits _ (by rw [hhigh]; rfl)), hkept (hdigits _ (by rw [hlow]; rfl))]
    exact ih.escape hhigh hlow

theorem unescapes_of_notMem (h : 37 ∉ bytes) : Unescapes bytes bytes := by
  induction bytes with
  | nil => exact .nil
  | cons b bytes ih =>
    rw [List.mem_cons, not_or] at h
    exact .plain (Ne.symm h.1) (ih h.2)

theorem BadEscape.not_unescapes (h : BadEscape raw) : ¬ Unescapes raw bytes := by
  induction h generalizing bytes with
  | here hbad =>
    intro hraw
    cases hraw with
    | plain hb => exact hb rfl
    | escape hhigh hlow =>
      rcases hbad _ _ _ rfl with hnone | hnone
      · rw [hhigh] at hnone
        cases hnone
      · rw [hlow] at hnone
        cases hnone
  | plain hb _ ih =>
    intro hraw
    cases hraw with
    | plain _ hrest => exact ih hrest
    | escape => exact hb rfl
  | escape _ _ _ ih =>
    intro hraw
    cases hraw with
    | plain hb => exact hb rfl
    | escape _ _ hrest => exact ih hrest

theorem unescapes_or_badEscape (raw : List UInt8) : (∃ bytes, Unescapes raw bytes) ∨ BadEscape raw := by
  fun_induction percentDecode () () raw with
  | case1 => exact .inl ⟨[], .nil⟩
  | case2 high low rest h l hlow hhigh ih =>
    exact ih.imp (fun ⟨bytes, hbytes⟩ => ⟨_, .escape hhigh hlow hbytes⟩) (.escape hhigh hlow)
  | case3 high low rest hdigits =>
    refine .inr (.here ?_)
    rintro _ _ _ ⟨⟩
    cases hhigh : nibble high with
    | none => exact .inl rfl
    | some h =>
      cases hlow : nibble low with
      | none => exact .inr rfl
      | some l => exact (hdigits h l hhigh hlow).elim
  | case4 rest hrest => exact .inr (.here fun high low more heq => (hrest high low more heq).elim)
  | case5 b rest hb ih => exact ih.imp (fun ⟨bytes, hbytes⟩ => ⟨_, .plain hb hbytes⟩) (.plain hb)

variable {ε : Type u} {truncated badDigit : ε}

theorem Unescapes.percentDecode (h : Unescapes raw bytes) : percentDecode truncated badDigit raw = .ok bytes := by
  induction h with
  | nil => rfl
  | plain hb _ ih =>
    unfold Lib.percentDecode
    rw [if_neg hb, ih]
    rfl
  | escape hhigh hlow _ ih =>
    rw [Lib.percentDecode, if_pos rfl]
    simp only [hhigh, hlow, ih]
    rfl

theorem percentDecode_eq_ok_iff : percentDecode truncated badDigit raw = .ok bytes ↔ Unescapes raw bytes := by
  have hmap {result : Except ε (List UInt8)} {b : UInt8} {bytes : List UInt8} (h : result.map (b :: ·) = .ok bytes) :
      ∃ rest, result = .ok rest ∧ b :: rest = bytes := by
    cases result with
    | error e => cases h
    | ok rest => exact ⟨rest, rfl, Except.ok.inj h⟩
  constructor
  · intro h
    fun_induction Lib.percentDecode truncated badDigit raw generalizing bytes with
    | case1 =>
      cases h
      exact .nil
    | case2 high low rest h' l' hlow hhigh ih =>
      obtain ⟨decoded, hdecoded, rfl⟩ := hmap h
      exact .escape hhigh hlow (ih hdecoded)
    | case3 => cases h
    | case4 => cases h
    | case5 b rest hb ih =>
      obtain ⟨decoded, hdecoded, rfl⟩ := hmap h
      exact .plain hb (ih hdecoded)
  · exact Unescapes.percentDecode

theorem Unescapes.unique {bytes' : List UInt8} (h : Unescapes raw bytes) (h' : Unescapes raw bytes') :
    bytes = bytes' := by
  have hok : Lib.percentDecode () () raw = .ok bytes := h.percentDecode
  rw [h'.percentDecode] at hok
  exact (Except.ok.inj hok).symm

theorem Unescapes.percentDecodeLenient (h : Unescapes raw bytes) : percentDecodeLenient raw = bytes := by
  induction h with
  | nil => rfl
  | plain hb _ ih =>
    unfold Lib.percentDecodeLenient
    rw [if_neg hb, ih]
  | escape hhigh hlow _ ih =>
    rw [Lib.percentDecodeLenient, if_pos rfl]
    simp only [hhigh, hlow, ih]

end

theorem utf8_percentEncodeText {keep : UInt8 → Bool} (h : ∀ b, keep b → b.toNat < 128) (text : Text) :
    utf8 (percentEncodeText keep text) = percentEncode keep (utf8 text) := by
  have hhex : ∀ b : UInt8, (hexDigit (b >>> 4)).toNat < 128 ∧ (hexDigit (b &&& 15)).toNat < 128 :=
    forall_byte (by decide +kernel)
  apply utf8_asciiText
  intro e he
  obtain ⟨b, -, hb⟩ := List.mem_flatMap.mp he
  rw [percentEncodeByte] at hb
  split at hb
  case isTrue hkeep => exact List.mem_singleton.mp hb ▸ h b hkeep
  case isFalse =>
    simp only [List.mem_cons, List.not_mem_nil, or_false] at hb
    rcases hb with rfl | rfl | rfl
    · decide
    · exact (hhex b).1
    · exact (hhex b).2

inductive EscapedText (keep : UInt8 → Bool) : Text → Prop
  | nil : EscapedText keep []
  | kept {c : Char} {text : Text} : c.toNat < 128 → keep (UInt8.ofNat c.toNat) → EscapedText keep text →
      EscapedText keep (c :: text)
  | escape {high low : Char} {text : Text} : high ∈ "0123456789ABCDEF".toList → low ∈ "0123456789ABCDEF".toList →
      EscapedText keep text → EscapedText keep ('%' :: high :: low :: text)

theorem escapedText_percentEncodeText {keep : UInt8 → Bool} (h : ∀ b, keep b → b.toNat < 128) (text : Text) :
    EscapedText keep (percentEncodeText keep text) := by
  have hdigit : ∀ n : UInt8, n < 16 → Char.ofNat (hexDigit n).toNat ∈ "0123456789ABCDEF".toList :=
    forall_byte (by decide +kernel)
  have hnibbles : ∀ b : UInt8, b >>> 4 < 16 ∧ b &&& 15 < 16 := forall_byte (by decide +kernel)
  have hascii : ∀ b : UInt8, b.toNat < 128 → (Char.ofNat b.toNat).toNat = b.toNat := forall_byte (by decide +kernel)
  rw [percentEncodeText, percentEncode]
  generalize utf8 text = bytes
  induction bytes with
  | nil => exact .nil
  | cons b bytes ih =>
    rw [List.flatMap_cons, asciiText, List.map_append, ← asciiText, ← asciiText, percentEncodeByte]
    split
    case isTrue hkeep =>
      have hb := hascii b (h b hkeep)
      refine .kept (hb ▸ h b hkeep) ?_ ih
      rw [hb, UInt8.ofNat_toNat]
      exact hkeep
    case isFalse => exact .escape (hdigit _ (hnibbles b).1) (hdigit _ (hnibbles b).2) ih

theorem percentEncodeText_eq_nil {keep : UInt8 → Bool} {text : Text} :
    percentEncodeText keep text = [] ↔ text = [] := by
  have hbyte : ∀ b, percentEncodeByte keep b ≠ [] := by
    intro b
    rw [percentEncodeByte]
    split
    · exact List.cons_ne_nil _ _
    · exact List.cons_ne_nil _ _
  constructor
  · intro h
    by_contra hne
    obtain ⟨b, bytes, hbytes⟩ := List.exists_cons_of_ne_nil (utf8_ne_nil hne)
    rw [percentEncodeText, asciiText, List.map_eq_nil_iff, percentEncode, hbytes, List.flatMap_cons,
      List.append_eq_nil_iff] at h
    exact hbyte b h.1
  · rintro rfl
    rfl

theorem percentEncodeText_of_keep {keep : UInt8 → Bool} {text : Text}
    (h : ∀ c ∈ text, c.toNat < 128 ∧ keep (UInt8.ofNat c.toNat)) : percentEncodeText keep text = text := by
  induction text with
  | nil => rfl
  | cons c text ih =>
    obtain ⟨⟨hc, hkeep⟩, hrest⟩ := List.forall_mem_cons.mp h
    have htext : asciiText ((utf8 text).flatMap (percentEncodeByte keep)) = text := ih hrest
    rw [percentEncodeText, percentEncode, utf8, List.flatMap_cons, utf8EncodeChar_of_lt hc, List.singleton_append,
      List.flatMap_cons, percentEncodeByte, if_pos hkeep, List.singleton_append, asciiText, List.map_cons,
      ofNat_toNat_ofNat_toNat hc, ← asciiText, ← utf8, htext]

end Hysteria.Lib
