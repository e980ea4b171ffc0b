import Bblib.ByteStrings
import Bblib.FormText
import Mathlib.Tactic

/-!
# `urlEncode`

`BinanceBeast::urlEncode` with `to_hex`, and what its text decodes to.  The
characters are signed, so both halves of a byte from 128 on are computed with
its sign bits in them.
-/

namespace Bblib

/-! ## The encoder -/

def toHex (x : UInt8) : UInt8 :=
  x + (if x > 9 then 65 - 10 else 48)

/-- `*ci >> 4`, narrowed to the parameter of `to_hex`. -/
def highNibble (ci : Int8) : UInt8 := (ci >>> 4).toUInt8

/-- `*ci % 16`, narrowed to the parameter of `to_hex`. -/
def lowNibble (ci : Int8) : UInt8 := (ci % 16).toUInt8

def urlEncodeChar (ci : Int8) : Str :=
  if (97 ≤ ci ∧ ci ≤ 122) ∨ (65 ≤ ci ∧ ci ≤ 90) ∨ (48 ≤ ci ∧ ci ≤ 57) then
    [ci.toUInt8]
  else if ci = 32 then ascii "+"
  else ascii "%" ++ [toHex (highNibble ci)] ++ [toHex (lowNibble ci)]

def urlEncode (s : Str) : Str :=
  s.foldl (fun os c => os ++ urlEncodeChar c.toInt8) []

/-! ## The arithmetic of one byte -/

theorem toNat_highNibble (byte : UInt8) :
    (highNibble byte.toInt8).toNat =
      if byte.toNat < 128 then byte.toNat / 16 else byte.toNat / 16 + 240 := by
  apply forall_byte _ byte
  decide +kernel

theorem toNat_lowNibble (byte : UInt8) :
    (lowNibble byte.toInt8).toNat =
      if byte.toNat < 128 ∨ byte.toNat % 16 = 0 then byte.toNat % 16
      else byte.toNat % 16 + 240 := by
  apply forall_byte _ byte
  decide +kernel

theorem toNat_toHex (x : UInt8) :
    (toHex x).toNat =
      if x.toNat ≤ 9 then x.toNat + 48 else (x.toNat + 55) % 256 := by
  have hx : x.toNat < 256 := x.toNat_lt
  have hiff : x > 9 ↔ ¬ x.toNat ≤ 9 := by
    rw [gt_iff_lt, UInt8.lt_iff_toNat_lt]
    simp
  unfold toHex
  by_cases hle : x.toNat ≤ 9
  · have hgt : ¬ x > 9 := fun h => hiff.mp h hle
    rw [if_neg hgt, if_pos hle, UInt8.toNat_add]
    simp only [UInt8.reduceToNat]
    omega
  · have hgt : x > 9 := hiff.mpr hle
    rw [if_pos hgt, if_neg hle, UInt8.toNat_add]
    rfl

theorem digitValue_toHex {x : UInt8} (hx : x.toNat < 16) :
    HexText.digitValue (toHex x) = some x.toNat := by
  have htext := toNat_toHex x
  unfold HexText.digitValue
  by_cases hle : x.toNat ≤ 9
  · rw [if_pos hle] at htext
    rw [htext, if_pos (by omega)]
    simp
  · rw [if_neg hle, Nat.mod_eq_of_lt (by omega)] at htext
    rw [htext, if_neg (by omega), if_neg (by omega), if_pos (by omega)]
    simp

theorem hexByte_of_lt {byte : UInt8} (hbyte : byte.toNat < 128) :
    FormText.hexByte (toHex (highNibble byte.toInt8))
      (toHex (lowNibble byte.toInt8)) = some byte := by
  have hhigh := toNat_highNibble byte
  have hlow := toNat_lowNibble byte
  rw [if_pos hbyte] at hhigh
  rw [if_pos (.inl hbyte)] at hlow
  have hhighDigit := digitValue_toHex (x := highNibble byte.toInt8) (by omega)
  have hlowDigit := digitValue_toHex (x := lowNibble byte.toInt8) (by omega)
  unfold FormText.hexByte
  rw [hhighDigit, hlowDigit, hhigh, hlow]
  simp only [HexText.ofNat_halves]

/-- The sign bits make the first digit nine too small, so the byte read back
is never the one written. -/
theorem hexByte_ne_of_le {byte : UInt8} (hbyte : 128 ≤ byte.toNat) :
    FormText.hexByte (toHex (highNibble byte.toInt8))
      (toHex (lowNibble byte.toInt8)) ≠ some byte := by
  have hlt : byte.toNat < 256 := byte.toNat_lt
  have hhigh := toNat_highNibble byte
  rw [if_neg (by omega)] at hhigh
  have hdigit := toNat_toHex (highNibble byte.toInt8)
  rw [if_neg (by omega)] at hdigit
  intro heq
  unfold FormText.hexByte at heq
  cases hread : HexText.digitValue (toHex (highNibble byte.toInt8)) with
  | none => simp [hread] at heq
  | some h =>
      have hsmall : h + 9 = byte.toNat / 16 := by
        unfold HexText.digitValue at hread
        grind
      cases hreadLow : HexText.digitValue (toHex (lowNibble byte.toInt8)) with
      | none => simp [hread, hreadLow] at heq
      | some l =>
          have hl : l < 16 := HexText.digitValue_lt hreadLow
          have hvalue : UInt8.ofNat (16 * h + l) = byte := by
            simpa [hread, hreadLow] using heq
          have hnat := congrArg UInt8.toNat hvalue
          rw [UInt8.toNat_ofNat', Nat.mod_eq_of_lt (by omega)] at hnat
          omega

/-! ## Decoding the text -/

theorem urlEncode_eq_flatMap (s : Str) :
    urlEncode s = s.flatMap fun c => urlEncodeChar c.toInt8 := by
  have hloop : ∀ (chars os : Str),
      chars.foldl (fun os c => os ++ urlEncodeChar c.toInt8) os =
        os ++ chars.flatMap fun c => urlEncodeChar c.toInt8 := by
    intro chars
    induction chars with
    | nil => simp
    | cons c chars ih =>
        intro os
        rw [List.foldl_cons, ih, List.flatMap_cons, List.append_assoc]
  exact hloop s []

/-- A character is written as itself only when it is a letter or a digit, as
`+` only when it is a space, and is escaped otherwise. -/
theorem urlEncodeChar_cases (c : UInt8) :
    (urlEncodeChar c.toInt8 = [c] ∧ 48 ≤ c.toNat ∧ c.toNat < 128) ∨
      (urlEncodeChar c.toInt8 = [FormText.plus] ∧ c = FormText.space) ∨
        urlEncodeChar c.toInt8 = [FormText.percent,
          toHex (highNibble c.toInt8), toHex (lowNibble c.toInt8)] := by
  apply forall_byte _ c
  decide +kernel

theorem denotes_urlEncodeChar {c : UInt8} (hc : c.toNat < 128) :
    FormText.Denotes (urlEncodeChar c.toInt8) c := by
  rcases urlEncodeChar_cases c with ⟨hself, hlower, _⟩ | ⟨hplus, hspace⟩ | hescape
  · have hne : ∀ d : UInt8, d.toNat < 48 → c ≠ d := by
      intro d hd heq
      rw [heq] at hlower
      omega
    rw [hself]
    exact FormText.denotes_self (hne _ (by decide)) (hne _ (by decide))
  · rw [hplus, hspace]
    exact FormText.denotes_plus
  · rw [hescape]
    exact FormText.denotes_escape (hexByte_of_lt hc)

theorem decode_urlEncodeChar_ne {c : UInt8} (hc : 128 ≤ c.toNat)
    (rest bytes : Str) :
    FormText.decode (urlEncodeChar c.toInt8 ++ rest) ≠ some (c :: bytes) := by
  rcases urlEncodeChar_cases c with ⟨_, _, hupper⟩ | ⟨_, hspace⟩ | hescape
  · omega
  · rw [hspace] at hc
    exact absurd hc (by decide)
  · rw [hescape]
    exact FormText.decode_escape_ne (hexByte_ne_of_le hc) rest bytes

theorem decode_urlEncode {s : Str} (hs : ∀ c ∈ s, c.toNat < 128) :
    FormText.decode (urlEncode s) = some s := by
  rw [urlEncode_eq_flatMap]
  exact FormText.decode_flatMap fun c hc => denotes_urlEncodeChar (hs c hc)

theorem lt_of_decode_urlEncode {s : Str}
    (hdecode : FormText.decode (urlEncode s) = some s) :
    ∀ c ∈ s, c.toNat < 128 := by
  rw [urlEncode_eq_flatMap] at hdecode
  induction s with
  | nil => simp
  | cons c s ih =>
      rw [List.flatMap_cons] at hdecode
      have hc : c.toNat < 128 := by
        by_contra hle
        exact decode_urlEncodeChar_ne (by omega) _ _ hdecode
      rw [denotes_urlEncodeChar hc] at hdecode
      have htail : FormText.decode
          (s.flatMap fun c => urlEncodeChar c.toInt8) = some s := by
        simpa using hdecode
      intro other hother
      rcases List.mem_cons.mp hother with rfl | hmem
      · exact hc
      · exact ih htail other hmem

theorem urlEncode_injOn_ascii :
    Set.InjOn urlEncode {s : Str | ∀ c ∈ s, c.toNat < 128} :=
  FormText.injOn_of_decode fun _ hs => decode_urlEncode hs

/-! ## Strings that are written alike -/

/-- The characters that are written in one byte: the digits, the letters and
the space. -/
def Unescaped (n : Nat) : Prop :=
  n = 32 ∨ (48 ≤ n ∧ n ≤ 57) ∨ (65 ≤ n ∧ n ≤ 90) ∨ (97 ≤ n ∧ n ≤ 122)

instance (n : Nat) : Decidable (Unescaped n) := by
  unfold Unescaped
  infer_instance

/-- The bytes that are escaped like another one.  From 128 on a digit is the
one of a nibble nine smaller, and a zero in the low nibble is written as `0`
like a nine. -/
def SharesEscape (c : UInt8) : Prop :=
  (c.toNat < 128 ∧ ¬ Unescaped c.toNat ∧ c.toNat / 16 ≤ 6 ∧ c.toNat % 16 ≤ 6) ∨
    (128 ≤ c.toNat ∧ (c.toNat % 16 = 0 ∨ c.toNat % 16 = 9 ∨
      (9 < c.toNat % 16 ∧ 144 ≤ c.toNat ∧ ¬ Unescaped (c.toNat - 153))))

instance (c : UInt8) : Decidable (SharesEscape c) := by
  unfold SharesEscape
  infer_instance

/-- One of the bytes that are escaped like a shared one. -/
def escapeTwin (c : UInt8) : UInt8 :=
  if c.toNat < 128 then c + 153
  else if c.toNat % 16 = 0 then c + 9
  else if c.toNat % 16 = 9 then c - 9
  else c - 153

theorem SharesEscape.twin {c : UInt8} (hc : SharesEscape c) :
    urlEncodeChar (escapeTwin c).toInt8 = urlEncodeChar c.toInt8 ∧
      escapeTwin c ≠ c := by
  revert hc
  apply forall_byte _ c
  decide +kernel

theorem piece_urlEncodeChar (c : UInt8) : FormText.Piece (urlEncodeChar c.toInt8) := by
  rcases urlEncodeChar_cases c with ⟨hself, hlower, _⟩ | ⟨hplus, _⟩ | hescape
  · rw [hself]
    apply FormText.Piece.plain
    rintro rfl
    exact absurd hlower (by decide)
  · rw [hplus]
    exact .plain (by decide)
  · rw [hescape]
    exact .escape _ _

theorem length_urlEncodeChar (c : UInt8) :
    (urlEncodeChar c.toInt8).length = if Unescaped c.toNat then 1 else 3 := by
  apply forall_byte _ c
  decide +kernel

theorem toNat_highDigit (c : UInt8) :
    (toHex (highNibble c.toInt8)).toNat =
      if c.toNat < 128 then c.toNat / 16 + 48 else c.toNat / 16 + 39 := by
  have hlt : c.toNat < 256 := c.toNat_lt
  rw [toNat_toHex, toNat_highNibble]
  split <;> split <;> omega

theorem toNat_lowDigit (c : UInt8) :
    (toHex (lowNibble c.toInt8)).toNat =
      if c.toNat % 16 = 0 then 48
      else if 128 ≤ c.toNat then c.toNat % 16 + 39
      else if c.toNat % 16 ≤ 9 then c.toNat % 16 + 48 else c.toNat % 16 + 55 := by
  rw [toNat_toHex, toNat_lowNibble]
  grind

theorem urlEncodeChar_of_not_unescaped {c : UInt8} (hc : ¬ Unescaped c.toNat) :
    urlEncodeChar c.toInt8 = [FormText.percent,
      toHex (highNibble c.toInt8), toHex (lowNibble c.toInt8)] := by
  have hlength := length_urlEncodeChar c
  rw [if_neg hc] at hlength
  rcases urlEncodeChar_cases c with ⟨hself, _⟩ | ⟨hplus, _⟩ | hescape
  · simp [hself] at hlength
  · simp [hplus] at hlength
  · exact hescape

theorem not_unescaped_of_le {n : Nat} (hn : 128 ≤ n) : ¬ Unescaped n := by
  unfold Unescaped
  omega

theorem eq_of_digits_eq {c other : UInt8} (hshares : ¬ SharesEscape c)
    (hc : ¬ Unescaped c.toNat) (hother : ¬ Unescaped other.toNat)
    (hhigh : toHex (highNibble other.toInt8) = toHex (highNibble c.toInt8))
    (hlow : toHex (lowNibble other.toInt8) = toHex (lowNibble c.toInt8)) :
    other = c := by
  have hclt : c.toNat < 256 := c.toNat_lt
  have hotherlt : other.toNat < 256 := other.toNat_lt
  have hhighNat := congrArg UInt8.toNat hhigh
  have hlowNat := congrArg UInt8.toNat hlow
  rw [toNat_highDigit, toNat_highDigit] at hhighNat
  rw [toNat_lowDigit, toNat_lowDigit] at hlowNat
  apply UInt8.toNat_inj.mp
  by_cases hascii : c.toNat < 128
  · rw [if_pos hascii] at hhighNat
    by_cases hotherAscii : other.toNat < 128
    · rw [if_pos hotherAscii] at hhighNat
      grind
    · rw [if_neg hotherAscii] at hhighNat
      have hnibbles : c.toNat / 16 ≤ 6 ∧ c.toNat % 16 ≤ 6 := by grind
      exact absurd (.inl ⟨hascii, hc, hnibbles⟩) hshares
  · rw [if_neg hascii] at hhighNat
    have hle : 128 ≤ c.toNat := Nat.not_lt.mp hascii
    have hzero : c.toNat % 16 ≠ 0 := fun h => hshares (.inr ⟨hle, .inl h⟩)
    have hnine : c.toNat % 16 ≠ 9 :=
      fun h => hshares (.inr ⟨hle, .inr (.inl h)⟩)
    by_cases hotherAscii : other.toNat < 128
    · rw [if_pos hotherAscii] at hhighNat
      have htwin : other.toNat = c.toNat - 153 ∧ 9 < c.toNat % 16 ∧
          144 ≤ c.toNat := by
        grind
      rw [htwin.1] at hother
      exact absurd (.inr ⟨hle, .inr (.inr ⟨htwin.2.1, htwin.2.2, hother⟩)⟩)
        hshares
    · rw [if_neg hotherAscii] at hhighNat
      grind

theorem eq_of_urlEncodeChar_eq {c other : UInt8} (hshares : ¬ SharesEscape c)
    (heq : urlEncodeChar other.toInt8 = urlEncodeChar c.toInt8) : other = c := by
  by_cases hascii : c.toNat < 128 ∧ other.toNat < 128
  · have hc := denotes_urlEncodeChar hascii.1 []
    have hother := denotes_urlEncodeChar hascii.2 []
    rw [heq, hc] at hother
    simpa using hother.symm
  · have hlength := length_urlEncodeChar other
    rw [heq, length_urlEncodeChar c] at hlength
    have hboth : ¬ Unescaped c.toNat ∧ ¬ Unescaped other.toNat := by
      rcases not_and_or.mp hascii with hle | hle
      · have hc := not_unescaped_of_le (Nat.not_lt.mp hle)
        simp_all
      · have hother := not_unescaped_of_le (Nat.not_lt.mp hle)
        simp_all
    rw [urlEncodeChar_of_not_unescaped hboth.1,
      urlEncodeChar_of_not_unescaped hboth.2] at heq
    simp only [List.cons.injEq, true_and, and_true] at heq
    exact eq_of_digits_eq hshares hboth.1 hboth.2 heq.1 heq.2

theorem eq_of_map_urlEncodeChar_eq {s : Str} (hs : ∀ c ∈ s, ¬ SharesEscape c)
    {t : Str} (hmap : (t.map fun c => urlEncodeChar c.toInt8) =
      s.map fun c => urlEncodeChar c.toInt8) : t = s := by
  induction s generalizing t with
  | nil => simpa using hmap
  | cons c s ih =>
      cases t with
      | nil => simp at hmap
      | cons other t =>
          rw [List.map_cons, List.map_cons, List.cons.injEq] at hmap
          have hhead := eq_of_urlEncodeChar_eq (hs c (by simp)) hmap.1
          have htail := ih (fun d hd => hs d (by simp [hd])) hmap.2
          rw [hhead, htail]

theorem eq_of_urlEncode_eq {s : Str} (hs : ∀ c ∈ s, ¬ SharesEscape c) {t : Str}
    (heq : urlEncode t = urlEncode s) : t = s := by
  rw [urlEncode_eq_flatMap, urlEncode_eq_flatMap] at heq
  exact eq_of_map_urlEncodeChar_eq hs
    (FormText.map_eq_of_flatMap_eq piece_urlEncodeChar heq)

/-- Changing one shared byte for its twin changes the string but not what is
written. -/
theorem exists_twin_of_shared {s : Str} {c : UInt8} (hmem : c ∈ s)
    (hshares : SharesEscape c) : ∃ t, urlEncode t = urlEncode s ∧ t ≠ s := by
  obtain ⟨before, after, rfl⟩ := List.append_of_mem hmem
  refine ⟨before ++ escapeTwin c :: after, ?_, ?_⟩
  · simp only [urlEncode_eq_flatMap, List.flatMap_append, List.flatMap_cons,
      hshares.twin.1]
  · simpa using hshares.twin.2

/-- The text of `urlEncode` decodes to the string exactly when all its bytes
are ASCII, and is the text of no other string exactly when none of its bytes
shares its escape. -/
theorem urlEncode_roundtrips_iff (s : Str) :
    (FormText.decode (urlEncode s) = some s ↔ ∀ c ∈ s, c.toNat < 128) ∧
      ((∀ t, urlEncode t = urlEncode s → t = s) ↔
        ∀ c ∈ s, ¬ SharesEscape c) := by
  constructor
  · exact ⟨lt_of_decode_urlEncode, decode_urlEncode⟩
  · constructor
    · intro halone c hmem hshares
      obtain ⟨t, heq, hne⟩ := exists_twin_of_shared hmem hshares
      exact hne (halone t heq)
    · intro hs t heq
      exact eq_of_urlEncode_eq hs heq

/-- A letter with an accent is not read back, and two letters of the Latin
alphabet's extension are written alike. -/
theorem urlEncode_loses_accents :
    FormText.decode (urlEncode [0xC3, 0xA9]) ≠ some [0xC3, 0xA9] ∧
      urlEncode [0xC4, 0x80] = urlEncode [0xC4, 0x89] := by
  decide

/-! ## Delimiters -/

/-- The characters that separate the parts of a target. -/
def delimiters : Str := [ampersand, equalsSign, questionMark, numberSign]

theorem not_mem_urlEncode {d : UInt8} (hd : d ∈ delimiters) (s : Str) :
    d ∉ urlEncode s := by
  have hall : ∀ c : UInt8, (urlEncodeChar c.toInt8).all
      (fun x => !delimiters.contains x) = true := by
    apply forall_byte
    decide +kernel
  rw [urlEncode_eq_flatMap, List.mem_flatMap]
  rintro ⟨c, _, hmem⟩
  have hfree := List.all_eq_true.mp (hall c) d hmem
  simp [hd] at hfree

end Bblib
