import Bblib.HexText
import Mathlib.Data.List.Basic
import Mathlib.InformationTheory.Coding.UniquelyDecodable
import Mathlib.Tactic

/-!
# Form-encoded texts

The decoder of form encoding: `+` is a space, `%` and two hexadecimal digits
are the byte they denote, every other byte is itself, and a `%` without two
digits behind it is an error.  A writer that gives each byte a piece of text
denoting it is undone by the decoder, whatever the pieces are.
-/

namespace FormText

def plus : UInt8 := 43

def percent : UInt8 := 37

def space : UInt8 := 32

def hexByte (high low : UInt8) : Option UInt8 :=
  match HexText.digitValue high, HexText.digitValue low with
  | some h, some l => some (UInt8.ofNat (16 * h + l))
  | _, _ => none

def decode : List UInt8 → Option (List UInt8)
  | [] => some []
  | c :: rest =>
      if c = plus then (decode rest).map (space :: ·)
      else if c = percent then
        match rest with
        | high :: low :: rest =>
            match hexByte high low with
            | some byte => (decode rest).map (byte :: ·)
            | none => none
        | _ => none
      else (decode rest).map (c :: ·)

/-- A piece of text that the decoder reads as one byte, whatever follows. -/
def Denotes (piece : List UInt8) (byte : UInt8) : Prop :=
  ∀ rest, decode (piece ++ rest) = (decode rest).map (byte :: ·)

@[simp] theorem decode_nil : decode [] = some [] := by
  rw [decode]

theorem denotes_plus : Denotes [plus] space := by
  intro rest
  rw [List.singleton_append, decode.eq_def]
  exact if_pos rfl

theorem denotes_self {c : UInt8} (hplus : c ≠ plus) (hpercent : c ≠ percent) :
    Denotes [c] c := by
  intro rest
  rw [List.singleton_append, decode.eq_def]
  simp only [if_neg hplus, if_neg hpercent]

theorem decode_escape (high low : UInt8) (rest : List UInt8) :
    decode (percent :: high :: low :: rest) =
      match hexByte high low with
      | some byte => (decode rest).map (byte :: ·)
      | none => none := by
  have hne : percent ≠ plus := by decide
  rw [decode, if_neg hne, if_pos rfl]

theorem denotes_escape {high low byte : UInt8}
    (hbyte : hexByte high low = some byte) :
    Denotes [percent, high, low] byte := by
  intro rest
  have hescape := decode_escape high low rest
  rw [hbyte] at hescape
  exact hescape

theorem decode_escape_ne {high low byte : UInt8}
    (hbyte : hexByte high low ≠ some byte) (rest bytes : List UInt8) :
    decode (percent :: high :: low :: rest) ≠ some (byte :: bytes) := by
  rw [decode_escape]
  cases hread : hexByte high low with
  | none => simp
  | some other =>
      have hother : other ≠ byte := fun h => hbyte (by rw [hread, h])
      cases decode rest with
      | none => simp
      | some tail => simp [hother]

theorem decode_flatMap {encode : UInt8 → List UInt8} {bytes : List UInt8}
    (hencode : ∀ byte ∈ bytes, Denotes (encode byte) byte) :
    decode (bytes.flatMap encode) = some bytes := by
  induction bytes with
  | nil => simp
  | cons byte bytes ih =>
      have hhead := hencode byte (by simp)
      have htail := ih fun other hother => hencode other (by simp [hother])
      rw [List.flatMap_cons, hhead, htail, Option.map_some]

theorem injOn_of_decode {write : List UInt8 → List UInt8}
    {texts : Set (List UInt8)}
    (hwrite : ∀ bytes ∈ texts, decode (write bytes) = some bytes) :
    Set.InjOn write texts := by
  intro left hleft right hright heq
  have hdecoded : some left = some right := by
    rw [← hwrite left hleft, heq, hwrite right hright]
  exact Option.some.inj hdecoded

/-! ## Taking a text apart -/

/-- What a writer puts down for one byte, whether it denotes that byte or not:
one byte that is no `%`, or a `%` and two more. -/
inductive Piece : List UInt8 → Prop
  | plain {c : UInt8} (hc : c ≠ percent) : Piece [c]
  | escape (high low : UInt8) : Piece [percent, high, low]

theorem Piece.append_inj {left right before after : List UInt8}
    (hleft : Piece left) (hright : Piece right)
    (heq : left ++ before = right ++ after) : left = right ∧ before = after := by
  cases hleft with
  | plain hc =>
      cases hright with
      | plain hd => simpa using heq
      | escape high low =>
          simp only [List.cons_append, List.cons.injEq] at heq
          exact absurd heq.1 hc
  | escape high low =>
      cases hright with
      | plain hd =>
          simp only [List.cons_append, List.cons.injEq] at heq
          exact absurd heq.1.symm hd
      | escape high' low' => simpa [and_assoc] using heq

/-- The first byte of a piece tells its length, so a text is cut into pieces
in one way. -/
theorem uniquelyDecodable_pieces :
    InformationTheory.UniquelyDecodable {piece | Piece piece} := by
  intro left
  induction left with
  | nil =>
      intro right _ hright heq
      cases right with
      | nil => rfl
      | cons piece right =>
          have hpiece : Piece piece := hright piece (by simp)
          cases hpiece <;> simp at heq
  | cons piece left ih =>
      intro right hleft hright heq
      have hpiece : Piece piece := hleft piece (by simp)
      cases right with
      | nil => cases hpiece <;> simp at heq
      | cons other right =>
          have hother : Piece other := hright other (by simp)
          rw [List.flatten_cons, List.flatten_cons] at heq
          have hparts := hpiece.append_inj hother heq
          have htail := ih right (fun w hw => hleft w (by simp [hw]))
            (fun w hw => hright w (by simp [hw])) hparts.2
          rw [hparts.1, htail]

theorem map_eq_of_flatMap_eq {write : UInt8 → List UInt8}
    (hwrite : ∀ byte, Piece (write byte)) {left right : List UInt8}
    (heq : left.flatMap write = right.flatMap write) :
    left.map write = right.map write := by
  have hpieces : ∀ bytes : List UInt8, ∀ piece ∈ bytes.map write, Piece piece := by
    intro bytes piece hpiece
    obtain ⟨byte, _, rfl⟩ := List.mem_map.mp hpiece
    exact hwrite byte
  rw [List.flatMap_def, List.flatMap_def] at heq
  exact uniquelyDecodable_pieces _ _ (hpieces left) (hpieces right) heq

end FormText
