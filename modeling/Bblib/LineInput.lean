import Bblib.SeparatedText
import Mathlib.Tactic

/-!
# Reading lines

`std::getline` on a stream of bytes.  A line ends at a newline, which is taken
and dropped, or at the end of the stream, after which the stream is no longer
good; on a stream that is not good the string of the caller is left as it was.
-/

namespace LineInput

def newline : UInt8 := 10

structure Stream where
  rest : List UInt8
  good : Bool

def Stream.ofBytes (bytes : List UInt8) : Stream := ⟨bytes, true⟩

def getline (stream : Stream) (line : List UInt8) : List UInt8 × Stream :=
  if stream.good then
    if newline ∈ stream.rest then
      let (line, rest) := SeparatedText.cut newline stream.rest
      (line, ⟨rest, true⟩)
    else (stream.rest, ⟨[], false⟩)
  else (line, stream)

def firstLine (bytes : List UInt8) : List UInt8 :=
  (SeparatedText.cut newline bytes).1

theorem getline_append {front : List UInt8} (hfront : newline ∉ front)
    (rest line : List UInt8) :
    getline ⟨front ++ newline :: rest, true⟩ line = (front, ⟨rest, true⟩) := by
  have hmem : newline ∈ front ++ newline :: rest := by simp
  unfold getline
  rw [if_pos rfl, if_pos hmem, SeparatedText.cut_append hfront]

theorem getline_of_not_mem {text : List UInt8} (htext : newline ∉ text)
    (line : List UInt8) :
    getline ⟨text, true⟩ line = (text, ⟨[], false⟩) := by
  unfold getline
  rw [if_pos rfl, if_neg htext]

theorem getline_ofBytes (bytes line : List UInt8) :
    (getline (.ofBytes bytes) line).1 = firstLine bytes := by
  by_cases hmem : newline ∈ bytes
  · unfold getline Stream.ofBytes
    rw [if_pos rfl, if_pos hmem]
    rfl
  · have hline := getline_of_not_mem hmem line
    have hcut := SeparatedText.cut_of_not_mem hmem
    unfold firstLine
    rw [hcut]
    exact congrArg Prod.fst hline

end LineInput
