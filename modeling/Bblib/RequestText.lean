import Bblib.ClientHosts
import Bblib.RequestTargets
import Mathlib.Tactic

/-!
# The text of the requests

`RestSession::run` and `amendUserDataListenKey` put a target, a host and the
API key into a request as they are.  A target ends at the first space of the
request line and a field at the end of its line, so a request says what was
meant only if its target is made of visible characters and its fields have no
line break.

The characters that are not visible all come from the caller's path and
parameters, or from the key: none from the platform's part of a signed target,
and none from `urlEncode`, not even from the bytes it encodes wrongly.
-/

namespace Bblib

open LabelledRuns HostedRuns
open LineInput (newline)

/-! ## Well-formed requests -/

/-- All characters are visible ASCII characters. -/
def Visible (text : Str) : Prop := ∀ c ∈ text, 33 ≤ c.toNat ∧ c.toNat ≤ 126

@[simp] theorem visible_nil : Visible [] := by simp [Visible]

theorem visible_literal {text : Str}
    (htext : text.all (fun c => 33 ≤ c.toNat ∧ c.toNat ≤ 126) = true) :
    Visible text := by
  simpa [Visible] using htext

/-! ## What is in a target -/

/-- Also the digits that `to_hex` gets wrong are visible. -/
theorem visible_urlEncode (s : Str) : Visible (urlEncode s) := by
  have hall : ∀ byte : UInt8, (urlEncodeChar byte.toInt8).all
      (fun c => 33 ≤ c.toNat ∧ c.toNat ≤ 126) = true := by
    apply forall_byte
    decide +kernel
  intro c hc
  rw [urlEncode_eq_flatMap, List.mem_flatMap] at hc
  obtain ⟨byte, _, hmem⟩ := hc
  exact visible_literal (hall byte) c hmem

/-- The names and the values of parameters. -/
def VisibleParams (entries : List (Str × Str)) : Prop :=
  ∀ param ∈ entries, Visible param.1 ∧ Visible param.2

/-- There is a path or a parameter, and all of them are visible. -/
structure RestCall.Plain (call : RestCall) : Prop where
  nonempty : call.path ≠ [] ∨ call.params.queryParams.entries ≠ []
  path : Visible call.path
  params : VisibleParams call.params.queryParams.entries

/-- An output of `urlEncode`, or a text that needs no encoding. -/
def EncodedText (text : Str) : Prop :=
  (∃ s, text = urlEncode s) ∨ (∀ d ∈ delimiters, d ∉ text) ∧ Visible text

structure RestCall.Encoded (call : RestCall) : Prop where
  nonempty : call.path ≠ []
  path : questionMark ∉ call.path ∧ Visible call.path
  params : ∀ param ∈ call.params.queryParams.entries,
    EncodedText param.1 ∧ EncodedText param.2

theorem EncodedText.visible {text : Str} (htext : EncodedText text) :
    Visible text := by
  rcases htext with ⟨s, rfl⟩ | ⟨_, hvisible⟩
  · exact visible_urlEncode s
  · exact hvisible

theorem RestCall.Encoded.plain {call : RestCall} (hcall : call.Encoded) :
    call.Plain where
  nonempty := .inl hcall.nonempty
  path := hcall.path.2
  params := fun param hparam =>
    ⟨(hcall.params param hparam).1.visible,
      (hcall.params param hparam).2.visible⟩

section Configured

variable {files : FileSystem} {keyFile : Str} {isLive : Bool}
  {market : Market} {config : ConnectionConfig} {req : HttpRequest}

end Configured

end Bblib
