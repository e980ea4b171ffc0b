import Bblib.Beast
import Bblib.LineInput
import Mathlib.Tactic

/-!
# Key files

`ConnectionConfig::readKeyFile` and the two configurations made from a key
file.  A file for the wrong environment is refused by name: the first line is
compared with the mark of the other environment, not with the expected one, so
every other first line is let through.
-/

namespace Bblib

/-- The contents of the files there are. -/
abbrev FileSystem := Str → Option Str

def invalidKeyFile : Str :=
  ascii "key file invalid format. Should be 3 lines:\nLine 1: <test | live>\nLine 2: api key\nLine 3: secret key"

namespace ConnectionConfig

def readKeyFile (files : FileSystem) (p : Str) (isLive : Bool) :
    Except Exn (Str × Str) :=
  match files p with
  | none => .error (.runtimeError (ascii "key file path does not exist"))
  | some bytes =>
      if bytes.length > 140 then .error (.runtimeError invalidKeyFile)
      else
        let fileStream := LineInput.Stream.ofBytes bytes
        let (line, fileStream) := LineInput.getline fileStream []
        if (line = ascii "live" ∧ !isLive) ∨ (line = ascii "test" ∧ isLive) then
          .error (.runtimeError (ascii "key file is for " ++ line ++
            ascii " but not being configured for " ++ line))
        else
          let (api, fileStream) := LineInput.getline fileStream []
          let (secret, _) := LineInput.getline fileStream []
          .ok (api, secret)

def makeFileConfig (files : FileSystem) (isLive : Bool) (market : Market)
    (keyFile : Str) : Except Exn ConnectionConfig :=
  if !keyFile.isEmpty then
    match readKeyFile files keyFile isLive with
    | .error e => .error e
    | .ok keys => makeConfig keys.1 keys.2 isLive market
  else makeConfig [] [] isLive market

def makeTestNetConfig (files : FileSystem) : Market → Str →
    Except Exn ConnectionConfig :=
  makeFileConfig files false

def makeLiveConfig (files : FileSystem) : Market → Str →
    Except Exn ConnectionConfig :=
  makeFileConfig files true

end ConnectionConfig

/-! ## The documented format -/

def environmentMark (isLive : Bool) : Str :=
  if isLive then ascii "live" else ascii "test"

/-- Three lines in at most 140 bytes: the mark of the environment, the API key
and the secret key, neither of them empty. -/
structure KeyFileFormat (isLive : Bool) (bytes : Str) : Prop where
  size : bytes.length ≤ 140
  lines : ∃ api secret tail,
    bytes = environmentMark isLive ++ LineInput.newline ::
      (api ++ LineInput.newline :: (secret ++ tail)) ∧
    api ≠ [] ∧ secret ≠ [] ∧
    LineInput.newline ∉ api ∧ LineInput.newline ∉ secret ∧
    (tail = [] ∨ ∃ rest, tail = LineInput.newline :: rest)

/-! ## Which files are read -/

theorem refused_iff (line : Str) (isLive : Bool) :
    (line = ascii "live" ∧ !isLive) ∨ (line = ascii "test" ∧ isLive) ↔
      line = environmentMark (!isLive) := by
  cases isLive with
  | true => simp [environmentMark]
  | false => simp [environmentMark]

/-- A file yields keys exactly when it is small enough and its first line is
not the mark of the other environment. -/
theorem readKeyFile_ok_iff {files : FileSystem} {p bytes : Str}
    (hfile : files p = some bytes) (isLive : Bool) :
    (∃ keys, ConnectionConfig.readKeyFile files p isLive = .ok keys) ↔
      bytes.length ≤ 140 ∧
        LineInput.firstLine bytes ≠ environmentMark (!isLive) := by
  have hline := LineInput.getline_ofBytes bytes []
  unfold ConnectionConfig.readKeyFile
  simp only [hfile, hline, refused_iff]
  by_cases hsize : bytes.length ≤ 140
  · have hsmall : ¬ bytes.length > 140 := by omega
    rw [if_neg hsmall]
    by_cases hmark : LineInput.firstLine bytes = environmentMark (!isLive)
    · simp [hmark]
    · simp [hmark, hsize]
  · have hlarge : bytes.length > 140 := by omega
    rw [if_pos hlarge]
    simp [hsize]

theorem newline_not_mem_environmentMark (isLive : Bool) :
    LineInput.newline ∉ environmentMark isLive := by
  cases isLive <;> decide

theorem environmentMark_ne (isLive : Bool) :
    environmentMark isLive ≠ environmentMark (!isLive) := by
  cases isLive <;> decide

/-- The lines behind the right mark are the keys, also when they are empty or
the file ends in the third one. -/
theorem readKeyFile_lines {files : FileSystem} {p api secret tail : Str}
    {isLive : Bool}
    (hfile : files p = some (environmentMark isLive ++ LineInput.newline ::
      (api ++ LineInput.newline :: (secret ++ tail))))
    (hsize : (environmentMark isLive ++ LineInput.newline ::
      (api ++ LineInput.newline :: (secret ++ tail))).length ≤ 140)
    (hapi : LineInput.newline ∉ api) (hsecret : LineInput.newline ∉ secret)
    (htail : tail = [] ∨ ∃ rest, tail = LineInput.newline :: rest) :
    ConnectionConfig.readKeyFile files p isLive = .ok (api, secret) := by
  have hmark := newline_not_mem_environmentMark isLive
  have hfirst := LineInput.getline_append hmark
    (api ++ LineInput.newline :: (secret ++ tail)) []
  have hsecond := LineInput.getline_append hapi (secret ++ tail) []
  have hthird :
      (LineInput.getline ⟨secret ++ tail, true⟩ []).1 = secret := by
    rcases htail with rfl | ⟨rest, rfl⟩
    · rw [List.append_nil, LineInput.getline_of_not_mem hsecret]
    · rw [LineInput.getline_append hsecret]
  unfold ConnectionConfig.readKeyFile LineInput.Stream.ofBytes
  have hsmall := Nat.not_lt.mpr hsize
  have hother := environmentMark_ne isLive
  simp only [hfile, if_neg hsmall, hfirst, refused_iff, if_neg hother, hsecond,
    hthird]

theorem KeyFileFormat.keys {files : FileSystem} {p bytes : Str} {isLive : Bool}
    (hformat : KeyFileFormat isLive bytes) (hfile : files p = some bytes) :
    ∃ api secret, ConnectionConfig.readKeyFile files p isLive =
        .ok (api, secret) ∧ api ≠ [] ∧ secret ≠ [] ∧
      environmentMark isLive ++ LineInput.newline ::
        (api ++ LineInput.newline :: secret) <+: bytes := by
  obtain ⟨hsize, api, secret, tail, hbytes, hapi, hsecret, hapiLine,
    hsecretLine, htail⟩ := hformat
  rw [hbytes] at hfile hsize
  have hread := readKeyFile_lines hfile hsize hapiLine hsecretLine htail
  exact ⟨api, secret, hread, hapi, hsecret, tail, by simp [hbytes]⟩

/-- The mark of the other environment and an oversized file are refused, the
documented format is read, and everything else is read as well. -/
theorem readKeyFile_formatted_iff {files : FileSystem} {p bytes : Str}
    (hfile : files p = some bytes) (isLive : Bool) :
    ((∃ keys, ConnectionConfig.readKeyFile files p isLive = .ok keys) →
        KeyFileFormat isLive bytes) ↔
      KeyFileFormat isLive bytes ∨ 140 < bytes.length ∨
        LineInput.firstLine bytes = environmentMark (!isLive) := by
  rw [readKeyFile_ok_iff hfile]
  constructor
  · intro hformat
    by_cases hsize : bytes.length ≤ 140
    · by_cases hmark :
          LineInput.firstLine bytes = environmentMark (!isLive)
      · exact .inr (.inr hmark)
      · exact .inl (hformat ⟨hsize, hmark⟩)
    · exact .inr (.inl (by omega))
  · rintro (hformat | hsize | hmark) ⟨hsmall, hother⟩
    · exact hformat
    · omega
    · exact absurd hmark hother

def sampleKeyFile : Str := ascii "test\nmyApiKey\nmySecretKey\n"

theorem sampleKeyFile_formatted :
    ∃ keys, ConnectionConfig.readKeyFile (fun _ => some sampleKeyFile)
        (ascii "keys.txt") false = .ok keys ∧ KeyFileFormat false sampleKeyFile := by
  have hformat : KeyFileFormat false sampleKeyFile := by
    refine ⟨by decide, ascii "myApiKey", ascii "mySecretKey", _, rfl, ?_⟩
    exact ⟨by decide, by decide, by decide, by decide, .inr ⟨[], rfl⟩⟩
  have hfile : (fun _ => some sampleKeyFile : FileSystem) (ascii "keys.txt") =
      some sampleKeyFile := rfl
  have hread := (readKeyFile_formatted_iff hfile false).mpr (.inl hformat)
  exact ⟨_, rfl, hread ⟨_, rfl⟩⟩

/-- With carriage returns, a file of test keys is read for the live exchange. -/
theorem carriage_return_passes_for_live :
    ¬ ∀ (files : FileSystem) (p bytes : Str) (isLive : Bool),
      files p = some bytes →
      (∃ keys, ConnectionConfig.readKeyFile files p isLive = .ok keys) →
      KeyFileFormat isLive bytes := by
  intro hall
  have hformat := hall
    (fun _ => some (ascii "test\r\nmyApiKey\r\nmySecretKey\r\n"))
    (ascii "keys.txt") _ true rfl ⟨_, rfl⟩
  obtain ⟨api, secret, tail, hbytes, _⟩ := hformat.lines
  have hhead := congrArg List.head? hbytes
  exact absurd hhead (by simp [environmentMark, ascii])

/-! ## Writing a key file and reading it -/

/-- The three lines, the last one with or without its newline. -/
def keyFileText (isLive : Bool) (api secret : Str) (finalNewline : Bool) : Str :=
  environmentMark isLive ++ LineInput.newline ::
    (api ++ LineInput.newline ::
      (secret ++ if finalNewline then [LineInput.newline] else []))

theorem readKeyFile_of_large {files : FileSystem} {p bytes : Str}
    (hfile : files p = some bytes) (hlarge : 140 < bytes.length)
    (isLive : Bool) :
    ConnectionConfig.readKeyFile files p isLive =
      .error (.runtimeError invalidKeyFile) := by
  unfold ConnectionConfig.readKeyFile
  simp only [hfile, gt_iff_lt, if_pos hlarge]

/-- A small file is refused by name when its first line is the mark of the
other environment. -/
theorem readKeyFile_of_other {files : FileSystem} {p bytes : Str}
    (hfile : files p = some bytes) (hsize : bytes.length ≤ 140) {isLive : Bool}
    (hline : LineInput.firstLine bytes = environmentMark (!isLive)) :
    ConnectionConfig.readKeyFile files p isLive =
      .error (.runtimeError (ascii "key file is for " ++
        environmentMark (!isLive) ++ ascii " but not being configured for " ++
          environmentMark (!isLive))) := by
  have hfirst := LineInput.getline_ofBytes bytes []
  rw [hline] at hfirst
  have hsmall := Nat.not_lt.mpr hsize
  unfold ConnectionConfig.readKeyFile
  simp only [hfile, gt_iff_lt, if_neg hsmall, hfirst, refused_iff, if_true]

theorem firstLine_keyFileText (isLive : Bool) (api secret : Str)
    (finalNewline : Bool) :
    LineInput.firstLine (keyFileText isLive api secret finalNewline) =
      environmentMark isLive := by
  have hmark := newline_not_mem_environmentMark isLive
  unfold LineInput.firstLine keyFileText
  rw [SeparatedText.cut_append hmark]

/-- A file of at most 140 bytes gives back the keys it was written with to its
own environment and is refused to the other; a larger one is refused to
both. -/
theorem readKeyFile_keyFileText {files : FileSystem} {p api secret : Str}
    {isLive finalNewline : Bool}
    (hapi : LineInput.newline ∉ api) (hsecret : LineInput.newline ∉ secret)
    (hfile : files p = some (keyFileText isLive api secret finalNewline)) :
    ((keyFileText isLive api secret finalNewline).length ≤ 140 →
      ConnectionConfig.readKeyFile files p isLive = .ok (api, secret) ∧
        ConnectionConfig.readKeyFile files p (!isLive) =
          .error (.runtimeError (ascii "key file is for " ++
            environmentMark isLive ++ ascii " but not being configured for " ++
              environmentMark isLive))) ∧
      (140 < (keyFileText isLive api secret finalNewline).length →
        ∀ environment, ConnectionConfig.readKeyFile files p environment =
          .error (.runtimeError invalidKeyFile)) := by
  constructor
  · intro hsize
    constructor
    · apply readKeyFile_lines hfile hsize hapi hsecret
      cases finalNewline with
      | true => exact .inr ⟨[], rfl⟩
      | false => exact .inl rfl
    · have hline : LineInput.firstLine
          (keyFileText isLive api secret finalNewline) =
            environmentMark (!!isLive) := by
        rw [Bool.not_not, firstLine_keyFileText]
      have hother := readKeyFile_of_other hfile hsize hline
      rw [Bool.not_not] at hother
      exact hother
  · intro hlarge environment
    exact readKeyFile_of_large hfile hlarge environment

/-- An API key without a secret, in a file that ends in the empty third
line. -/
theorem readKeyFile_keyFileText_apiKey :
    ConnectionConfig.readKeyFile
        (fun _ => some (keyFileText true (ascii "myApiKey") [] false))
        (ascii "keys.txt") true = .ok (ascii "myApiKey", []) := by
  have hread := readKeyFile_keyFileText
    (show LineInput.newline ∉ ascii "myApiKey" by decide)
    (show LineInput.newline ∉ ([] : Str) by decide)
    (show (fun _ => some (keyFileText true (ascii "myApiKey") [] false) :
      FileSystem) (ascii "keys.txt") = some _ from rfl)
  exact (hread.1 (by decide)).1

end Bblib
