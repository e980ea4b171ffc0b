import Bblib.RestRequests
import Bblib.SeparatedText
import Bblib.UrlEncode
import Mathlib.Tactic

/-!
# Reading a request target back

A server cuts the target at the first `?`, splits the query at `&` and each
pair at its first `=`.  For parameters that are encoded, or need no encoding,
this undoes both loops of `createRestSession`: the one that puts an `&` behind
each pair, and the one that goes on with the timestamp and the signature.
-/

namespace Bblib

/-! ## The decoder -/

def decodeTarget (target : Str) : Str × List (Str × Str) :=
  let (path, query) := SeparatedText.cut questionMark target
  (path, (SeparatedText.pieces ampersand query).map
    (SeparatedText.cut equalsSign))

/-- A key or a value that may stand in a target: an output of `urlEncode`, or
a text without delimiters. -/
def Component (text : Str) : Prop :=
  (∃ s, text = urlEncode s) ∨ ∀ d ∈ delimiters, d ∉ text

/-- One pair as the loops write it, without the separator behind it. -/
def pairText (param : Str × Str) : Str :=
  param.1 ++ equalsSign :: param.2

/-! ## Reading pairs back -/

theorem free_iff {text : Str} :
    (∀ d ∈ delimiters, d ∉ text) ↔ ampersand ∉ text ∧ equalsSign ∉ text ∧
      questionMark ∉ text ∧ numberSign ∉ text := by
  simp [delimiters]

theorem Component.not_mem {text : Str} (htext : Component text) {d : UInt8}
    (hd : d ∈ delimiters) : d ∉ text := by
  rcases htext with ⟨s, rfl⟩ | hfree
  · exact not_mem_urlEncode hd s
  · exact hfree d hd

theorem pairText_ne_nil (param : Str × Str) : pairText param ≠ [] := by
  simp [pairText]

theorem ampersand_not_mem_pairText {param : Str × Str}
    (hkey : ampersand ∉ param.1) (hvalue : ampersand ∉ param.2) :
    ampersand ∉ pairText param := by
  have hne : ampersand ≠ equalsSign := by decide
  simp [pairText, hkey, hvalue, hne]

theorem cut_pairText {param : Str × Str} (hkey : equalsSign ∉ param.1) :
    SeparatedText.cut equalsSign (pairText param) = param :=
  SeparatedText.cut_append hkey param.2

theorem callerPairs_eq_terminated (entries : List (Str × Str)) :
    callerPairs entries =
      SeparatedText.terminated ampersand (entries.map pairText) := by
  induction entries with
  | nil => rfl
  | cons param entries ih =>
      have hhead : callerPairs (param :: entries) =
          pairText param ++ ampersand :: callerPairs entries := by
        simp [callerPairs, pairText]
      rw [hhead, ih, List.map_cons, SeparatedText.terminated_cons]

theorem map_cut_pairText {entries : List (Str × Str)}
    (hentries : ∀ param ∈ entries, equalsSign ∉ param.1) :
    (entries.map pairText).map (SeparatedText.cut equalsSign) = entries := by
  rw [List.map_map]
  have hcut : ∀ param ∈ entries,
      (SeparatedText.cut equalsSign ∘ pairText) param = param :=
    fun param hparam => cut_pairText (hentries param hparam)
  rw [List.map_congr_left hcut, List.map_id']

theorem decodeTarget_callerPairs {path : Str} (hpath : questionMark ∉ path)
    {entries : List (Str × Str)}
    (hentries : ∀ param ∈ entries, Component param.1 ∧ Component param.2)
    (rest : Str) :
    decodeTarget (path ++ ascii "?" ++ (callerPairs entries ++ rest)) =
      (path, entries ++ (SeparatedText.pieces ampersand rest).map
        (SeparatedText.cut equalsSign)) := by
  have hparts : ∀ part ∈ entries.map pairText,
      ampersand ∉ part ∧ part ≠ [] := by
    intro part hpart
    obtain ⟨param, hparam, rfl⟩ := List.mem_map.mp hpart
    have hcomponents := hentries param hparam
    have hkey := hcomponents.1.not_mem (d := ampersand) (by decide)
    have hvalue := hcomponents.2.not_mem (d := ampersand) (by decide)
    exact ⟨ampersand_not_mem_pairText hkey hvalue, pairText_ne_nil param⟩
  have hkeys : ∀ param ∈ entries, equalsSign ∉ param.1 :=
    fun param hparam => (hentries param hparam).1.not_mem (by decide)
  have hcut := SeparatedText.cut_append hpath (callerPairs entries ++ rest)
  rw [callerPairs_eq_terminated] at hcut
  have hpieces := SeparatedText.pieces_terminated_append hparts rest
  unfold decodeTarget
  rw [callerPairs_eq_terminated, ascii_questionMark, List.append_assoc,
    List.singleton_append, hcut]
  simp only [hpieces, List.map_append, map_cut_pairText hkeys]

/-! ## The two kinds of request -/

theorem decodeTarget_path {path : Str} (hpath : questionMark ∉ path) :
    decodeTarget path = (path, []) := by
  unfold decodeTarget
  rw [SeparatedText.cut_of_not_mem hpath]
  simp

theorem decodeTarget_unsigned (env : RestEnv) (secret : Str) {path : Str}
    (hpath : questionMark ∉ path) {params : RestParams}
    (hentries : ∀ param ∈ params.queryParams.entries,
      Component param.1 ∧ Component param.2) :
    decodeTarget (pathToSend env secret path false params) =
      (path, params.queryParams.entries) := by
  by_cases hnil : params.queryParams.entries = []
  · rw [pathToSend_of_nil env secret path false hnil, hnil]
    exact decodeTarget_path hpath
  · have htarget : pathToSend env secret path false params =
        path ++ ascii "?" ++ (callerPairs params.queryParams.entries ++ []) := by
      simp [pathToSend, hnil, writeParams_eq]
    rw [htarget, decodeTarget_callerPairs hpath hentries]
    simp

/-- What the signed branch writes behind the caller's pairs. -/
theorem pieces_signedTail (now : ℤ) {signature : Str}
    (hsignature : ampersand ∉ signature) :
    (SeparatedText.pieces ampersand
        (ascii "timestamp=" ++ decimal now ++ ascii "&signature=" ++
          signature)).map (SeparatedText.cut equalsSign) =
      [(ascii "timestamp", decimal now), (ascii "signature", signature)] := by
  let timestamp : Str × Str := (ascii "timestamp", decimal now)
  let signed : Str × Str := (ascii "signature", signature)
  have htext : ascii "timestamp=" ++ decimal now ++ ascii "&signature=" ++
      signature = pairText timestamp ++ ampersand :: pairText signed := by
    have htimestamp : ascii "timestamp=" = ascii "timestamp" ++ [equalsSign] := rfl
    have hsigned : ascii "&signature=" =
        ampersand :: (ascii "signature" ++ [equalsSign]) := rfl
    simp [pairText, timestamp, signed, htimestamp, hsigned]
  have hfirst : ampersand ∉ pairText timestamp :=
    ampersand_not_mem_pairText (show ampersand ∉ ascii "timestamp" by decide)
      (ampersand_not_mem_decimal now)
  have hsecond : ampersand ∉ pairText signed :=
    ampersand_not_mem_pairText (show ampersand ∉ ascii "signature" by decide)
      hsignature
  rw [htext, SeparatedText.pieces_append hfirst (pairText_ne_nil _),
    SeparatedText.pieces_of_not_mem hsecond (pairText_ne_nil _)]
  have hkeys : ∀ param ∈ [timestamp, signed], equalsSign ∉ param.1 := by
    intro param hparam
    simp only [List.mem_cons, List.not_mem_nil, or_false] at hparam
    rcases hparam with rfl | rfl
    · exact show equalsSign ∉ ascii "timestamp" by decide
    · exact show equalsSign ∉ ascii "signature" by decide
  exact map_cut_pairText hkeys

theorem decodeTarget_signed (env : RestEnv) (secret : Str) {path : Str}
    (hpath : questionMark ∉ path) {params : RestParams}
    (hentries : ∀ param ∈ params.queryParams.entries,
      Component param.1 ∧ Component param.2)
    (hne : params.queryParams.entries ≠ []) :
    decodeTarget (pathToSend env secret path true params) =
      (path, params.queryParams.entries ++
        [(ascii "timestamp", decimal env.now),
          (ascii "signature", createSignature env.hmac secret
            (signedText env
              (pathWithoutSig env.now params.queryParams.entries)))]) := by
  let signature := createSignature env.hmac secret
    (signedText env (pathWithoutSig env.now params.queryParams.entries))
  have hsignature : ampersand ∉ signature :=
    ampersand_not_mem_createSignature _ _ _
  have htarget : pathToSend env secret path true params =
      path ++ ascii "?" ++ (callerPairs params.queryParams.entries ++
        (ascii "timestamp=" ++ decimal env.now ++ ascii "&signature=" ++
          signature)) := by
    rw [pathToSend_signed env secret path hne, pathWithoutSig_eq]
    simp only [List.append_assoc, signature, pathWithoutSig_eq]
  rw [htarget, decodeTarget_callerPairs hpath hentries,
    pieces_signedTail env.now hsignature]

/-! ## The target of a session -/

/-- The target a session is run with, and which its request carries, is that
of the path and the parameters, whether or not the set-up of SNI fails.  It
reads back as the path and the caller's pairs; a signed one has one timestamp
and one signature behind them. -/
theorem createRestSession_target_reads_back
    {boost : Boost} {env : RestEnv} {sni : Option ErrorCode}
    {beast after : BinanceBeast} {host path : Str} {createStrand sign : Bool}
    {rc : Callback} {params : RestParams} {type : RequestType} {start : RestRun}
    (hpath : questionMark ∉ path)
    (hentries : ∀ param ∈ params.queryParams.entries,
      Component param.1 ∧ Component param.2)
    (hcreate : beast.createRestSession boost env sni host path createStrand rc
      sign params type = .ok (after, start)) :
    let target := pathToSend env beast.config.keys.secret path sign params
    (∃ session, session.callback = rc ∧
      start = RestRun.launch boost session sni host beast.config.restPort
        target 11 type) ∧
      (∀ req, start.session.req = some req → req.target = target) ∧
      (sign = false →
        decodeTarget target = (path, params.queryParams.entries)) ∧
      (sign = true → params.queryParams.entries ≠ [] →
        ∃ signature, decodeTarget target =
          (path, params.queryParams.entries ++
            [(ascii "timestamp", decimal env.now),
              (ascii "signature", signature)])) := by
  obtain ⟨session, hcallback, _, hstart⟩ :=
    BinanceBeast.createRestSession_runs hcreate
  refine ⟨⟨session, hcallback, hstart⟩, ?_, ?_, ?_⟩
  · intro req hreq
    exact BinanceBeast.createRestSession_target hcreate hreq
  · rintro rfl
    exact decodeTarget_unsigned env _ hpath hentries
  · rintro rfl hne
    exact ⟨_, decodeTarget_signed env _ hpath hentries hne⟩

def batchParams : RestParams :=
  ⟨[(ascii "batchOrders", urlEncode (ascii "[\x7b\"symbol\":\"BTCUSDT\"\x7d]")),
    (ascii "recvWindow", ascii "5000")], by decide⟩

theorem batchOrders_target_reads_back :
    ∃ after start session signature,
      sampleBeast.createRestSession sampleBoost (sampleEnv .appendRight .right)
        none (ascii "fapi.binance.com") (ascii "/fapi/v1/batchOrders") true
        (some 0) true batchParams .post = .ok (after, start) ∧
      start = RestRun.launch sampleBoost session none (ascii "fapi.binance.com")
        sampleBeast.config.restPort
        (pathToSend (sampleEnv .appendRight .right) (ascii "secret")
          (ascii "/fapi/v1/batchOrders") true batchParams) 11 .post ∧
      decodeTarget (pathToSend (sampleEnv .appendRight .right) (ascii "secret")
          (ascii "/fapi/v1/batchOrders") true batchParams) =
        (ascii "/fapi/v1/batchOrders",
          batchParams.queryParams.entries ++
            [(ascii "timestamp", ascii "1"), (ascii "signature", signature)]) := by
  have hcreate : ∃ after start,
      sampleBeast.createRestSession sampleBoost (sampleEnv .appendRight .right)
        none (ascii "fapi.binance.com") (ascii "/fapi/v1/batchOrders") true
        (some 0) true batchParams .post = .ok (after, start) := ⟨_, _, rfl⟩
  obtain ⟨after, start, hcreate⟩ := hcreate
  have hentries : ∀ param ∈ batchParams.queryParams.entries,
      Component param.1 ∧ Component param.2 := by
    intro param hparam
    simp only [batchParams, List.mem_cons, List.not_mem_nil, or_false] at hparam
    rcases hparam with rfl | rfl
    · exact ⟨.inr (free_iff.mpr (by decide)), .inl ⟨_, rfl⟩⟩
    · exact ⟨.inr (free_iff.mpr (by decide)), .inr (free_iff.mpr (by decide))⟩
  obtain ⟨⟨session, _, hstart⟩, _, _, hsigned⟩ :=
    createRestSession_target_reads_back (by decide) hentries hcreate
  obtain ⟨signature, hdecode⟩ := hsigned rfl (by simp [batchParams])
  exact ⟨after, start, session, signature, hcreate, hstart, hdecode⟩

end Bblib
