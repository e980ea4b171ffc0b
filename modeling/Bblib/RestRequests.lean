import Bblib.Beast
import Bblib.HexText
import Mathlib.Tactic

/-!
# REST requests and their signatures

`createRestSession` of `BinanceBeast.cpp` with the two `sendRestRequest`
overloads, `createSignature` and `b2a_hex`.

Three things are left to the platform and collected in `RestEnv`: OpenSSL's
`HMAC`, the clock, and what C++ leaves open in the expression that joins the
signed target.  `operator+(string&&, string&&)` may append its right operand
to the left one or insert the left one into the right one, and either operand
of the outermost `+` may be evaluated first.  A map of parameters enters as
the list of its entries in the order its iteration meets them.
-/

namespace Bblib

open LabelledRuns

/-! ## Signatures -/

def hexCodes : Str := ascii "0123456789abcdef"

/-- `b2a_hex`: the bytes arrive as signed characters. -/
def b2aHex {n : ℕ} (byteArr : Vector Int8 n) : Str :=
  (List.finRange n).foldl (fun hexString i =>
    let binValue : UInt8 := byteArr[i].toUInt8
    hexString ++ [hexCodes.getD ((binValue >>> 4) &&& 0x0F).toNat 0] ++
      [hexCodes.getD (binValue &&& 0x0F).toNat 0]) []

/-- `static_cast<int>` of a size. -/
def staticCastInt (size : ℕ) : ℤ := (size : ℤ).bmod (2 ^ 32)

/-- `HMAC(EVP_sha256(), key, key_len, data, …)`: a digest, or a null pointer. -/
abbrev Hmac := Str → ℤ → Str → Option (Vector UInt8 32)

def createSignature (hmac : Hmac) (key data : Str) : Str :=
  match hmac key (staticCastInt key.length) data with
  | some digest => b2aHex (digest.map UInt8.toInt8)
  | none => []

/-! ## Parameters and the target -/

structure QueryParams where
  entries : List (Str × Str)
  nodup : (entries.map Prod.fst).Nodup

def QueryParams.empty : QueryParams := ⟨[], by simp⟩

structure RestParams where
  queryParams : QueryParams

inductive RestSign where
  | unsigned
  | hmacSha256
  deriving DecidableEq

inductive RvaluePlus where
  | appendRight
  | insertLeft
  deriving DecidableEq

/-- The joined string, and what is left in the right operand. -/
def RvaluePlus.add : RvaluePlus → Str → Str → Str × Str
  | .appendRight, left, right => (left ++ right, right)
  | .insertLeft, left, right => (left ++ right, [])

inductive Operand where
  | left
  | right
  deriving DecidableEq

structure RestEnv where
  hmac : Hmac
  now : ℤ
  plus : RvaluePlus
  firstOperand : Operand

/-- The loop that writes the caller's parameters to a stream. -/
def writeParams (stream : Str) (entries : List (Str × Str)) : Str :=
  entries.foldl (fun stream param =>
    stream ++ param.1 ++ ascii "=" ++ param.2 ++ ascii "&") stream

def pathWithoutSig (now : ℤ) (entries : List (Str × Str)) : Str :=
  writeParams [] entries ++ ascii "timestamp=" ++ decimal now

/-- `path + "?" + std::move(pathWithoutSig) + "&signature=" +
createSignature(secret, pathWithoutSig)` -/
def joinSigned (env : RestEnv) (secret path pathWithoutSig : Str) : Str :=
  match env.firstOperand with
  | .left =>
      let (joined, moved) := env.plus.add (path ++ ascii "?") pathWithoutSig
      joined ++ ascii "&signature=" ++ createSignature env.hmac secret moved
  | .right =>
      let signature := createSignature env.hmac secret pathWithoutSig
      let (joined, _) := env.plus.add (path ++ ascii "?") pathWithoutSig
      joined ++ ascii "&signature=" ++ signature

/-- The target `createRestSession` hands to `RestSession::run`. -/
def pathToSend (env : RestEnv) (secret path : Str) (sign : Bool)
    (params : RestParams) : Str :=
  let entries := params.queryParams.entries
  if !entries.isEmpty then
    if sign then joinSigned env secret path (pathWithoutSig env.now entries)
    else writeParams (path ++ ascii "?") entries
  else path

namespace BinanceBeast

def createRestSession (boost : Boost) (env : RestEnv) (sni : Option ErrorCode)
    (beast : BinanceBeast) (host path : Str) (createStrand : Bool)
    (rc : Callback) (sign : Bool) (params : RestParams) (type : RequestType) :
    Except Exn (BinanceBeast × RestRun) :=
  if rc.isNone then .error (.runtimeError (ascii "callback is null"))
  else
    let (ioc, beast) := beast.getRestIoContext
    let session : RestSession := {
      executor := if createStrand then .strand ioc else .context ioc
      apiKeys := beast.config.keys
      callback := rc
      req := none
      res := ⟨200, [], []⟩ }
    .ok (beast, RestRun.launch boost session sni host beast.config.restPort
      (pathToSend env beast.config.keys.secret path sign params) 11 type)

/-- The overload that copies the path and the parameters. -/
def sendRestRequest (boost : Boost) (env : RestEnv) (sni : Option ErrorCode)
    (beast : BinanceBeast) (handler : Callback) (path : Str) (sign : RestSign)
    (params : RestParams) (type : RequestType) :
    Except Exn (BinanceBeast × RestRun) :=
  beast.createRestSession boost env sni beast.config.restApiUri path true
    handler (sign == .hmacSha256) params type

/-- The overload that moves them. -/
def sendRestRequestMoved (boost : Boost) (env : RestEnv)
    (sni : Option ErrorCode) (beast : BinanceBeast) (handler : Callback)
    (path : Str) (sign : RestSign) (params : RestParams) (type : RequestType) :
    Except Exn (BinanceBeast × RestRun) :=
  beast.createRestSession boost env sni beast.config.restApiUri path true
    handler (sign == .hmacSha256) params type

end BinanceBeast

/-! ## The text of a signature -/

theorem hexCodes_getD {value : ℕ} (hvalue : value < 16) :
    hexCodes.getD value 0 = HexText.lowerDigit value := by
  interval_cases value <;> rfl

theorem low_half (byte : UInt8) : (byte &&& 0x0F).toNat = byte.toNat % 16 := by
  have hmask := Nat.and_two_pow_sub_one_eq_mod byte.toNat 4
  simpa using hmask

theorem high_half (byte : UInt8) :
    ((byte >>> 4) &&& 0x0F).toNat = byte.toNat / 16 := by
  have hbyte : byte.toNat < 256 := byte.toNat_lt
  have hshift : (byte >>> 4).toNat = byte.toNat / 16 := by
    rw [UInt8.toNat_shiftRight, Nat.shiftRight_eq_div_pow]
    congr 1
  rw [low_half, hshift]
  omega

theorem b2aHex_eq_lower {n : ℕ} (byteArr : Vector Int8 n) :
    b2aHex byteArr = HexText.lower (byteArr.toList.map Int8.toUInt8) := by
  have hloop : ∀ (indices : List (Fin n)) (hexString : Str),
      indices.foldl (fun hexString i =>
        let binValue : UInt8 := byteArr[i].toUInt8
        hexString ++ [hexCodes.getD ((binValue >>> 4) &&& 0x0F).toNat 0] ++
          [hexCodes.getD (binValue &&& 0x0F).toNat 0]) hexString =
        hexString ++ HexText.lower (indices.map fun i => byteArr[i].toUInt8) := by
    intro indices
    induction indices with
    | nil => simp
    | cons i indices ih =>
        intro hexString
        have hbyte : byteArr[i].toUInt8.toNat < 256 := UInt8.toNat_lt _
        rw [List.foldl_cons, ih]
        dsimp only
        rw [high_half, low_half, hexCodes_getD (by omega),
          hexCodes_getD (by omega)]
        simp
  have hbytes : (List.finRange n).map (fun i => byteArr[i].toUInt8) =
      byteArr.toList.map Int8.toUInt8 := by
    apply List.ext_getElem
    · simp
    · intro k hleft hright
      simp
  unfold b2aHex
  rw [hloop, List.nil_append, hbytes]

theorem createSignature_of_digest {hmac : Hmac} {key data : Str}
    {digest : Vector UInt8 32}
    (hdigest : hmac key (staticCastInt key.length) data = some digest) :
    createSignature hmac key data = HexText.lower digest.toList := by
  simp only [createSignature, hdigest, b2aHex_eq_lower, Vector.toList_map,
    List.map_map]
  congr 1
  simp [Function.comp_def]

theorem ampersand_not_mem_lower (bytes : List UInt8) :
    ampersand ∉ HexText.lower bytes := by
  intro hmem
  have hdigit := HexText.mem_lower hmem
  revert hdigit
  decide

theorem ampersand_not_mem_createSignature (hmac : Hmac) (key data : Str) :
    ampersand ∉ createSignature hmac key data := by
  unfold createSignature
  cases hmac key (staticCastInt key.length) data with
  | none => simp
  | some digest =>
      simp only [b2aHex_eq_lower]
      exact ampersand_not_mem_lower _

theorem mem_hexCodes_of_mem_b2aHex {n : ℕ} {byteArr : Vector Int8 n} {c : UInt8}
    (hc : c ∈ b2aHex byteArr) : c ∈ hexCodes := by
  rw [b2aHex_eq_lower] at hc
  have hdigit := HexText.mem_lower hc
  revert hdigit
  apply forall_byte _ c
  decide +kernel

/-- The decoder reads the text of an array of signed bytes back as the
array. -/
theorem decode_b2aHex {n : ℕ} (byteArr : Vector Int8 n) :
    (HexText.decode (b2aHex byteArr)).map (List.map UInt8.toInt8) =
      some byteArr.toList := by
  have hbytes : (byteArr.toList.map Int8.toUInt8).map UInt8.toInt8 =
      byteArr.toList := by
    simp [Function.comp_def]
  rw [b2aHex_eq_lower, HexText.decode_lower, Option.map_some, hbytes]

theorem b2aHex_injective {n : ℕ} :
    Function.Injective (b2aHex : Vector Int8 n → Str) := by
  intro left right heq
  have hdecoded := decode_b2aHex left
  rw [heq, decode_b2aHex right] at hdecoded
  exact (Vector.toList_inj.mp (Option.some.inj hdecoded)).symm

theorem createSignature_eq_b2aHex {hmac : Hmac} {key data : Str}
    {digest : Vector UInt8 32}
    (hdigest : hmac key (staticCastInt key.length) data = some digest) :
    createSignature hmac key data = b2aHex (digest.map UInt8.toInt8) := by
  simp only [createSignature, hdigest]

/-! A worked request: its secret, and the two digests OpenSSL computes for it,
of the empty text and of `symbol=BTCUSDT&timestamp=1`. -/

def sampleParams : RestParams :=
  ⟨[(ascii "symbol", ascii "BTCUSDT")], by simp⟩

def emptyDigest : Vector UInt8 32 :=
  #v[249, 230, 110, 23, 155, 103, 71, 174, 84, 16, 143, 130, 248, 173, 232,
    179, 194, 93, 118, 253, 48, 175, 222, 108, 57, 88, 34, 197, 48, 25, 97, 105]

def symbolDigest : Vector UInt8 32 :=
  #v[239, 157, 61, 119, 163, 77, 154, 19, 162, 26, 76, 45, 127, 62, 140, 176,
    145, 136, 138, 116, 202, 98, 181, 182, 47, 67, 14, 120, 237, 237, 149, 186]

def sampleEnv (plus : RvaluePlus) (firstOperand : Operand) : RestEnv where
  hmac _ _ data := some (if data = [] then emptyDigest else symbolDigest)
  now := 1
  plus := plus
  firstOperand := firstOperand

/-- Every array of signed bytes has a text of twice its length in the sixteen
digits that reads back as the array, and signatures of different digests are
different texts. -/
theorem b2aHex_reads_back :
    (∀ (n : ℕ) (byteArr : Vector Int8 n),
      (b2aHex byteArr).length = 2 * n ∧
        (∀ c ∈ b2aHex byteArr, c ∈ ascii "0123456789abcdef") ∧
        (HexText.decode (b2aHex byteArr)).map (List.map UInt8.toInt8) =
          some byteArr.toList) ∧
      ∀ (hmac otherHmac : Hmac) (key otherKey data otherData : Str)
        (digest other : Vector UInt8 32),
        hmac key (staticCastInt key.length) data = some digest →
        otherHmac otherKey (staticCastInt otherKey.length) otherData =
          some other →
        digest ≠ other →
        createSignature hmac key data ≠
          createSignature otherHmac otherKey otherData := by
  constructor
  · intro n byteArr
    have hlength : (b2aHex byteArr).length = 2 * n := by
      rw [b2aHex_eq_lower, HexText.length_lower]
      simp
    exact ⟨hlength, fun c hc => mem_hexCodes_of_mem_b2aHex hc,
      decode_b2aHex byteArr⟩
  · intro hmac otherHmac key otherKey data otherData digest other hdigest
      hother hne heq
    rw [createSignature_eq_b2aHex hdigest, createSignature_eq_b2aHex hother]
      at heq
    have hsigned := b2aHex_injective heq
    apply hne
    have hbytes := congrArg (Vector.map Int8.toUInt8) hsigned
    simpa [Function.comp_def] using hbytes

/-- The signatures of the two texts of the worked request. -/
theorem signatures_of_two_texts_differ :
    createSignature (sampleEnv .appendRight .right).hmac (ascii "secret") [] ≠
      createSignature (sampleEnv .appendRight .right).hmac (ascii "secret")
        (ascii "symbol=BTCUSDT&timestamp=1") :=
  b2aHex_reads_back.2 _ _ _ _ _ _ emptyDigest symbolDigest rfl rfl (by decide)

/-! ## The text of a target -/

/-- The pairs the caller gave, each with the separator behind it. -/
def callerPairs (entries : List (Str × Str)) : Str :=
  entries.flatMap fun param => param.1 ++ ascii "=" ++ param.2 ++ ascii "&"

theorem writeParams_eq (stream : Str) (entries : List (Str × Str)) :
    writeParams stream entries = stream ++ callerPairs entries := by
  induction entries generalizing stream with
  | nil => simp [writeParams, callerPairs]
  | cons param entries ih =>
      have hstep : writeParams stream (param :: entries) =
          writeParams (stream ++ param.1 ++ ascii "=" ++ param.2 ++ ascii "&")
            entries := rfl
      rw [hstep, ih]
      simp [callerPairs]

/-- What is signed: the text that is sent, or what a moved string keeps. -/
def signedText (env : RestEnv) (text : Str) : Str :=
  if env.plus = .appendRight ∨ env.firstOperand = .right then text else []

theorem joinSigned_eq (env : RestEnv) (secret path text : Str) :
    joinSigned env secret path text =
      path ++ ascii "?" ++ text ++ ascii "&signature=" ++
        createSignature env.hmac secret (signedText env text) := by
  cases hfirst : env.firstOperand <;> cases hplus : env.plus <;>
    simp [joinSigned, signedText, RvaluePlus.add, hfirst, hplus]

theorem pathToSend_of_nil (env : RestEnv) (secret path : Str) (sign : Bool)
    {params : RestParams} (hnil : params.queryParams.entries = []) :
    pathToSend env secret path sign params = path := by
  simp [pathToSend, hnil]

theorem pathToSend_signed (env : RestEnv) (secret path : Str)
    {params : RestParams} (hne : params.queryParams.entries ≠ []) :
    pathToSend env secret path true params =
      path ++ ascii "?" ++ pathWithoutSig env.now params.queryParams.entries ++
        ascii "&signature=" ++ createSignature env.hmac secret
          (signedText env
            (pathWithoutSig env.now params.queryParams.entries)) := by
  simp [pathToSend, hne, joinSigned_eq]

theorem pathWithoutSig_eq (now : ℤ) (entries : List (Str × Str)) :
    pathWithoutSig now entries =
      callerPairs entries ++ ascii "timestamp=" ++ decimal now := by
  simp [pathWithoutSig, writeParams_eq]

/-! ## The request a session carries -/

theorem RestRun.launch_req {boost : Boost} {session : RestSession}
    (hreq : session.req = none) {sni : Option ErrorCode}
    {host port target : Str} {version : ℕ} {type : RequestType}
    {req : HttpRequest}
    (hlaunch : (RestRun.launch boost session sni host port target version
      type).session.req = some req) : req.target = target := by
  unfold RestRun.launch RestSession.run at hlaunch
  cases sni with
  | some ec =>
      cases hcallback : session.callback <;>
        simp [RestRun.performAll, RestRun.perform, failOnPool, hcallback,
          hreq] at hlaunch
  | none =>
      simp [RestRun.performAll, RestRun.perform] at hlaunch
      rw [← hlaunch]

/-- A call that returns has launched a session with the callback, no request
yet, and the target of the parameters. -/
theorem BinanceBeast.createRestSession_runs
    {boost : Boost} {env : RestEnv} {sni : Option ErrorCode}
    {beast after : BinanceBeast} {host path : Str} {createStrand sign : Bool}
    {rc : Callback} {params : RestParams} {type : RequestType} {start : RestRun}
    (hcreate : beast.createRestSession boost env sni host path createStrand rc
      sign params type = .ok (after, start)) :
    ∃ session : RestSession, session.callback = rc ∧ session.req = none ∧
      start = RestRun.launch boost session sni host beast.config.restPort
        (pathToSend env beast.config.keys.secret path sign params) 11 type := by
  cases rc with
  | none => simp [createRestSession] at hcreate
  | some f =>
      simp only [createRestSession, getRestIoContext, Option.isNone_some,
        Bool.false_eq_true, if_false, Except.ok.injEq, Prod.mk.injEq] at hcreate
      exact ⟨_, rfl, rfl, hcreate.2.symm⟩

theorem BinanceBeast.createRestSession_target
    {boost : Boost} {env : RestEnv} {sni : Option ErrorCode}
    {beast after : BinanceBeast} {host path : Str} {createStrand sign : Bool}
    {rc : Callback} {params : RestParams} {type : RequestType}
    {start : RestRun} {req : HttpRequest}
    (hcreate : beast.createRestSession boost env sni host path createStrand rc
      sign params type = .ok (after, start))
    (hreq : start.session.req = some req) :
    req.target =
      pathToSend env beast.config.keys.secret path sign params := by
  obtain ⟨session, _, hnone, rfl⟩ := createRestSession_runs hcreate
  exact RestRun.launch_req hnone hreq

theorem BinanceBeast.exists_sendRestRequest
    (boost : Boost) (env : RestEnv) (beast : BinanceBeast) (f : ℕ) (path : Str)
    (sign : RestSign) (params : RestParams) (type : RequestType) :
    ∃ after start req,
      beast.sendRestRequest boost env none (some f) path sign params type =
        .ok (after, start) ∧
      start.session.req = some req := by
  simp only [sendRestRequest, createRestSession, Option.isNone_some,
    Bool.false_eq_true, if_false]
  exact ⟨_, _, _, rfl, rfl⟩

/-- The two overloads build the same request. -/
theorem BinanceBeast.sendRestRequest_target
    {boost : Boost} {env : RestEnv} {sni : Option ErrorCode}
    {beast after : BinanceBeast} {handler : Callback} {path : Str}
    {sign : RestSign} {params : RestParams} {type : RequestType}
    {start : RestRun} {req : HttpRequest}
    (hsend : beast.sendRestRequest boost env sni handler path sign params type =
        .ok (after, start) ∨
      beast.sendRestRequestMoved boost env sni handler path sign params type =
        .ok (after, start))
    (hreq : start.session.req = some req) :
    req.target = pathToSend env beast.config.keys.secret path
      (sign == .hmacSha256) params := by
  rcases hsend with hsend | hsend
  · exact createRestSession_target hsend hreq
  · exact createRestSession_target hsend hreq

/-! ## Signed requests carry a timestamp and a signature -/

/-- The target documented for a signed request: the caller's pairs, then one
timestamp, then the signature and nothing behind it. -/
def SignedTarget (path : Str) (entries : List (Str × Str)) (now : ℤ)
    (target : Str) : Prop :=
  ∃ signature, ampersand ∉ signature ∧
    target = path ++ ascii "?" ++ callerPairs entries ++
      ascii "timestamp=" ++ decimal now ++ ascii "&signature=" ++ signature

theorem signedTarget_of_ne_nil (env : RestEnv) (secret path : Str)
    {params : RestParams} (hne : params.queryParams.entries ≠ []) :
    SignedTarget path params.queryParams.entries env.now
      (pathToSend env secret path true params) := by
  rw [pathToSend_signed env secret path hne]
  refine ⟨createSignature env.hmac secret (signedText env
    (pathWithoutSig env.now params.queryParams.entries)), ?_, ?_⟩
  · exact ampersand_not_mem_createSignature _ _ _
  · rw [pathWithoutSig_eq]
    simp only [List.append_assoc]

theorem not_signedTarget_path {path : Str} (hpath : questionMark ∉ path)
    (entries : List (Str × Str)) (now : ℤ) :
    ¬ SignedTarget path entries now path := by
  rintro ⟨signature, _, htarget⟩
  apply hpath
  rw [htarget]
  simp

theorem sendRestRequest_signedTarget_iff
    {boost : Boost} {env : RestEnv} {sni : Option ErrorCode}
    {beast after : BinanceBeast} {handler : Callback} {path : Str}
    {params : RestParams} {type : RequestType} {start : RestRun}
    {req : HttpRequest} (hpath : questionMark ∉ path)
    (hsend :
      beast.sendRestRequest boost env sni handler path .hmacSha256 params type =
        .ok (after, start) ∨
      beast.sendRestRequestMoved boost env sni handler path .hmacSha256 params
        type = .ok (after, start))
    (hreq : start.session.req = some req) :
    SignedTarget path params.queryParams.entries env.now req.target ↔
      params.queryParams.entries ≠ [] := by
  have htarget := BinanceBeast.sendRestRequest_target hsend hreq
  rw [htarget]
  constructor
  · intro hsigned hnil
    rw [pathToSend_of_nil _ _ _ _ hnil] at hsigned
    exact not_signedTarget_path hpath _ _ hsigned
  · intro hne
    exact signedTarget_of_ne_nil env _ path hne

/-- All orders of one symbol, signed. -/
theorem signedTarget_allOrders :
    ∃ after start req,
      sampleBeast.sendRestRequest sampleBoost (sampleEnv .appendRight .right)
        none (some 0) (ascii "/fapi/v1/allOrders") .hmacSha256 sampleParams
        .get = .ok (after, start) ∧
      start.session.req = some req ∧
      SignedTarget (ascii "/fapi/v1/allOrders") sampleParams.queryParams.entries
        1 req.target := by
  obtain ⟨after, start, req, hsend, hreq⟩ :=
    BinanceBeast.exists_sendRestRequest sampleBoost
      (sampleEnv .appendRight .right) sampleBeast 0 (ascii "/fapi/v1/allOrders")
      .hmacSha256 sampleParams .get
  refine ⟨after, start, req, hsend, hreq, ?_⟩
  exact (sendRestRequest_signedTarget_iff (by decide) (.inl hsend) hreq).mpr
    (by decide)

/-- The account balance needs a signature but takes no parameters. -/
theorem balance_request_is_not_signed :
    ¬ ∀ (boost : Boost) (env : RestEnv) (sni : Option ErrorCode)
      (beast after : BinanceBeast) (handler : Callback) (path : Str)
      (params : RestParams) (type : RequestType) (start : RestRun)
      (req : HttpRequest), questionMark ∉ path →
      beast.sendRestRequest boost env sni handler path .hmacSha256 params type =
        .ok (after, start) →
      start.session.req = some req →
      SignedTarget path params.queryParams.entries env.now req.target := by
  intro hall
  obtain ⟨after, start, req, hsend, hreq⟩ :=
    BinanceBeast.exists_sendRestRequest sampleBoost
      (sampleEnv .appendRight .right) sampleBeast 0 (ascii "/fapi/v2/balance")
      .hmacSha256 ⟨.empty⟩ .get
  have hsigned := hall _ _ _ _ _ _ _ _ _ _ _ (by decide) hsend hreq
  rw [BinanceBeast.sendRestRequest_target (.inl hsend) hreq,
    pathToSend_of_nil _ _ _ _ rfl] at hsigned
  exact not_signedTarget_path (by decide) _ _ hsigned

/-! ## What the signature covers -/

/-- HMAC-SHA256 of a text under a secret, as OpenSSL is called for it. -/
def hmacSha256 (hmac : Hmac) (secret text : Str) : Option (Vector UInt8 32) :=
  hmac secret (staticCastInt secret.length) text

/-- The signature at the end of the target is the lower-case hexadecimal HMAC
of the text between the `?` behind the path and `&signature=`. -/
def SignatureCovers (hmac : Hmac) (secret path target : Str) : Prop :=
  ∃ text digest, hmacSha256 hmac secret text = some digest ∧
    target = path ++ ascii "?" ++ text ++ ascii "&signature=" ++
      HexText.lower digest.toList

/-- A signed target is covered exactly when the text that was signed has the
same HMAC as the text that was sent. -/
theorem joinSigned_covers_iff {env : RestEnv} {secret path text : Str}
    (hdigest : ∀ data, (hmacSha256 env.hmac secret data).isSome) :
    SignatureCovers env.hmac secret path (joinSigned env secret path text) ↔
      hmacSha256 env.hmac secret (signedText env text) =
        hmacSha256 env.hmac secret text := by
  obtain ⟨signed, hsigned⟩ :=
    Option.isSome_iff_exists.mp (hdigest (signedText env text))
  have hsignature : createSignature env.hmac secret (signedText env text) =
      HexText.lower signed.toList := createSignature_of_digest hsigned
  rw [joinSigned_eq, hsignature]
  constructor
  · rintro ⟨other, digest, hother, htarget⟩
    have hlength : (HexText.lower signed.toList).length =
        (HexText.lower digest.toList).length := by
      simp [HexText.length_lower]
    obtain ⟨hfront, hhex⟩ := List.append_inj' htarget hlength
    have htext : text = other := by simpa using hfront
    have hbytes := HexText.lower_injective hhex
    have hdigests : signed = digest := Vector.toList_inj.mp hbytes
    rw [hsigned, htext, hother, hdigests]
  · intro hsame
    refine ⟨text, signed, ?_, rfl⟩
    rw [← hsame, hsigned]

theorem signedText_eq_or (env : RestEnv) (text : Str) :
    ((env.plus = .appendRight ∨ env.firstOperand = .right) ∧
        signedText env text = text) ∨
      (¬ (env.plus = .appendRight ∨ env.firstOperand = .right) ∧
        signedText env text = []) := by
  unfold signedText
  split
  · rename_i hkept
    exact .inl ⟨hkept, rfl⟩
  · rename_i hmoved
    exact .inr ⟨hmoved, rfl⟩

theorem sendRestRequest_signatureCovers_iff
    {boost : Boost} {env : RestEnv} {sni : Option ErrorCode}
    {beast after : BinanceBeast} {handler : Callback} {path : Str}
    {params : RestParams} {type : RequestType} {start : RestRun}
    {req : HttpRequest}
    (hdigest : ∀ key keyLen data, (env.hmac key keyLen data).isSome)
    (hne : params.queryParams.entries ≠ [])
    (hsend :
      beast.sendRestRequest boost env sni handler path .hmacSha256 params type =
        .ok (after, start) ∨
      beast.sendRestRequestMoved boost env sni handler path .hmacSha256 params
        type = .ok (after, start))
    (hreq : start.session.req = some req) :
    SignatureCovers env.hmac beast.config.keys.secret path req.target ↔
      (env.plus = .appendRight ∨ env.firstOperand = .right) ∨
        hmacSha256 env.hmac beast.config.keys.secret [] =
          hmacSha256 env.hmac beast.config.keys.secret
            (callerPairs params.queryParams.entries ++ ascii "timestamp=" ++
              decimal env.now) := by
  have htarget := BinanceBeast.sendRestRequest_target hsend hreq
  have hjoined : req.target = joinSigned env beast.config.keys.secret path
      (pathWithoutSig env.now params.queryParams.entries) := by
    rw [htarget]
    simp [pathToSend, hne]
  rw [hjoined, joinSigned_covers_iff (fun data => hdigest _ _ data),
    ← pathWithoutSig_eq]
  rcases signedText_eq_or env
    (pathWithoutSig env.now params.queryParams.entries) with
    ⟨hkept, htext⟩ | ⟨hmoved, htext⟩
  · simp [htext, hkept]
  · simp only [htext, hmoved, false_or]

theorem signatureCovers_allOrders :
    ∃ after start req,
      sampleBeast.sendRestRequest sampleBoost (sampleEnv .insertLeft .right)
        none (some 0) (ascii "/fapi/v1/allOrders") .hmacSha256 sampleParams
        .get = .ok (after, start) ∧
      start.session.req = some req ∧
      SignatureCovers (sampleEnv .insertLeft .right).hmac (ascii "secret")
        (ascii "/fapi/v1/allOrders") req.target := by
  obtain ⟨after, start, req, hsend, hreq⟩ :=
    BinanceBeast.exists_sendRestRequest sampleBoost
      (sampleEnv .insertLeft .right) sampleBeast 0 (ascii "/fapi/v1/allOrders")
      .hmacSha256 sampleParams .get
  refine ⟨after, start, req, hsend, hreq, ?_⟩
  exact (sendRestRequest_signatureCovers_iff (fun _ _ _ => rfl) (by decide)
    (.inl hsend) hreq).mpr (.inl (.inr rfl))

/-- When the left operand is evaluated first and the library moves the query
out of `pathWithoutSig`, the signature is that of the empty text. -/
theorem moved_query_is_not_covered :
    ¬ ∀ (boost : Boost) (env : RestEnv) (sni : Option ErrorCode)
      (beast after : BinanceBeast) (handler : Callback) (path : Str)
      (params : RestParams) (type : RequestType) (start : RestRun)
      (req : HttpRequest),
      (∀ key keyLen data, (env.hmac key keyLen data).isSome) →
      params.queryParams.entries ≠ [] →
      beast.sendRestRequest boost env sni handler path .hmacSha256 params type =
        .ok (after, start) →
      start.session.req = some req →
      SignatureCovers env.hmac beast.config.keys.secret path req.target := by
  intro hall
  obtain ⟨after, start, req, hsend, hreq⟩ :=
    BinanceBeast.exists_sendRestRequest sampleBoost
      (sampleEnv .insertLeft .left) sampleBeast 0 (ascii "/fapi/v1/allOrders")
      .hmacSha256 sampleParams .get
  have hcovers := hall _ _ _ _ _ _ _ _ _ _ _ (fun _ _ _ => rfl) (by decide)
    hsend hreq
  rw [BinanceBeast.sendRestRequest_target (.inl hsend) hreq] at hcovers
  have hsame := (joinSigned_covers_iff fun _ => rfl).mp hcovers
  exact absurd hsame (by decide)

/-! ## A session calls back once -/

theorem BinanceBeast.createRestSession_launch
    {boost : Boost} {env : RestEnv} {sni : Option ErrorCode}
    {beast after : BinanceBeast} {host path : Str} {createStrand sign : Bool}
    {f : ℕ} {params : RestParams} {type : RequestType} {start : RestRun}
    (hcreate : beast.createRestSession boost env sni host path createStrand
      (some f) sign params type = .ok (after, start)) :
    ∃ session target, session.callback = some f ∧
      start = RestRun.launch boost session sni host beast.config.restPort target
        11 type := by
  obtain ⟨session, hcallback, _, hstart⟩ := createRestSession_runs hcreate
  exact ⟨session, _, hcallback, hstart⟩

theorem RestRun.launch_work_le (boost : Boost) (session : RestSession)
    (sni : Option ErrorCode) (host port target : Str) (version : ℕ)
    (type : RequestType) :
    (RestRun.launch boost session sni host port target version type).work ≤
      10 := by
  unfold RestRun.launch RestSession.run
  cases sni with
  | some ec =>
      cases hcallback : session.callback <;>
        simp [RestRun.performAll, RestRun.perform, failOnPool, RestRun.work]
  | none => simp [RestRun.performAll, RestRun.perform, RestRun.work, RestOp.remaining]

/-- Over every run of a session with a callback: it calls back at most once,
starts nothing after a failed stage, can always be completed and is complete
after at most ten steps, and when it is complete it has called back exactly
once, with a response that says what became of the exchange.  Each started
operation completes once and each posted job runs once; the object has a REST
context for the session to run on (`usesInBounds_iff`). -/
theorem createRestSession_calls_back_once
    {boost : Boost} {env : RestEnv} {o : StageOutcomes}
    {beast after : BinanceBeast} {host path : Str} {createStrand sign : Bool}
    {f : ℕ} {params : RestParams} {type : RequestType} {start s : RestRun}
    {events : List RestEvent}
    (hcreate : beast.createRestSession boost env o.sni host path createStrand
      (some f) sign params type = .ok (after, start))
    (hrun : run (RestRun.step boost o) start events = some s) :
    s.calls.length ≤ 1 ∧
      s.started.Pairwise
        (fun earlier _ => (o.completion earlier).failed = false) ∧
      (o.sni.isSome → s.started = []) ∧
      events.length ≤ 10 ∧
      (∃ more t, run (RestRun.step boost o) s more = some t ∧ t.Quiet) ∧
      (s.Quiet → ∃ thread r, s.calls = [(thread, some f, r)] ∧
        o.Reports boost r) := by
  obtain ⟨session, target, hcallback, rfl⟩ :=
    BinanceBeast.createRestSession_launch hcreate
  have hinv := RestRun.launch_run_invariant hcallback hrun
  have hlength := length_add_measure_le RestRun.work
    (fun _ _ _ hs hstep => RestRun.Invariant.step hs hstep)
    (fun _ _ _ hs hstep => RestRun.Invariant.work_lt hs hstep)
    (RestRun.launch_invariant boost o hcallback host beast.config.restPort
      target 11 type) hrun
  have hwork := RestRun.launch_work_le boost session o.sni host
    beast.config.restPort target 11 type
  refine ⟨hinv.calls_length_le_one, hinv.started_pairwise, hinv.started_nil,
    by omega, hinv.exists_run_to_quiet, hinv.calls_of_quiet⟩

def sampleOutcomes : StageOutcomes where
  sni := none
  resolve := .success
  connect := .success
  handshake := .success
  write := .success
  read := .success
  response := ⟨200, ascii "application/json", ascii "[]"⟩

def openOrdersSession (res : HttpResponse) : RestSession where
  executor := .strand 0
  apiKeys := ⟨ascii "key", ascii "secret"⟩
  callback := some 0
  req := some {
    version := 11
    method := .get
    target := ascii "/fapi/v1/openOrders"
    host := ascii "testnet.binancefuture.com"
    userAgent := userAgent
    apiKey := ascii "key" }
  res := res

theorem openOrders_calls_back_once :
    ∃ after start s,
      sampleBeast.createRestSession sampleBoost (sampleEnv .appendRight .right)
        sampleOutcomes.sni (ascii "testnet.binancefuture.com")
        (ascii "/fapi/v1/openOrders") true (some 0) false ⟨.empty⟩ .get =
          .ok (after, start) ∧
      run (RestRun.step sampleBoost sampleOutcomes) start
        [.complete, .complete, .complete, .complete, .complete, .runJob 0] =
          some s ∧
      s.calls = [(.restCallersThreadPool, some 0, .ofJson (.array []))] ∧
      ∃ thread r, s.calls = [(thread, some 0, r)] ∧
        sampleOutcomes.Reports sampleBoost r := by
  let host := ascii "testnet.binancefuture.com"
  let start : RestRun := {
    session := openOrdersSession ⟨200, [], []⟩
    pending := some (.resolve host (ascii "443"))
    jobs := []
    started := [.resolve host (ascii "443")]
    calls := [] }
  let done : RestRun := {
    session := openOrdersSession sampleOutcomes.response
    pending := none
    jobs := []
    started := RestOp.read.chainTo host (ascii "443")
    calls := [(.restCallersThreadPool, some 0, .ofJson (.array []))] }
  have hcreate : sampleBeast.createRestSession sampleBoost
      (sampleEnv .appendRight .right) sampleOutcomes.sni host
      (ascii "/fapi/v1/openOrders") true (some 0) false ⟨.empty⟩ .get =
        .ok (sampleBeast.getRestIoContext.2, start) := rfl
  have hrun : run (RestRun.step sampleBoost sampleOutcomes) start
      [.complete, .complete, .complete, .complete, .complete, .runJob 0] =
        some done := rfl
  obtain ⟨_, _, _, _, _, hcalls⟩ := createRestSession_calls_back_once hcreate hrun
  exact ⟨_, start, done, hcreate, hrun, rfl, hcalls ⟨rfl, rfl⟩⟩

end Bblib
