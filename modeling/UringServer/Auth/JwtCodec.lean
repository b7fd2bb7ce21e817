import UringServer.Auth.Base64Url
import UringServer.Semantics.Search

/-!
# Tokens

`JwtCodec::Encode` and `JwtCodec::Decode`. The reading and writing of JSON is
that of the JSON library, and the signature any function that writes base64url
strings. A field of the wrong type makes `Decode` throw.
-/

namespace UringServer.Auth

open UringServer.Semantics UringServer.Web

/-- `serverweb::WebError`. -/
inductive WebError where
  | badRequest
  | unauthorized
  | notFound
  | methodNotAllowed
  | internalError
  | upgradeRequired
deriving DecidableEq, Repr

/-- `JwtClaims`. -/
structure JwtClaims where
  sub : Text := []
  deviceId : Text := []
  iat : Int64 := 0
  exp : Int64 := 0
deriving DecidableEq, Repr

/-- A value of `nlohmann::json`. A number with a fraction or an exponent is kept by the integer
it is converted to; booleans, `null` and arrays, of which nothing is read, are the same value. -/
inductive Json where
  | string (value : Text)
  | integer (value : Int)
  | float (truncated : Int64)
  | object (fields : List (Text × Json))
  | other

/-- `object[key] = value` on the fields of an object, which are kept in the order of their keys. -/
def setField (key : Text) (value : Json) : List (Text × Json) → List (Text × Json)
  | [] => [(key, value)]
  | (other, held) :: rest =>
    if key = other then
      (key, value) :: rest
    else if key < other then
      (key, value) :: (other, held) :: rest
    else
      (other, held) :: setField key value rest

/-- `contains` and `operator[]`. -/
def Json.field (key : Text) : Json → Option Json
  | .object fields => fields.lookup key
  | _ => none

/-- `get<std::string>`, which throws on any other type. -/
def Json.getString : Json → Option Text
  | .string value => some value
  | _ => none

/-- `get<std::int64_t>`, which converts numbers and throws on any other type. -/
def Json.getInt64 : Json → Option Int64
  | .integer value => some (.ofInt value)
  | .float truncated => some truncated
  | _ => none

/-- The JSON library. -/
structure JsonLibrary where
  dump : Json → Text
  parse : Text → Option Json
  /-- The empty text is not a JSON text. -/
  parse_nil : parse [] = none

/-- The header of every token. -/
def tokenHeader : Json :=
  .object (setField (ascii "typ") (.string (ascii "JWT"))
    (setField (ascii "alg") (.string (ascii "HS256")) []))

/-- The payload of a token for the given claims. -/
def payload (claims : JwtClaims) : Json :=
  let fields := setField (ascii "sub") (.string claims.sub) []
  let fields :=
    if claims.deviceId = [] then fields
    else setField (ascii "did") (.string claims.deviceId) fields
  let fields := setField (ascii "iat") (.integer claims.iat.toInt) fields
  .object (setField (ascii "exp") (.integer claims.exp.toInt) fields)

/-- `JwtCodec::Encode`, with the function that `Sign` is for the secret. -/
def encode (library : JsonLibrary) (sign : Text → Text) (claims : JwtClaims) : Text :=
  let h := base64UrlEncode (library.dump tokenHeader)
  let p := base64UrlEncode (library.dump (payload claims))
  let headerPayload := h ++ [0x2E] ++ p
  headerPayload ++ [0x2E] ++ sign headerPayload

/-- A field that keeps its default if the object does not have it. -/
def fieldOr {α : Type} (json : Json) (key : Text) (get : Json → Option α) (default : α) :
    Option α :=
  match json.field key with
  | none => some default
  | some value => get value

/-- The four fields of the claims; nothing if reading one of them throws. -/
def readClaims (json : Json) : Option JwtClaims :=
  let claims : JwtClaims := {}
  (fieldOr json (ascii "sub") Json.getString claims.sub).bind fun sub =>
  (fieldOr json (ascii "did") Json.getString claims.deviceId).bind fun deviceId =>
  (fieldOr json (ascii "iat") Json.getInt64 claims.iat).bind fun iat =>
  (fieldOr json (ascii "exp") Json.getInt64 claims.exp).map fun exp =>
    { sub, deviceId, iat, exp }

/-- How a call of `Decode` ends. -/
inductive Decoded where
  | claims (claims : JwtClaims)
  | error (error : WebError)
  | thrown
deriving DecidableEq, Repr

/-- `Decode` behind the check of the signature. -/
def decodePayload (library : JsonLibrary) (payloadB64 : Text) (now : Int64) : Decoded :=
  let payloadBytes := base64UrlDecode payloadB64
  if payloadBytes = [] then
    .error .badRequest
  else match library.parse payloadBytes with
    | none => .error .badRequest
    | some json => match readClaims json with
      | none => .thrown
      | some claims =>
        if 0 < claims.exp ∧ claims.exp < now then .error .unauthorized else .claims claims

/-- `JwtCodec::Decode`. -/
def decode (library : JsonLibrary) (sign : Text → Text) (token : Text) (now : Int64) : Decoded :=
  match findElement token 0x2E 0 with
  | none => .error .badRequest
  | some dot1 => match findElement token 0x2E (dot1 + 1) with
    | none => .error .badRequest
    | some dot2 => match findElement token 0x2E (dot2 + 1) with
      | some _ => .error .badRequest
      | none =>
        let headerPayload := token.take dot2
        let signature := token.drop (dot2 + 1)
        if sign headerPayload ≠ signature then
          .error .unauthorized
        else
          decodePayload library ((token.drop (dot1 + 1)).take (dot2 - dot1 - 1)) now

/-- `JwtCodec::Sign`, with the message authentication code as a parameter. -/
def signWith (hmac : Text → Text → Text) (secret data : Text) : Text :=
  base64UrlEncode (hmac secret data)

theorem signWith_isBase64Url (hmac : Text → Text → Text) (secret data : Text) :
    IsBase64Url (signWith hmac secret data) :=
  base64UrlEncode_isBase64Url _

/-- Three parts without a dot. -/
structure ThreeParts (token header middle signature : Text) : Prop where
  whole : token = header ++ 0x2E :: (middle ++ 0x2E :: signature)
  header : 0x2E ∉ header
  middle : 0x2E ∉ middle
  signature : 0x2E ∉ signature

variable {token header middle signature : Text}

theorem ThreeParts.count (parts : ThreeParts token header middle signature) :
    token.count 0x2E = 2 := by
  rw [parts.whole, List.count_append, List.count_cons_self, List.count_append,
    List.count_cons_self, List.count_eq_zero.mpr parts.header,
    List.count_eq_zero.mpr parts.middle, List.count_eq_zero.mpr parts.signature]

/-- What `Decode` does with a token of three parts. -/
theorem ThreeParts.decode_eq (parts : ThreeParts token header middle signature)
    (library : JsonLibrary) (sign : Text → Text) (now : Int64) :
    decode library sign token now =
      if sign (header ++ 0x2E :: middle) ≠ signature then .error .unauthorized
      else decodePayload library middle now := by
  have beforeSignature : token = (header ++ 0x2E :: middle) ++ 0x2E :: signature := by
    rw [parts.whole, List.append_assoc, List.cons_append]
  have long : header.length + 1 + middle.length = (header ++ 0x2E :: middle).length := by
    rw [List.length_append, List.length_cons]
    omega
  have first : findElement token 0x2E 0 = some header.length :=
    findElement_eq_some.mpr ⟨header, _, parts.whole, parts.header, rfl⟩
  have second : findElement token 0x2E (header.length + 1) =
      some (header ++ 0x2E :: middle).length := by
    rw [parts.whole, findElement_behind,
      findElement_eq_some.mpr ⟨middle, signature, rfl, parts.middle, rfl⟩, ← long]
    rfl
  have third : findElement token 0x2E ((header ++ 0x2E :: middle).length + 1) = none := by
    rw [beforeSignature, findElement_behind, findElement_eq_none.mpr parts.signature]
    rfl
  have headerPayload : token.take (header ++ 0x2E :: middle).length = header ++ 0x2E :: middle := by
    rw [beforeSignature, List.take_left]
  have afterDot : token.drop ((header ++ 0x2E :: middle).length + 1) = signature := by
    rw [beforeSignature, ← List.drop_drop, List.drop_left]
    rfl
  have between : (token.drop (header.length + 1)).take
      ((header ++ 0x2E :: middle).length - header.length - 1) = middle := by
    rw [parts.whole, ← List.drop_drop, List.drop_left, ← long]
    exact List.take_left' (by omega)
  unfold decode
  simp only [first, second, third, headerPayload, afterDot, between]

/-- A token that is not refused for its form has three parts. -/
theorem threeParts_or_badRequest (library : JsonLibrary) (sign : Text → Text) (token : Text)
    (now : Int64) :
    (∃ header middle signature, ThreeParts token header middle signature) ∨
      decode library sign token now = .error .badRequest := by
  unfold decode
  rcases first : findElement token 0x2E 0 with _ | dot1
  · exact Or.inr rfl
  obtain ⟨header, back, rfl, headerPart, rfl⟩ := findElement_eq_some.mp first
  dsimp only
  rw [findElement_behind]
  rcases second : findElement back 0x2E 0 with _ | dot2
  · exact Or.inr rfl
  obtain ⟨middle, signature, rfl, middlePart, rfl⟩ := findElement_eq_some.mp second
  have whole : header ++ 0x2E :: (middle ++ 0x2E :: signature) =
      (header ++ 0x2E :: middle) ++ 0x2E :: signature := by
    rw [List.append_assoc, List.cons_append]
  have long : header.length + 1 + middle.length = (header ++ 0x2E :: middle).length := by
    rw [List.length_append, List.length_cons]
    omega
  rw [Option.map_some]
  dsimp only
  rw [long]
  rcases third : findElement signature 0x2E 0 with _ | dot3
  · exact Or.inl ⟨header, middle, signature, rfl, headerPart, middlePart,
      findElement_eq_none.mp third⟩
  · refine Or.inr ?_
    rw [whole, findElement_behind, third]
    rfl

theorem lookup_cons (key other : Text) (value : Json) (fields : List (Text × Json)) :
    ((key, value) :: fields).lookup other =
      if other = key then some value else fields.lookup other := by
  by_cases same : other = key
  · rw [if_pos same, same, List.lookup_cons_self]
  · rw [if_neg same, List.lookup_cons, beq_eq_false_iff_ne.mpr same]

theorem lookup_setField (key other : Text) (value : Json) (fields : List (Text × Json)) :
    (setField key value fields).lookup other =
      if other = key then some value else fields.lookup other := by
  induction fields with
  | nil => exact lookup_cons key other value []
  | cons entry fields ih =>
    obtain ⟨held, json⟩ := entry
    unfold setField
    by_cases same : key = held
    · subst same
      rw [if_pos rfl, lookup_cons, lookup_cons]
      by_cases isKey : other = key
      · rw [if_pos isKey, if_pos isKey]
      · rw [if_neg isKey, if_neg isKey, if_neg isKey]
    · rw [if_neg same]
      by_cases less : key < held
      · rw [if_pos less]
        exact lookup_cons key other value _
      · rw [if_neg less, lookup_cons, lookup_cons, ih]
        by_cases isHeld : other = held
        · rw [if_pos isHeld, if_neg (isHeld ▸ Ne.symm same), if_pos isHeld]
        · rw [if_neg isHeld, if_neg isHeld]

/-- A field of the claims comes from the field of the object, or is its default. -/
def TakenFrom {α : Type} (json : Json) (key : Text) (get : Json → Option α) (default value : α) :
    Prop :=
  (json.field key = none ∧ value = default) ∨
    ∃ held, json.field key = some held ∧ get held = some value

theorem fieldOr_eq_some {α : Type} {json : Json} {key : Text} {get : Json → Option α}
    {default value : α} :
    fieldOr json key get default = some value ↔ TakenFrom json key get default value := by
  unfold fieldOr TakenFrom
  cases json.field key with
  | none => simp [eq_comm]
  | some held => simp

/-- Where the claims that `Decode` returns come from. -/
structure ReadFrom (json : Json) (claims : JwtClaims) : Prop where
  sub : TakenFrom json (ascii "sub") Json.getString [] claims.sub
  deviceId : TakenFrom json (ascii "did") Json.getString [] claims.deviceId
  iat : TakenFrom json (ascii "iat") Json.getInt64 0 claims.iat
  exp : TakenFrom json (ascii "exp") Json.getInt64 0 claims.exp

theorem readClaims_eq_some {json : Json} {claims : JwtClaims} :
    readClaims json = some claims ↔ ReadFrom json claims := by
  unfold readClaims
  simp only [Option.bind_eq_some_iff, Option.map_eq_some_iff, fieldOr_eq_some]
  constructor
  · rintro ⟨sub, subTaken, deviceId, deviceTaken, iat, iatTaken, exp, expTaken, rfl⟩
    exact ⟨subTaken, deviceTaken, iatTaken, expTaken⟩
  · intro read
    exact ⟨_, read.sub, _, read.deviceId, _, read.iat, _, read.exp, rfl⟩

theorem payload_readFrom (claims : JwtClaims) : ReadFrom (payload claims) claims := by
  have number : ∀ value : Int64, Json.getInt64 (.integer value.toInt) = some value := fun value =>
    congrArg some (Int64.ofInt_toInt value)
  by_cases noDevice : claims.deviceId = []
  · have fields : payload claims = .object (setField (ascii "exp") (.integer claims.exp.toInt)
        (setField (ascii "iat") (.integer claims.iat.toInt)
          (setField (ascii "sub") (.string claims.sub) []))) := by
      simp only [payload, if_pos noDevice]
    refine ⟨.inr ⟨.string claims.sub, ?_, rfl⟩, .inl ⟨?_, noDevice⟩,
      .inr ⟨.integer claims.iat.toInt, ?_, number _⟩,
      .inr ⟨.integer claims.exp.toInt, ?_, number _⟩⟩
    all_goals
      rw [fields]
      simp only [Json.field, lookup_setField]
      rfl
  · have fields : payload claims = .object (setField (ascii "exp") (.integer claims.exp.toInt)
        (setField (ascii "iat") (.integer claims.iat.toInt)
          (setField (ascii "did") (.string claims.deviceId)
            (setField (ascii "sub") (.string claims.sub) [])))) := by
      simp only [payload, if_neg noDevice]
    refine ⟨.inr ⟨.string claims.sub, ?_, rfl⟩, .inr ⟨.string claims.deviceId, ?_, rfl⟩,
      .inr ⟨.integer claims.iat.toInt, ?_, number _⟩,
      .inr ⟨.integer claims.exp.toInt, ?_, number _⟩⟩
    all_goals
      rw [fields]
      simp only [Json.field, lookup_setField]
      rfl

/-- `Decode` reads the payload of a token back, and refuses an expired one. -/
theorem decodePayload_payload {library : JsonLibrary} {claims : JwtClaims}
    (undone : library.parse (library.dump (payload claims)) = some (payload claims))
    (now : Int64) :
    decodePayload library (base64UrlEncode (library.dump (payload claims))) now =
      if claims.exp ≤ 0 ∨ now ≤ claims.exp then .claims claims else .error .unauthorized := by
  have written : library.dump (payload claims) ≠ [] := by
    intro empty
    rw [empty, library.parse_nil] at undone
    exact absurd undone nofun
  have expired : (0 < claims.exp ∧ claims.exp < now) ↔ ¬ (claims.exp ≤ 0 ∨ now ≤ claims.exp) := by
    rw [not_or, Int64.not_le, Int64.not_le]
  unfold decodePayload
  rw [base64UrlDecode_base64UrlEncode]
  dsimp only
  rw [if_neg written, undone]
  dsimp only
  rw [readClaims_eq_some.mpr (payload_readFrom claims)]
  dsimp only
  by_cases live : claims.exp ≤ 0 ∨ now ≤ claims.exp
  · rw [if_pos live, if_neg fun late => expired.mp late live]
  · rw [if_neg live, if_pos (expired.mpr live)]

theorem readFrom_of_decodePayload {library : JsonLibrary} {payloadB64 : Text} {now : Int64}
    {claims : JwtClaims} (accepted : decodePayload library payloadB64 now = .claims claims) :
    ∃ json, library.parse (base64UrlDecode payloadB64) = some json ∧ ReadFrom json claims := by
  unfold decodePayload at accepted
  dsimp only at accepted
  split at accepted
  · cases accepted
  · split at accepted
    · cases accepted
    · rename_i json parsed
      split at accepted
      · cases accepted
      · rename_i read taken
        split at accepted
        · cases accepted
        · cases accepted
          exact ⟨json, parsed, readClaims_eq_some.mp taken⟩

/-- A token that `Encode` wrote has three parts. -/
theorem encode_threeParts (library : JsonLibrary) {sign : Text → Text}
    (signs : ∀ data, IsBase64Url (sign data)) (claims : JwtClaims) :
    ThreeParts (encode library sign claims) (base64UrlEncode (library.dump tokenHeader))
      (base64UrlEncode (library.dump (payload claims)))
      (sign (base64UrlEncode (library.dump tokenHeader) ++
        0x2E :: base64UrlEncode (library.dump (payload claims)))) where
  whole := by
    unfold encode
    simp only [List.append_assoc, List.cons_append, List.nil_append]
  header := (base64UrlEncode_isBase64Url _).no_dot
  middle := (base64UrlEncode_isBase64Url _).no_dot
  signature := (signs _).no_dot

/-- What `Decode` gives for a token that `Encode` wrote, and what every token that it accepts
is. -/
theorem jwt_round_trip_authentic (library : JsonLibrary) (sign : Text → Text → Text)
    (signs : ∀ secret data, IsBase64Url (sign secret data)) (secret : Text) :
    (∀ claims now, library.parse (library.dump (payload claims)) = some (payload claims) →
      decode library (sign secret) (encode library (sign secret) claims) now =
        if claims.exp ≤ 0 ∨ now ≤ claims.exp then .claims claims else .error .unauthorized) ∧
    ∀ token now claims, decode library (sign secret) token now = .claims claims →
      token.count 0x2E = 2 ∧
      ∃ header middle json, 0x2E ∉ sign secret (header ++ [0x2E] ++ middle) ∧
        token = header ++ [0x2E] ++ middle ++ [0x2E] ++
          sign secret (header ++ [0x2E] ++ middle) ∧
        library.parse (base64UrlDecode middle) = some json ∧ ReadFrom json claims := by
  constructor
  · intro claims now undone
    rw [(encode_threeParts library (signs secret) claims).decode_eq, if_neg (not_not.mpr rfl)]
    exact decodePayload_payload undone now
  · intro token now claims accepted
    rcases threeParts_or_badRequest library (sign secret) token now with
      ⟨header, middle, signature, parts⟩ | refused
    · rw [parts.decode_eq] at accepted
      split at accepted
      · cases accepted
      · rename_i signed
        obtain ⟨json, parsed, read⟩ := readFrom_of_decodePayload accepted
        have same : sign secret (header ++ [0x2E] ++ middle) = signature := by
          rw [List.append_assoc]
          exact not_not.mp signed
        refine ⟨parts.count, header, middle, json, same ▸ parts.signature, ?_, parsed, read⟩
        rw [same, parts.whole]
        simp only [List.append_assoc, List.cons_append, List.nil_append]
    · rw [refused] at accepted
      cases accepted

/-- The claims of a player, and a library that knows the texts of their token. -/
def playerClaims : JwtClaims := { sub := ascii "7", deviceId := ascii "d", iat := 1, exp := 10 }

def headerText : Text := ascii "\x7b\"alg\":\"HS256\",\"typ\":\"JWT\"\x7d"

def playerText : Text :=
  ascii "\x7b\"did\":\"d\",\"exp\":10,\"iat\":1,\"sub\":\"7\"\x7d"

def playerLibrary : JsonLibrary where
  dump json := if (json.field (ascii "alg")).isSome then headerText else playerText
  parse text := if text = playerText then some (payload playerClaims) else none
  parse_nil := if_neg (by decide)

/-- The token of the player is accepted until it expires. -/
theorem playerToken_round_trip :
    let sign := signWith fun secret data => secret ++ data
    let token := encode playerLibrary (sign (ascii "secret")) playerClaims
    decode playerLibrary (sign (ascii "secret")) token 10 = .claims playerClaims ∧
      decode playerLibrary (sign (ascii "secret")) token 11 = .error .unauthorized ∧
      token.count 0x2E = 2 := by
  obtain ⟨roundTrip, authentic⟩ := jwt_round_trip_authentic playerLibrary
    (signWith fun secret data => secret ++ data) (signWith_isBase64Url _) (ascii "secret")
  have undone : playerLibrary.parse (playerLibrary.dump (payload playerClaims)) =
      some (payload playerClaims) := rfl
  have accepted := (roundTrip playerClaims 10 undone).trans (if_pos (by decide))
  exact ⟨accepted, (roundTrip playerClaims 11 undone).trans (if_neg (by decide)),
    (authentic _ 10 playerClaims accepted).1⟩

end UringServer.Auth
