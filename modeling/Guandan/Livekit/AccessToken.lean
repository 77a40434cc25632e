import Guandan.Protocol.ViewTexts
import Guandan.Utils.Base64
import Guandan.Utils.HmacSha256

/-!
# Access tokens for the voice rooms

`createLiveKitAccessToken` of `livekit_token.cpp`, and how a token is read: three parts with dots between
them, each in the alphabet of URLs; the second is the value of the claims, unless a string in it has a
control character, and the third is the code of the first two.
-/

namespace Guandan.Livekit

open Quoted
open Json (Shorthand)
open Guandan.Protocol.Views

structure LiveKitConfig where
  enabled : Bool := false
  apiKey : String := ""
  apiSecret : String := ""
  tokenTtlSeconds : Int := 3600

def jsonEscapeMinimal (s : Text) : Text :=
  s.flatMap fun c => if c = '"' then ['\\', '"'] else if c = '\\' then ['\\', '\\'] else [c]

/-- What `jsonEscapeMinimal` escapes. -/
def minimalMarks : Shorthand where
  pairs := [('"', '"'), ('\\', '\\')]
  reads := by decide
  special := by decide

theorem jsonEscapeMinimal_eq (s : Text) : jsonEscapeMinimal s = minimalMarks.run s :=
  minimalMarks.run_eq fun _ => rfl

/-- The string that is not escaped has no control characters. -/
theorem minimalMarks_covers {s : Text} : minimalMarks.Covers s ↔ Json.Printable s := by
  refine forall₂_congr fun c _ => ?_
  rw [Json.standard_special]
  constructor
  · intro h
    by_contra hcontrol
    have hmark := h (.inr (.inr (by omega)))
    have hquote : (c == '"') = false := by
      rw [beq_eq_false_iff_ne]
      rintro rfl
      exact hcontrol (by decide)
    have hslash : (c == '\\') = false := by
      rw [beq_eq_false_iff_ne]
      rintro rfl
      exact hcontrol (by decide)
    simp [Shorthand.mark, minimalMarks, List.lookup_cons, hquote, hslash] at hmark
  · rintro hc (rfl | rfl | hlt)
    · rfl
    · rfl
    · omega

section Token

variable (config : LiveKitConfig) (iat : Int) (roomName identity displayName : String)

def tokenHeader : String := "\x7b\"alg\":\"HS256\",\"typ\":\"JWT\"\x7d"

def tokenPayload : Text :=
  record [
    ("iss", inQuotes (jsonEscapeMinimal config.apiKey.toList)),
    ("sub", inQuotes (jsonEscapeMinimal identity.toList)),
    ("iat", Json.writeInt iat),
    ("nbf", Json.writeInt iat),
    ("exp", Json.writeInt (iat + config.tokenTtlSeconds)),
    ("name", inQuotes (jsonEscapeMinimal displayName.toList)),
    ("video", record [
      ("room", inQuotes (jsonEscapeMinimal roomName.toList)),
      ("roomJoin", flag true),
      ("canPublish", flag true),
      ("canSubscribe", flag true),
      ("canPublishData", flag true)])]

/-- The text that is signed. -/
def signingInput : Text :=
  base64UrlEncode (utf8 tokenHeader) ++ '.' ::
    base64UrlEncode (utf8 (String.ofList (tokenPayload config iat roomName identity displayName)))

/-- `iat` is the time in seconds. -/
def createLiveKitAccessToken : String :=
  if config.enabled = false ∨ config.apiKey = "" ∨ config.apiSecret = "" then ""
  else
    let input := signingInput config iat roomName identity displayName
    String.ofList (input ++ '.' ::
      base64UrlEncode (hmacSha256 (utf8 config.apiSecret) (utf8 (String.ofList input))))

/-! ### The claims -/

def videoValues : List (String × Json) :=
  [("room", .str roomName.toList), ("roomJoin", .bool true), ("canPublish", .bool true),
    ("canSubscribe", .bool true), ("canPublishData", .bool true)]

def claimValues : List (String × Json) :=
  [("iss", .str config.apiKey.toList), ("sub", .str identity.toList), ("iat", .num iat), ("nbf", .num iat),
    ("exp", .num (iat + config.tokenTtlSeconds)), ("name", .str displayName.toList),
    ("video", object (videoValues roomName))]

/-- The value that the payload is the text of. -/
def tokenClaims : Json := object (claimValues config iat roomName identity displayName)

theorem inQuotes_jsonEscapeMinimal (s : String) :
    inQuotes (jsonEscapeMinimal s.toList) = Json.write minimalMarks.run (.str s.toList) := by
  rw [jsonEscapeMinimal_eq]
  rfl

theorem plainKeys_video : PlainKeys ((videoValues roomName).map (·.1)) := by
  simp only [videoValues, List.map_cons, List.map_nil]
  decide

theorem plainKeys_claims :
    PlainKeys ((claimValues config iat roomName identity displayName).map (·.1)) := by
  simp only [claimValues, List.map_cons, List.map_nil]
  decide

theorem tokenPayload_eq : tokenPayload config iat roomName identity displayName =
    Json.write minimalMarks.run (tokenClaims config iat roomName identity displayName) := by
  have hint (n : Int) : Json.writeInt n = Json.write minimalMarks.run (.num n) := rfl
  apply write_record _ (plainKeys_claims config iat roomName identity displayName)
  have hvideo := write_record minimalMarks (plainKeys_video roomName) rfl
  simp only [claimValues, List.map_cons, List.map_nil, ← hvideo]
  simp only [inQuotes_jsonEscapeMinimal, hint, videoValues, List.map_cons, List.map_nil,
    write_flag minimalMarks]

theorem decode_tokenPayload_iff :
    Json.decode (tokenPayload config iat roomName identity displayName) =
        some (tokenClaims config iat roomName identity displayName) ↔
      ∀ s ∈ [config.apiKey, identity, displayName, roomName], Json.Printable s.toList := by
  have hvideo : minimalMarks.CoversAll (object (videoValues roomName)) ↔
      Json.Printable roomName.toList := by
    rw [coversAll_object _ (plainKeys_video roomName)]
    simp [videoValues, Shorthand.coversAll_str, Shorthand.coversAll_bool, minimalMarks_covers]
  rw [tokenPayload_eq, minimalMarks.decode_write_iff, tokenClaims,
    coversAll_object _ (plainKeys_claims config iat roomName identity displayName)]
  simp [claimValues, hvideo, Shorthand.coversAll_str, Shorthand.coversAll_num, minimalMarks_covers]

/-! ### Reading a token -/

/-- The reader of the alphabet of URLs. -/
def urlDecode (part : List Char) : List UInt8 :=
  base64Decode (part.map fun c => if c = '-' then '+' else if c = '_' then '/' else c)

theorem urlDecode_encode (data : List UInt8) : urlDecode (base64UrlEncode data) = data := by
  have hback : ∀ n ∈ Base64.sextets data, (fun c => if c = '-' then '+' else if c = '_' then '/' else c)
      (urlChar (Base64.char n)) = Base64.char n := by
    have hall : ∀ n < 64, (fun c => if c = '-' then '+' else if c = '_' then '/' else c)
        (urlChar (Base64.char n)) = Base64.char n := by decide +kernel
    exact fun n hn => hall n (Base64.sextets_lt data n hn)
  have hchars : (base64UrlEncode data).map (fun c => if c = '-' then '+' else if c = '_' then '/' else c) =
      (Base64.encode data).filter (· != '=') := by
    rw [base64UrlEncode_eq, filter_encode, List.map_map, List.map_map]
    exact List.map_congr_left hback
  have hpad (text : List Char) : (text.filter (· != '=')).filterMap DecodeState.value =
      text.filterMap DecodeState.value := by
    rw [List.filterMap_filter]
    refine List.filterMap_congr fun c _ => ?_
    by_cases hc : c = '='
    · subst hc
      rfl
    · simp [hc]
  rw [urlDecode, hchars, base64Decode_eq, hpad, values_encode, Base64.bytes_sextets]

theorem dot_not_mem_base64UrlEncode (data : List UInt8) : '.' ∉ base64UrlEncode data := by
  have hall : ∀ n < 64, urlChar (Base64.char n) ≠ '.' := by decide +kernel
  rw [base64UrlEncode_eq, List.map_map, List.mem_map]
  rintro ⟨n, hn, hdot⟩
  exact hall n (Base64.sextets_lt data n hn) hdot

/-- Of the three parts of the token, the second is the text of this value. -/
def Tells (token : String) (value : Json) : Prop :=
  ∃ header payload signature text, token.toList.splitOn '.' = [header, payload, signature] ∧
    urlDecode payload = utf8 (String.ofList text) ∧ Json.decode text = some value

/-- The third part is the code of the other two, and of no other text unless SHA-256 merges two. -/
def SignedWith (secret token : String) : Prop :=
  ∃ header payload signature, token.toList.splitOn '.' = [header, payload, signature] ∧
    ∀ text : String, text.utf8ByteSize < 2 ^ 60 →
      (String.ofList (header ++ '.' :: payload)).utf8ByteSize < 2 ^ 60 →
      (hmacSha256 (utf8 secret) (utf8 text) = urlDecode signature ↔
        text = String.ofList (header ++ '.' :: payload) ∨
          CodesMerge (utf8 secret) (utf8 text) (utf8 (String.ofList (header ++ '.' :: payload))))

theorem createLiveKitAccessToken_eq_empty :
    createLiveKitAccessToken config iat roomName identity displayName = "" ↔
      config.enabled = false ∨ config.apiKey = "" ∨ config.apiSecret = "" := by
  unfold createLiveKitAccessToken
  split_ifs with h
  · simp [h]
  · refine iff_of_false (fun hempty => ?_) h
    have hlist := congrArg String.toList hempty
    simp at hlist

variable {config iat roomName identity displayName}

theorem splitOn_token (h : createLiveKitAccessToken config iat roomName identity displayName ≠ "") :
    (createLiveKitAccessToken config iat roomName identity displayName).toList.splitOn '.' =
      [base64UrlEncode (utf8 tokenHeader),
        base64UrlEncode (utf8 (String.ofList (tokenPayload config iat roomName identity displayName))),
        base64UrlEncode (hmacSha256 (utf8 config.apiSecret)
          (utf8 (String.ofList (signingInput config iat roomName identity displayName))))] := by
  rw [ne_eq, createLiveKitAccessToken_eq_empty] at h
  have hdots (x y z : List UInt8) :
      (base64UrlEncode x ++ '.' :: base64UrlEncode y ++ '.' :: base64UrlEncode z).splitOn '.' =
        [base64UrlEncode x, base64UrlEncode y, base64UrlEncode z] := by
    have hsplit : (['.'].intercalate [base64UrlEncode x, base64UrlEncode y, base64UrlEncode z]).splitOn '.' =
        [base64UrlEncode x, base64UrlEncode y, base64UrlEncode z] :=
      List.splitOn_intercalate '.' (by simp [dot_not_mem_base64UrlEncode]) (List.cons_ne_nil _ _)
    simpa [List.intercalate, List.intersperse] using hsplit
  rw [createLiveKitAccessToken, if_neg h, String.toList_ofList]
  exact hdots _ _ _

/-- The token tells its claims exactly when their strings have no control characters. -/
theorem tells_iff (h : createLiveKitAccessToken config iat roomName identity displayName ≠ "") :
    Tells (createLiveKitAccessToken config iat roomName identity displayName)
        (tokenClaims config iat roomName identity displayName) ↔
      ∀ s ∈ [config.apiKey, identity, displayName, roomName], Json.Printable s.toList := by
  rw [← decode_tokenPayload_iff]
  constructor
  · rintro ⟨header, payload, signature, text, hsplit, htext, hdecode⟩
    rw [splitOn_token h] at hsplit
    simp only [List.cons.injEq, and_true] at hsplit
    obtain ⟨-, rfl, -⟩ := hsplit
    rw [urlDecode_encode, utf8_injective.eq_iff] at htext
    rw [String.ofList_injective htext]
    exact hdecode
  · intro hdecode
    exact ⟨_, _, _, _, splitOn_token h, urlDecode_encode _, hdecode⟩

theorem Tells.unique {token : String} {value value' : Json} (h : Tells token value)
    (h' : Tells token value') : value = value' := by
  obtain ⟨header, payload, signature, text, hsplit, htext, hdecode⟩ := h
  obtain ⟨header', payload', signature', text', hsplit', htext', hdecode'⟩ := h'
  rw [hsplit] at hsplit'
  simp only [List.cons.injEq, and_true] at hsplit'
  obtain ⟨-, rfl, -⟩ := hsplit'
  rw [htext, utf8_injective.eq_iff] at htext'
  rw [String.ofList_injective htext', hdecode', Option.some_inj] at hdecode
  exact hdecode.symm

theorem signedWith (h : createLiveKitAccessToken config iat roomName identity displayName ≠ "") :
    SignedWith config.apiSecret (createLiveKitAccessToken config iat roomName identity displayName) := by
  refine ⟨_, _, _, splitOn_token h, fun text htext hinput => ?_⟩
  rw [urlDecode_encode, ← utf8_injective.eq_iff]
  exact hmacSha256_data_iff htext hinput

end Token

end Guandan.Livekit
