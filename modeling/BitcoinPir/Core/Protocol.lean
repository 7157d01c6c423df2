import BitcoinPir.Core.Types

/-!
# Response envelopes

Every response body begins with a variant byte. `rejectErrorResponse` turns the server's error
envelope into an error of the client, and `responsePayload` strips the variant byte of a
response of the expected kind.
-/

namespace BitcoinPir

open Foundations

/-- The variant byte of an error response. -/
def respError : UInt8 := 0xff

/-- Text received as UTF-8 bytes. -/
def fromUtf8 (bs : Bytes) : Option String := String.fromUTF8? ⟨bs.toArray⟩

/-- Text sent as UTF-8 bytes. -/
def toUtf8 (s : String) : Bytes := s.toUTF8.data.toList

@[simp]
theorem fromUtf8_toUtf8 (s : String) : fromUtf8 (toUtf8 s) = some s := by
  have hvalid : (⟨(toUtf8 s).toArray⟩ : ByteArray).IsValidUTF8 := by
    simpa [toUtf8] using s.isValidUTF8
  unfold fromUtf8 String.fromUTF8?
  rw [dif_pos hvalid]
  simp [toUtf8, String.fromUTF8]

theorem toUtf8_of_fromUtf8 {bs : Bytes} {s : String} (h : fromUtf8 bs = some s) :
    toUtf8 s = bs := by
  unfold fromUtf8 String.fromUTF8? at h
  split at h
  · cases h
    rfl
  · cases h

/-- The bytes a lead byte of a UTF-8 sequence may be followed by: the range of the second byte
and the number of further continuation bytes. -/
def utf8Follow (lead : UInt8) : Option (UInt8 × UInt8 × ℕ) :=
  if 0xc2 ≤ lead ∧ lead ≤ 0xdf then some (0x80, 0xbf, 0)
  else if lead = 0xe0 then some (0xa0, 0xbf, 1)
  else if lead = 0xed then some (0x80, 0x9f, 1)
  else if 0xe1 ≤ lead ∧ lead ≤ 0xef then some (0x80, 0xbf, 1)
  else if lead = 0xf0 then some (0x90, 0xbf, 2)
  else if 0xf1 ≤ lead ∧ lead ≤ 0xf3 then some (0x80, 0xbf, 2)
  else if lead = 0xf4 then some (0x80, 0x8f, 2)
  else none

/-- The number of continuation bytes at the front that fit a sequence, out of `n`. -/
def utf8Tail : ℕ → Bytes → ℕ
  | n + 1, b :: bs => if 0x80 ≤ b ∧ b ≤ 0xbf then 1 + utf8Tail n bs else 0
  | _, _ => 0

/-- The first character of a non-empty byte string and the number of further bytes it takes; a
sequence that breaks off counts as one replacement character. -/
def utf8Char (lead : UInt8) (rest : Bytes) : Char × ℕ :=
  if lead < 0x80 then (Char.ofNat lead.toNat, 0)
  else
    match utf8Follow lead, rest with
    | some (lo, hi, further), b :: bs =>
      if lo ≤ b ∧ b ≤ hi then
        let tail := utf8Tail further bs
        if tail = further then
          let bits := fun (acc : ℕ) (c : UInt8) => acc * 64 + c.toNat % 64
          let lower := (b :: bs.take further).foldl bits 0
          (Char.ofNat (lead.toNat % 2 ^ (5 - further) * 64 ^ (further + 1) + lower), further + 1)
        else (Char.ofNat 0xfffd, tail + 1)
      else (Char.ofNat 0xfffd, 0)
    | _, _ => (Char.ofNat 0xfffd, 0)

/-- Text received as bytes that need not be UTF-8; `fuel` bounds the number of characters. -/
def utf8LossyChars : ℕ → Bytes → List Char
  | fuel + 1, lead :: rest =>
    let (c, n) := utf8Char lead rest
    c :: utf8LossyChars fuel (rest.drop n)
  | _, _ => []

def fromUtf8Lossy (bs : Bytes) : String := String.ofList (utf8LossyChars bs.length bs)

/-- The message of an error envelope; `none` for any other response. -/
def decodeErrorResponseMessage (body : Bytes) (context : String) :
    PirResult (Option String) :=
  if body.head? ≠ some respError then .ok none
  else if body.length < 5 then .error (.decode s!"{context}: truncated RESP_ERROR envelope")
  else
    let messageLen := leNat ((body.drop 1).take 4)
    if body.length ≠ 5 + messageLen then
      .error (.decode
        s!"{context}: RESP_ERROR length mismatch: envelope declares {messageLen} message bytes, body has {body.length - 5}")
    else
      match fromUtf8 (body.drop 5) with
      | none => .error (.decode s!"{context}: RESP_ERROR message is not valid UTF-8")
      | some message => .ok (some message)

/-- Fail on an error envelope. -/
def rejectErrorResponse (body : Bytes) (context : String) : PirResult Unit :=
  match decodeErrorResponseMessage body context with
  | .error e => .error e
  | .ok (some message) => .error (.serverError s!"{context}: {message}")
  | .ok none => .ok ()

/-- A response that does not begin with the error variant passes. -/
theorem rejectErrorResponse_of_head? {body : Bytes} (h : body.head? ≠ some respError)
    (context : String) : rejectErrorResponse body context = .ok () := by
  rw [rejectErrorResponse, decodeErrorResponseMessage, if_pos h]

/-- A request frame: the length of what follows, the variant, the payload. -/
def encodeRequest (variant : UInt8) (payload : Bytes) : Bytes :=
  leBytes 4 (1 + payload.length) ++ variant :: payload

/-- The database id goes at the end of a request, and is left out when zero. -/
def dbIdSuffix (dbId : UInt8) : Bytes := if dbId = 0 then [] else [dbId]

/-- A response frame: the length of the payload, the payload. -/
def encodeResponse (payload : Bytes) : Bytes := leBytes 4 payload.length ++ payload

def errorResponse (message : String) : Bytes :=
  encodeResponse (respError :: (leBytes 4 (toUtf8 message).length ++ toUtf8 message))

end BitcoinPir
