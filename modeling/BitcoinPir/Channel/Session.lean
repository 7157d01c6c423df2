import BitcoinPir.Foundations.Bytes

/-!
# Sealed frames

The session of the encrypted channel: a key and one counter per direction. `Session.sealFrame` numbers
and encrypts a payload; `Session.openFrame` accepts only a frame with the expected number and
moves its counter before it decrypts. The cipher is third-party code and enters as `Aead`;
`idealAead` is the ideal one, which opens exactly what was sealed.
-/

namespace BitcoinPir.Channel

open Foundations

/-! ## Constants and errors -/

abbrev SessionKey := Digest 32

/-- The first byte of every encrypted frame. -/
def encryptedFrameMagic : UInt8 := 0xfe

def aeadTagLen : ℕ := 16

/-- The direction of a frame, mixed into the nonce. -/
inductive Direction
  | clientToServer
  | serverToClient
  deriving DecidableEq, Repr

namespace Direction

def code : Direction → ℕ
  | clientToServer => 0
  | serverToClient => 1

def flip : Direction → Direction
  | clientToServer => serverToClient
  | serverToClient => clientToServer

@[simp]
theorem flip_flip (dir : Direction) : dir.flip.flip = dir := by cases dir <;> rfl

theorem flip_ne (dir : Direction) : dir.flip ≠ dir := by cases dir <;> decide

theorem eq_or_eq_flip (dir dir' : Direction) : dir' = dir ∨ dir' = dir.flip := by
  cases dir <;> cases dir' <;> simp [flip]

end Direction

inductive ChannelError
  | aeadFailure
  | sequenceExhausted
  | frameTooShort
  | badFrameMagic
  deriving DecidableEq, Repr

def ChannelError.message : ChannelError → String
  | aeadFailure => "AEAD authentication failed"
  | sequenceExhausted => "sequence number exhausted"
  | frameTooShort => "encrypted frame too short"
  | badFrameMagic => "encrypted frame has wrong magic byte"

/-! ## Nonces -/

def nonceFor (dir : Direction) (seq : UInt64) : Bytes := leBytes 4 dir.code ++ leBytes 8 seq.toNat

/-- A nonce determines direction and number. -/
theorem nonceFor_inj {dir dir' : Direction} {seq seq' : UInt64}
    (h : nonceFor dir seq = nonceFor dir' seq') : dir = dir' ∧ seq = seq' := by
  obtain ⟨hdir, hseq⟩ := List.append_inj h (by simp)
  refine ⟨?_, UInt64.toNat_inj.1 (leBytes_inj_of_lt ?_ ?_ hseq)⟩
  · cases dir <;> cases dir' <;> first | rfl | exact absurd hdir (by decide)
  · exact seq.toNat_lt
  · exact seq'.toNat_lt

/-! ## Sessions -/

/-- Encryption or decryption: key, nonce and text. -/
abbrev Cipher := SessionKey → Bytes → Bytes → Option Bytes

/-- The cipher, with empty associated data. -/
structure Aead where
  encrypt : Cipher
  decrypt : Cipher

structure Session where
  key : SessionKey
  /-- The number of the next frame to seal. -/
  nextSendSeq : UInt64
  /-- The number expected on the next frame to open. -/
  nextRecvSeq : UInt64

namespace Session

def new (key : SessionKey) : Session := ⟨key, 0, 0⟩

end Session

/-- The next number, unless the numbers are exhausted. -/
def checkedSucc (n : UInt64) : Option UInt64 :=
  if n.toNat + 1 < 2 ^ 64 then some (n + 1) else none

theorem toNat_of_checkedSucc {n m : UInt64} (h : checkedSucc n = some m) :
    m.toNat = n.toNat + 1 := by
  unfold checkedSucc at h
  split_ifs at h with hlt
  cases h
  exact Nat.mod_eq_of_lt hlt

/-- The bytes on the wire: magic, number, ciphertext with tag. -/
def frameOf (seq : UInt64) (ct : Bytes) : Bytes :=
  encryptedFrameMagic :: (leBytes 8 seq.toNat ++ ct)

namespace Session

/-- Seal a payload. The counter moves before the cipher runs. -/
def sealFrame (aead : Aead) (s : Session) (dir : Direction) (plaintext : Bytes) :
    Except ChannelError Bytes × Session :=
  match checkedSucc s.nextSendSeq with
  | none => (.error .sequenceExhausted, s)
  | some next =>
    match aead.encrypt s.key (nonceFor dir s.nextSendSeq) plaintext with
    | none => (.error .aeadFailure, { s with nextSendSeq := next })
    | some ct => (.ok (frameOf s.nextSendSeq ct), { s with nextSendSeq := next })

/-- A frame passes the checks made before decryption: long enough for magic, number and tag, the
right first byte, and the expected number. -/
def Expects (s : Session) (frame : Bytes) : Prop :=
  1 + 8 + aeadTagLen ≤ frame.length ∧ frame.head? = some encryptedFrameMagic ∧
    leNat ((frame.drop 1).take 8) = s.nextRecvSeq.toNat

instance (s : Session) (frame : Bytes) : Decidable (s.Expects frame) :=
  inferInstanceAs (Decidable (_ ∧ _ ∧ _))

/-- Open a frame. The counter moves before the cipher runs, and stays moved if it fails. -/
def openFrame (aead : Aead) (s : Session) (dir : Direction) (frame : Bytes) :
    Except ChannelError Bytes × Session :=
  if frame.length < 1 + 8 + aeadTagLen then (.error .frameTooShort, s)
  else if frame.head? ≠ some encryptedFrameMagic then (.error .badFrameMagic, s)
  else if leNat ((frame.drop 1).take 8) ≠ s.nextRecvSeq.toNat then (.error .aeadFailure, s)
  else
    match checkedSucc s.nextRecvSeq with
    | none => (.error .sequenceExhausted, s)
    | some next =>
      match aead.decrypt s.key (nonceFor dir s.nextRecvSeq) (frame.drop 9) with
      | none => (.error .aeadFailure, { s with nextRecvSeq := next })
      | some plaintext => (.ok plaintext, { s with nextRecvSeq := next })

variable {aead : Aead} {s : Session} {dir : Direction}

/-- What sealing can do: nothing, use up a number, or seal under the next number. -/
theorem sealFrame_cases (plaintext : Bytes) :
    (∃ e, s.sealFrame aead dir plaintext = (.error e, s)) ∨
    (∃ e next, checkedSucc s.nextSendSeq = some next ∧
      s.sealFrame aead dir plaintext = (.error e, { s with nextSendSeq := next })) ∨
    (∃ ct next, checkedSucc s.nextSendSeq = some next ∧
      aead.encrypt s.key (nonceFor dir s.nextSendSeq) plaintext = some ct ∧
      s.sealFrame aead dir plaintext =
        (.ok (frameOf s.nextSendSeq ct), { s with nextSendSeq := next })) := by
  unfold sealFrame
  cases hnext : checkedSucc s.nextSendSeq with
  | none => exact .inl ⟨_, rfl⟩
  | some next =>
    cases hct : aead.encrypt s.key (nonceFor dir s.nextSendSeq) plaintext with
    | none => exact .inr (.inl ⟨.aeadFailure, next, rfl, by simp only⟩)
    | some ct => exact .inr (.inr ⟨ct, next, rfl, rfl, by simp only⟩)

/-- What opening can do: nothing, use up the expected number, or take the frame with it. -/
theorem openFrame_cases (frame : Bytes) :
    (∃ e, s.openFrame aead dir frame = (.error e, s)) ∨
    (∃ e next, s.Expects frame ∧ checkedSucc s.nextRecvSeq = some next ∧
      aead.decrypt s.key (nonceFor dir s.nextRecvSeq) (frame.drop 9) = none ∧
      s.openFrame aead dir frame = (.error e, { s with nextRecvSeq := next })) ∨
    (∃ p next, s.Expects frame ∧ checkedSucc s.nextRecvSeq = some next ∧
      aead.decrypt s.key (nonceFor dir s.nextRecvSeq) (frame.drop 9) = some p ∧
      s.openFrame aead dir frame = (.ok p, { s with nextRecvSeq := next })) := by
  unfold openFrame
  split_ifs with hlen hmagic hseq
  · exact .inl ⟨_, rfl⟩
  · exact .inl ⟨_, rfl⟩
  · exact .inl ⟨_, rfl⟩
  · have hexpects : s.Expects frame := ⟨not_lt.1 hlen, not_not.1 hmagic, not_not.1 hseq⟩
    cases hnext : checkedSucc s.nextRecvSeq with
    | none => exact .inl ⟨_, rfl⟩
    | some next =>
      cases hp : aead.decrypt s.key (nonceFor dir s.nextRecvSeq) (frame.drop 9) with
      | none => exact .inr (.inl ⟨.aeadFailure, next, hexpects, rfl, rfl, by simp only⟩)
      | some p => exact .inr (.inr ⟨p, next, hexpects, rfl, rfl, by simp only⟩)

theorem openFrame_of_expects {frame : Bytes} (h : s.Expects frame)
    (hlt : s.nextRecvSeq.toNat + 1 < 2 ^ 64) :
    s.openFrame aead dir frame =
      match aead.decrypt s.key (nonceFor dir s.nextRecvSeq) (frame.drop 9) with
      | none => (.error .aeadFailure, { s with nextRecvSeq := s.nextRecvSeq + 1 })
      | some plaintext => (.ok plaintext, { s with nextRecvSeq := s.nextRecvSeq + 1 }) := by
  obtain ⟨hlen, hmagic, hseq⟩ := h
  have hnext : checkedSucc s.nextRecvSeq = some (s.nextRecvSeq + 1) := if_pos hlt
  rw [openFrame, if_neg (not_lt.2 hlen), if_neg (not_not.2 hmagic), if_neg (not_not.2 hseq), hnext]

end Session

/-! ## The ideal cipher -/

/-- What was sealed so far: key, nonce and payload. -/
abbrev SealLog := List (SessionKey × Bytes × Bytes)

/-- The ideal cipher after `log`: a ciphertext opens under a key and a nonce exactly if it is
the encryption of a payload sealed under them. -/
def idealAead (encrypt : Cipher) (log : SealLog) : Aead where
  encrypt := encrypt
  decrypt key nonce ct :=
    (log.find? fun e => e.1 = key ∧ e.2.1 = nonce ∧ encrypt key nonce e.2.2 = some ct).map
      fun e => e.2.2

variable {encrypt : Cipher} {log : SealLog} {key : SessionKey}
  {nonce ct p : Bytes}

/-- Whatever opens was sealed. -/
theorem mem_of_decrypt (h : (idealAead encrypt log).decrypt key nonce ct = some p) :
    (key, nonce, p) ∈ log ∧ encrypt key nonce p = some ct := by
  obtain ⟨⟨key', nonce', p'⟩, hfind, rfl⟩ := Option.map_eq_some_iff.1 h
  have hmatch := List.find?_some hfind
  simp only [decide_eq_true_eq] at hmatch
  obtain ⟨rfl, rfl, henc⟩ := hmatch
  exact ⟨List.mem_of_find?_eq_some hfind, henc⟩

/-- Whatever was sealed opens. -/
theorem decrypt_ne_none (hmem : (key, nonce, p) ∈ log) (henc : encrypt key nonce p = some ct) :
    (idealAead encrypt log).decrypt key nonce ct ≠ none := by
  intro hnone
  have := List.find?_eq_none.1 (Option.map_eq_none_iff.1 hnone) _ hmem
  simp [henc] at this

end BitcoinPir.Channel
