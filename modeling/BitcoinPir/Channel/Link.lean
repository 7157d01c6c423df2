import BitcoinPir.Channel.Session
import BitcoinPir.Foundations.Runs
import BitcoinPir.Foundations.Stream

/-!
# Two sessions over an attacked network

Both ends of an established channel, with the ideal cipher. Payloads are sealed on either side,
and the attacker feeds byte strings of its choice to either side. Each direction is a numbered
stream (`Link.Sound`): what was opened is a subsequence of what was sealed (`Link.Sound.got_sublist`).

It is a prefix (`opened_isPrefix`) in runs in which no forged frame carries the expected number.
A forged frame with that number is refused but uses it up, so the genuine frame with the next
number is taken although the one before it never was (`opened_after_forgery`).
-/

namespace BitcoinPir.Channel

open Foundations Function

/-! ## The link -/

/-- Both sessions, what was sealed under the key, and the numbered payloads for which sealing and
opening succeeded in each direction. -/
structure Link where
  /-- The session that sends in a direction. -/
  endpoint : Direction → Session
  log : SealLog
  sent : Direction → List (ℕ × Bytes)
  got : Direction → List (ℕ × Bytes)

namespace Link

/-- The link after a handshake. -/
def start (key : SessionKey) : Link where
  endpoint _ := Session.new key
  log := []
  sent _ := []
  got _ := []

def receiver (st : Link) (dir : Direction) : Session := st.endpoint dir.flip

section Operations

variable (encrypt : Cipher)

def sealPayload (st : Link) (dir : Direction) (payload : Bytes) :
    Except ChannelError Bytes × Link :=
  match (st.endpoint dir).sealFrame (idealAead encrypt st.log) dir payload with
  | (.ok frame, s) =>
    (.ok frame,
      { st with
        endpoint := update st.endpoint dir s
        log := st.log ++
          [((st.endpoint dir).key, nonceFor dir (st.endpoint dir).nextSendSeq, payload)]
        sent := update st.sent dir
          (st.sent dir ++ [((st.endpoint dir).nextSendSeq.toNat, payload)]) })
  | (.error e, s) => (.error e, { st with endpoint := update st.endpoint dir s })

/-- The other side opens a frame. -/
def deliver (st : Link) (dir : Direction) (frame : Bytes) : Except ChannelError Bytes × Link :=
  match (st.receiver dir).openFrame (idealAead encrypt st.log) dir frame with
  | (.ok payload, s) =>
    (.ok payload,
      { st with
        endpoint := update st.endpoint dir.flip s
        got := update st.got dir
          (st.got dir ++ [((st.receiver dir).nextRecvSeq.toNat, payload)]) })
  | (.error e, s) => (.error e, { st with endpoint := update st.endpoint dir.flip s })

end Operations

/-! ## What the operations leave alone -/

section Frames

variable {encrypt : Cipher} {st : Link} {dir : Direction}

@[simp]
theorem got_sealPayload (payload : Bytes) :
    (st.sealPayload encrypt dir payload).2.got = st.got := by
  unfold sealPayload
  split <;> rfl

theorem sent_sealPayload_of_ne {dir' : Direction} (h : dir' ≠ dir) (payload : Bytes) :
    (st.sealPayload encrypt dir payload).2.sent dir' = st.sent dir' := by
  unfold sealPayload
  split
  · exact update_of_ne h _ _
  · rfl

/-- Sealing adds its payload, or nothing, to what was sent. -/
theorem sent_sealPayload (payload : Bytes) :
    ∃ added, (st.sealPayload encrypt dir payload).2.sent dir = st.sent dir ++ added ∧
      (added.map Prod.snd).Sublist [payload] := by
  unfold sealPayload
  split
  · exact ⟨[(_, payload)], update_self .., List.Sublist.refl _⟩
  · exact ⟨[], (List.append_nil _).symm, List.nil_sublist _⟩

@[simp]
theorem sent_deliver (frame : Bytes) : (st.deliver encrypt dir frame).2.sent = st.sent := by
  unfold deliver
  split <;> rfl

theorem got_deliver_of_ne {dir' : Direction} (h : dir' ≠ dir) (frame : Bytes) :
    (st.deliver encrypt dir frame).2.got dir' = st.got dir' := by
  unfold deliver
  split
  · exact update_of_ne h _ _
  · rfl

theorem got_deliver_ok {frame payload : Bytes} {st' : Link}
    (h : st.deliver encrypt dir frame = (.ok payload, st')) :
    st'.got dir = st.got dir ++ [((st.receiver dir).nextRecvSeq.toNat, payload)] := by
  unfold deliver at h
  split at h
  · cases h
    exact update_self ..
  · cases h

theorem got_deliver_error {frame : Bytes} {e : ChannelError} {st' : Link}
    (h : st.deliver encrypt dir frame = (.error e, st')) : st'.got = st.got := by
  unfold deliver at h
  split at h
  · cases h
  · cases h
    rfl

end Frames

/-! ## Each direction is a numbered stream -/

/-- The invariant: one key, a numbered stream in each direction, and a log that holds what was
sealed. -/
structure Sound (key : SessionKey) (st : Link) : Prop where
  key_eq : ∀ dir, (st.endpoint dir).key = key
  stream : ∀ dir, Stream (st.sent dir) (st.got dir) (st.endpoint dir).nextSendSeq.toNat
    (st.receiver dir).nextRecvSeq.toNat
  mem_log : ∀ dir (seq : UInt64) p,
    (key, nonceFor dir seq, p) ∈ st.log ↔ (seq.toNat, p) ∈ st.sent dir

theorem sound_start (key : SessionKey) : (start key).Sound key where
  key_eq _ := rfl
  stream _ := Stream.init
  mem_log _ _ _ := by simp [start]

variable {encrypt : Cipher} {key : SessionKey} {st : Link}

/-- **What was opened is a subsequence of what was sealed.** -/
theorem Sound.got_sublist (h : st.Sound key) (dir : Direction) :
    (st.got dir).Sublist (st.sent dir) :=
  (h.stream dir).sublist

variable {dir : Direction}

/-- A change of the session that sends in `dir` that keeps key and receive counter, with the
payloads it sealed. -/
theorem Sound.update_sender (h : st.Sound key) (s : Session) (log : SealLog)
    {sent : List (ℕ × Bytes)} (hkey : s.key = key)
    (hrecv : s.nextRecvSeq = (st.endpoint dir).nextRecvSeq)
    (hstream : Stream sent (st.got dir) s.nextSendSeq.toNat (st.receiver dir).nextRecvSeq.toNat)
    (hlog : ∀ dir' (seq : UInt64) p,
      (key, nonceFor dir' seq, p) ∈ log ↔ (seq.toNat, p) ∈ update st.sent dir sent dir') :
    Sound key { st with
      endpoint := update st.endpoint dir s
      log := log
      sent := update st.sent dir sent } where
  key_eq dir' := by
    rcases eq_or_ne dir' dir with rfl | hne
    · simpa using hkey
    · simpa [hne] using h.key_eq dir'
  stream dir' := by
    rcases dir.eq_or_eq_flip dir' with rfl | rfl
    · simpa [receiver, dir'.flip_ne] using hstream
    · have := h.stream dir.flip
      simpa [receiver, dir.flip_ne, hrecv] using this
  mem_log := hlog

/-- A change of the session that receives in `dir` that keeps key and send counter, with the
payloads it opened. -/
theorem Sound.update_receiver (h : st.Sound key) (s : Session) {got : List (ℕ × Bytes)}
    (hkey : s.key = key) (hsend : s.nextSendSeq = (st.receiver dir).nextSendSeq)
    (hstream : Stream (st.sent dir) got (st.endpoint dir).nextSendSeq.toNat s.nextRecvSeq.toNat) :
    Sound key { st with
      endpoint := update st.endpoint dir.flip s
      got := update st.got dir got } where
  key_eq dir' := by
    rcases eq_or_ne dir' dir.flip with rfl | hne
    · simpa using hkey
    · simpa [hne] using h.key_eq dir'
  stream dir' := by
    rcases dir.eq_or_eq_flip dir' with rfl | rfl
    · simpa [receiver, dir'.flip_ne.symm] using hstream
    · have := h.stream dir.flip
      simpa [receiver, dir.flip_ne, dir.flip_ne.symm, hsend] using this
  mem_log := h.mem_log

theorem Sound.sealPayload (h : st.Sound key) (dir : Direction) (payload : Bytes) :
    (st.sealPayload encrypt dir payload).2.Sound key := by
  have hstream := h.stream dir
  unfold Link.sealPayload
  rcases (st.endpoint dir).sealFrame_cases payload with ⟨e, heq⟩ | ⟨e, next, hnext, heq⟩ |
    ⟨ct, next, hnext, -, heq⟩
  · rw [heq]
    simp only [update_eq_self]
    exact h
  · rw [heq]
    have hlose := hstream.lose
    rw [← toNat_of_checkedSucc hnext] at hlose
    have := h.update_sender { st.endpoint dir with nextSendSeq := next } st.log (h.key_eq dir) rfl
      hlose (by simpa using h.mem_log)
    simpa using this
  · rw [heq]
    have hsend := hstream.send payload
    rw [← toNat_of_checkedSucc hnext] at hsend
    refine h.update_sender { st.endpoint dir with nextSendSeq := next } _ (h.key_eq dir) rfl
      hsend ?_
    intro dir' seq p
    rw [List.mem_append, List.mem_singleton, h.mem_log, h.key_eq]
    -- the new entry is under the sender's direction and number
    rcases eq_or_ne dir' dir with rfl | hne
    · rw [update_self, List.mem_append, List.mem_singleton]
      refine or_congr Iff.rfl ⟨?_, ?_⟩
      · rintro heq
        obtain ⟨hnonce, rfl⟩ := Prod.mk.inj (Prod.mk.inj heq).2
        rw [(nonceFor_inj hnonce).2]
      · rintro heq
        obtain ⟨hseq, rfl⟩ := Prod.mk.inj heq
        rw [UInt64.toNat_inj.1 hseq]
    · rw [update_of_ne hne]
      refine or_iff_left_of_imp fun heq => absurd ?_ hne
      exact (nonceFor_inj (Prod.mk.inj (Prod.mk.inj heq).2).1).1

theorem Sound.deliver (h : st.Sound key) (dir : Direction) (frame : Bytes) :
    (st.deliver encrypt dir frame).2.Sound key := by
  have hstream := h.stream dir
  have hkey : (st.receiver dir).key = key := h.key_eq dir.flip
  unfold Link.deliver
  rcases (st.receiver dir).openFrame_cases frame with ⟨e, heq⟩ |
    ⟨e, next, -, hnext, -, heq⟩ | ⟨p, next, -, hnext, hdec, heq⟩
  · rw [heq]
    have hself : update st.endpoint dir.flip (st.receiver dir) = st.endpoint :=
      update_eq_self ..
    simp only [hself]
    exact h
  · rw [heq]
    have hskip := hstream.skip
    rw [← toNat_of_checkedSucc hnext] at hskip
    have := h.update_receiver { st.receiver dir with nextRecvSeq := next } hkey rfl hskip
    simpa using this
  · rw [heq]
    rw [hkey] at hdec
    have htake := hstream.take ((h.mem_log ..).1 (mem_of_decrypt hdec).1)
    rw [← toNat_of_checkedSucc hnext] at htake
    exact h.update_receiver { st.receiver dir with nextRecvSeq := next } hkey rfl htake

/-! ## Gaps -/

/-- Every number the receiver has left behind was taken with a payload. -/
def NoGap (st : Link) (dir : Direction) : Prop :=
  (st.got dir).length = (st.receiver dir).nextRecvSeq.toNat

/-- A frame that carries the expected number is the one that was sealed under it. -/
def Genuine (encrypt : Cipher) (st : Link) (dir : Direction)
    (frame : Bytes) : Prop :=
  (st.receiver dir).Expects frame →
    ∃ p ct, ((st.receiver dir).nextRecvSeq.toNat, p) ∈ st.sent dir ∧
      encrypt (st.endpoint dir).key (nonceFor dir (st.receiver dir).nextRecvSeq) p = some ct ∧
      frame = frameOf (st.receiver dir).nextRecvSeq ct

theorem Sound.isPrefix (h : st.Sound key) (hgap : st.NoGap dir) :
    st.got dir <+: st.sent dir :=
  (h.stream dir).isPrefix hgap

theorem NoGap.sealPayload (hgap : st.NoGap dir) (dir' : Direction) (payload : Bytes) :
    (st.sealPayload encrypt dir' payload).2.NoGap dir := by
  unfold NoGap at hgap ⊢
  unfold Link.sealPayload
  rcases (st.endpoint dir').sealFrame_cases payload with ⟨e, heq⟩ | ⟨e, next, -, heq⟩ |
    ⟨ct, next, -, -, heq⟩ <;> rw [heq]
  · simpa using hgap
  · rcases eq_or_ne dir.flip dir' with rfl | hne
    · simpa [receiver] using hgap
    · simpa [receiver, hne] using hgap
  · rcases eq_or_ne dir.flip dir' with rfl | hne
    · simpa [receiver] using hgap
    · simpa [receiver, hne] using hgap

/-- Frames in the other direction do not touch the receive counter. -/
theorem NoGap.deliver_flip (hgap : st.NoGap dir) (frame : Bytes) :
    (st.deliver encrypt dir.flip frame).2.NoGap dir := by
  unfold NoGap at hgap ⊢
  unfold Link.deliver
  rcases (st.receiver dir.flip).openFrame_cases frame with ⟨e, heq⟩ | ⟨e, next, -, -, -, heq⟩ |
    ⟨p, next, -, -, -, heq⟩ <;> rw [heq] <;>
    simpa [receiver, dir.flip_ne, dir.flip_ne.symm] using hgap

/-- The frame sealed under a number decrypts. -/
theorem Sound.decrypt_genuine (h : st.Sound key) {seq : UInt64} {p ct : Bytes}
    (hmem : (seq.toNat, p) ∈ st.sent dir)
    (henc : encrypt (st.endpoint dir).key (nonceFor dir seq) p = some ct) :
    (idealAead encrypt st.log).decrypt (st.receiver dir).key (nonceFor dir seq)
      ((frameOf seq ct).drop 9) ≠ none := by
  have hkey : (st.receiver dir).key = key := h.key_eq dir.flip
  rw [h.key_eq] at henc
  rw [hkey]
  exact decrypt_ne_none ((h.mem_log ..).2 hmem) henc

theorem NoGap.deliver (h : st.Sound key) (hgap : st.NoGap dir) {frame : Bytes}
    (hgenuine : st.Genuine encrypt dir frame) : (st.deliver encrypt dir frame).2.NoGap dir := by
  unfold NoGap at hgap ⊢
  unfold Link.deliver
  rcases (st.receiver dir).openFrame_cases frame with ⟨e, heq⟩ |
    ⟨e, next, hexpects, -, hdec, heq⟩ | ⟨p, next, -, hnext, -, heq⟩
  · rw [heq]
    have hself : update st.endpoint dir.flip (st.receiver dir) = st.endpoint :=
      update_eq_self ..
    simp only [hself]
    exact hgap
  · obtain ⟨p, ct, hmem, henc, rfl⟩ := hgenuine hexpects
    exact absurd hdec (h.decrypt_genuine hmem henc)
  · rw [heq]
    have := toNat_of_checkedSucc hnext
    simp only [receiver, update_self, List.length_append, List.length_singleton] at this ⊢
    unfold receiver at hgap
    omega

/-- A genuine frame with the expected number opens. -/
theorem Sound.deliver_ok (h : st.Sound key) {frame : Bytes}
    (hexpects : (st.receiver dir).Expects frame) (hgenuine : st.Genuine encrypt dir frame) :
    ∃ payload st', st.deliver encrypt dir frame = (.ok payload, st') := by
  obtain ⟨p, ct, hmem, henc, hframe⟩ := hgenuine hexpects
  have hdec := h.decrypt_genuine hmem henc
  rw [← hframe] at hdec
  obtain ⟨payload, hpayload⟩ := Option.ne_none_iff_exists'.1 hdec
  -- the number was sealed under, so it is not the last one
  have hlt := (h.stream dir).sent_lt _ hmem
  have hlast := (st.endpoint dir).nextSendSeq.toNat_lt
  simp only [Link.deliver, Session.openFrame_of_expects hexpects (by omega), hpayload]
  exact ⟨_, _, rfl⟩

end Link

/-! ## Runs -/

/-- Sealing and opening, in either direction. -/
inductive LinkEvent
  | send (dir : Direction) (payload : Bytes)
  | feed (dir : Direction) (frame : Bytes)

section Runs

variable (encrypt : Cipher)

def linkStep (st : Link) : LinkEvent → Link
  | .send dir payload => (st.sealPayload encrypt dir payload).2
  | .feed dir frame => (st.deliver encrypt dir frame).2

/-- Whatever is fed with the expected number is the frame sealed under it. -/
def GenuineEvent (st : Link) : LinkEvent → Prop
  | .send _ _ => True
  | .feed dir frame => st.Genuine encrypt dir frame

variable {encrypt}

theorem sound_linkStep {key : SessionKey} {st : Link} (h : st.Sound key) (e : LinkEvent) :
    (linkStep encrypt st e).Sound key := by
  cases e with
  | send dir payload => exact h.sealPayload dir payload
  | feed dir frame => exact h.deliver dir frame

theorem noGap_linkStep {key : SessionKey} {st : Link} (h : st.Sound key)
    (hgap : ∀ dir, st.NoGap dir) {e : LinkEvent} (he : GenuineEvent encrypt st e) (dir : Direction) :
    (linkStep encrypt st e).NoGap dir := by
  cases e with
  | send dir' payload => exact (hgap dir).sealPayload dir' payload
  | feed dir' frame =>
    rcases dir.eq_or_eq_flip dir' with rfl | rfl
    · exact Link.NoGap.deliver h (hgap dir') he
    · exact (hgap dir).deliver_flip frame

/-- **The channel delivers a prefix** in every run in which no forged frame carries the expected
number, whatever else is fed. -/
theorem opened_isPrefix (encrypt : Cipher) (key : SessionKey)
    (es : List LinkEvent)
    (h : EachStep (linkStep encrypt) (GenuineEvent encrypt) (Link.start key) es) (dir : Direction) :
    ((runFrom (linkStep encrypt) (Link.start key) es).got dir).map Prod.snd <+:
      ((runFrom (linkStep encrypt) (Link.start key) es).sent dir).map Prod.snd := by
  have hinv : ∀ st e, (st.Sound key ∧ ∀ dir, st.NoGap dir) → GenuineEvent encrypt st e →
      (linkStep encrypt st e).Sound key ∧ ∀ dir, (linkStep encrypt st e).NoGap dir :=
    fun st e hst he => ⟨sound_linkStep hst.1 e, noGap_linkStep hst.1 hst.2 he⟩
  have hend := EachStep.invariant (I := fun st => st.Sound key ∧ ∀ dir, st.NoGap dir) hinv
    ⟨Link.sound_start key, fun _ => rfl⟩ h
  exact (hend.1.isPrefix (hend.2 dir)).map _

end Runs

/-! ## A forged frame -/

/-- A cipher for examples: the payload in clear, with an empty tag. -/
def plainCipher (_ : SessionKey) (_ payload : Bytes) : Option Bytes :=
  some (payload ++ List.replicate aeadTagLen 0)

/-- Two payloads, and frames that arrive reordered, repeated and cut. -/
def reorderedRun : List LinkEvent :=
  [.send .clientToServer [1], .send .clientToServer [2],
    .feed .clientToServer (frameOf 1 (2 :: List.replicate 16 0)),
    .feed .clientToServer (frameOf 0 (1 :: List.replicate 16 0)),
    .feed .clientToServer (frameOf 0 (1 :: List.replicate 16 0)),
    .feed .clientToServer (frameOf 1 [2])]

/-- Of two payloads the first has arrived. -/
theorem opened_isPrefix_reordered :
    ((runFrom (linkStep plainCipher) (Link.start (Digest.zero 32)) reorderedRun).got
      .clientToServer).map Prod.snd = [[1]] ∧ [[1]] <+: ([[1], [2]] : List Bytes) := by
  refine ⟨by decide, opened_isPrefix plainCipher (Digest.zero 32) reorderedRun ?_ .clientToServer⟩
  exact ⟨trivial, trivial, fun h => absurd h (by decide), fun _ => ⟨[1], _, by decide, rfl, rfl⟩,
    fun h => absurd h (by decide), fun h => absurd h (by decide), eachStep_nil _⟩

/-- A forged frame with number 0 is refused, then the genuine frame with number 1 is taken: what
was opened is not a prefix of what was sealed. -/
theorem opened_after_forgery :
    let st := runFrom (linkStep plainCipher) (Link.start (Digest.zero 32))
      [.send .clientToServer [1], .send .clientToServer [2],
        .feed .clientToServer (frameOf 0 (List.replicate 16 1)),
        .feed .clientToServer (frameOf 1 (2 :: List.replicate 16 0))]
    (st.sent .clientToServer).map Prod.snd = [[1], [2]] ∧
      (st.got .clientToServer).map Prod.snd = [[2]] ∧
      ¬ (st.got .clientToServer).map Prod.snd <+: (st.sent .clientToServer).map Prod.snd := by
  decide

end BitcoinPir.Channel
