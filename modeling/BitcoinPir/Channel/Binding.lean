import BitcoinPir.Channel.Connection
import BitcoinPir.Foundations.Lists

/-!
# What a response answers

The server seals a response to every frame it takes, also to frames in clear and to frames that
do not open, and some requests are answered with several records or with none. So the payloads
the client's transport returns are, in order, some of the records the server sealed on the
session, each computed for a frame taken from this connection (`responses_bound`). That the
`n`-th one answers the client's `n`-th payload needs that only the client's own frames reach the
server, one record is sealed for each, and no forged response carries an expected number; an
injected ping is enough to shift all answers by one (`responses_shifted_by_ping`).
-/

namespace BitcoinPir.Channel

open Foundations

/-! ## Sending -/

/-- Sealing responses touches nothing but what the server has sealed, which grows by some of the
given bodies. -/
structure Link.Replied (link link' : Link) (bodies : List Bytes) : Prop where
  sound : ∀ key, link.Sound key → link'.Sound key
  got_eq : link'.got = link.got
  sent_eq : link'.sent .clientToServer = link.sent .clientToServer
  sent_append : ∃ added, link'.sent .serverToClient = link.sent .serverToClient ++ added ∧
    (added.map Prod.snd).Sublist bodies
  noGap : ∀ dir, link.NoGap dir → link'.NoGap dir

namespace Link.Replied

variable {link link' link'' : Link} {bodies bodies' : List Bytes}

theorem refl (link : Link) (bodies : List Bytes) : link.Replied link bodies where
  sound _ h := h
  got_eq := rfl
  sent_eq := rfl
  sent_append := ⟨[], (List.append_nil _).symm, List.nil_sublist _⟩
  noGap _ h := h

theorem trans (h : link.Replied link' bodies) (h' : link'.Replied link'' bodies') :
    link.Replied link'' (bodies ++ bodies') where
  sound key hs := h'.sound key (h.sound key hs)
  got_eq := h'.got_eq.trans h.got_eq
  sent_eq := h'.sent_eq.trans h.sent_eq
  sent_append := by
    obtain ⟨added, hsent, hsub⟩ := h.sent_append
    obtain ⟨added', hsent', hsub'⟩ := h'.sent_append
    refine ⟨added ++ added', by rw [hsent', hsent, List.append_assoc], ?_⟩
    rw [List.map_append]
    exact hsub.append hsub'
  noGap dir hg := h'.noGap dir (h.noGap dir hg)

theorem mono (h : link.Replied link' bodies) (hsub : bodies.Sublist bodies') :
    link.Replied link' bodies' where
  sound := h.sound
  got_eq := h.got_eq
  sent_eq := h.sent_eq
  sent_append := by
    obtain ⟨added, hsent, hadded⟩ := h.sent_append
    exact ⟨added, hsent, hadded.trans hsub⟩
  noGap := h.noGap

end Link.Replied

section Sending

variable (encrypt : Cipher)

theorem replied_sealPayload (link : Link) (payload : Bytes) :
    link.Replied (link.sealPayload encrypt .serverToClient payload).2 [payload] where
  sound _ h := h.sealPayload .serverToClient payload
  got_eq := Link.got_sealPayload payload
  sent_eq := Link.sent_sealPayload_of_ne (by decide) payload
  sent_append := Link.sent_sealPayload payload
  noGap _ h := h.sealPayload .serverToClient payload

theorem replied_sealRecord (link : Link) (payload : Bytes) :
    link.Replied (sealRecord encrypt link payload).2 [payload.drop 4] := by
  have h := replied_sealPayload encrypt link (payload.drop 4)
  unfold sealRecord
  split_ifs
  · exact .refl link _
  · rcases hseal : link.sealPayload encrypt .serverToClient (payload.drop 4) with ⟨res, link'⟩
    rw [hseal] at h
    cases res <;> exact h

theorem replied_sealRecords (link : Link) (records : List Bytes) :
    link.Replied (sealRecords encrypt link records).2 (records.map (List.drop 4)) := by
  induction records generalizing link with
  | nil => exact .refl link _
  | cons payload rest ih =>
    have h := replied_sealRecord encrypt link payload
    rw [sealRecords]
    rcases hseal : sealRecord encrypt link payload with ⟨res, link'⟩
    rw [hseal] at h
    cases res with
    | error e => exact h.mono (by simp)
    | ok framed =>
      have hrest := h.trans (ih link')
      rcases hseals : sealRecords encrypt link' rest with ⟨res', link''⟩
      rw [hseals] at hrest
      simp only [hseals]
      cases res' <;> exact hrest

theorem replied_performSend (allowChunk : Bool) (link : Link) (send : Send) :
    link.Replied (performSend encrypt allowChunk link send).2 send.bodies := by
  cases send with
  | resp payload =>
    have h := replied_sealRecord encrypt link payload
    rw [performSend]
    rcases hseal : sealRecord encrypt link payload with ⟨res, link'⟩
    rw [hseal] at h
    cases res <;> exact h
  | chunked payload =>
    have h := replied_sealRecord encrypt link payload
    rw [performSend]
    rcases hseal : sealRecord encrypt link payload with ⟨res, link'⟩
    rw [hseal] at h
    cases res with
    | error e => exact h
    | ok msg =>
      simp only
      split_ifs <;> exact h
  | batch records =>
    have h := replied_sealRecords encrypt link records
    rw [performSend]
    split_ifs
    · exact .refl link _
    · rcases hseal : sealRecords encrypt link records with ⟨res, link'⟩
      rw [hseal] at h
      cases res <;> exact h

theorem replied_performSends (allowChunk : Bool) (link : Link) (sends : List Send) :
    link.Replied (performSends encrypt allowChunk link sends).2 (sends.flatMap Send.bodies) := by
  induction sends generalizing link with
  | nil => exact .refl link _
  | cons send rest ih =>
    exact (replied_performSend encrypt allowChunk link send).trans (ih _)

end Sending

/-! ## Exchanges -/

/-- The number and payload of a frame that opened. -/
def Source.opened? : Source → Option (ℕ × Bytes)
  | opened seq payload => some (seq, payload)
  | _ => none

/-- What the server computes for a frame it took, in some state. -/
def Computed {σ : Type} (be : Backend σ) : Source → List Send → Prop
  | .opened _ payload, sends => ∃ chunks state, sends = (dispatch be true chunks state payload).1
  | .clear payload, sends => ∃ chunks state, sends = (dispatch be false chunks state payload).1
  | .refused _ e, sends => sends = [.resp (errorResponse s!"channel open failed: {e.message}")]

namespace World

variable {σ : Type}

/-- The payloads the client has sealed, in order. -/
def requested (w : World σ) : List Bytes := (w.link.sent .clientToServer).map Prod.snd

/-- The payloads the client's transport has returned, in order. -/
def returned (w : World σ) : List Bytes := (w.link.got .serverToClient).map Prod.snd

/-- The invariant: the records of all exchanges are what the server sealed, the frames that opened
are what it took from the client, up to one it is about to answer, and each record was computed
for its exchange. -/
structure Sound (be : Backend σ) (key : SessionKey) (w : World σ) (pending : List (ℕ × Bytes)) :
    Prop where
  link : w.link.Sound key
  records : w.exchanges.flatMap Exchange.records = w.link.sent .serverToClient
  taken : w.exchanges.filterMap (fun x => x.source.opened?) ++ pending =
    w.link.got .clientToServer
  computed : ∀ x ∈ w.exchanges, Computed be x.source x.sends ∧
    (x.records.map Prod.snd).Sublist (x.sends.flatMap Send.bodies)

theorem sound_start (be : Backend σ) (key : SessionKey) (state : σ) :
    (start key state).Sound be key [] where
  link := Link.sound_start key
  records := rfl
  taken := rfl
  computed := by simp [start]

variable {encrypt : Cipher} {be : Backend σ} {key : SessionKey}
  {w : World σ}

theorem exchange_eq (encrypt : Cipher) (w : World σ)
    (source : Source) (sends : List Send) :
    ∃ link wire added, w.exchange encrypt source sends =
        { w with
          link := link
          wire := wire
          exchanges := w.exchanges ++ [⟨source, sends, added⟩] } ∧
      w.link.Replied link (sends.flatMap Send.bodies) ∧
      link.sent .serverToClient = w.link.sent .serverToClient ++ added ∧
      (added.map Prod.snd).Sublist (sends.flatMap Send.bodies) := by
  have hreplied := replied_performSends encrypt w.supportsChunks w.link sends
  obtain ⟨added, hsent, hsub⟩ := hreplied.sent_append
  refine ⟨(performSends encrypt w.supportsChunks w.link sends).2,
    w.wire ++ (performSends encrypt w.supportsChunks w.link sends).1, added, ?_, hreplied, hsent,
    hsub⟩
  unfold exchange
  simp only [hsent, List.drop_left]

theorem Sound.exchange {source : Source} (h : w.Sound be key source.opened?.toList)
    {sends : List Send} (hsends : Computed be source sends) :
    (w.exchange encrypt source sends).Sound be key [] := by
  obtain ⟨link, wire, added, heq, hreplied, hsent, hsub⟩ := exchange_eq encrypt w source sends
  rw [heq]
  refine ⟨hreplied.sound key h.link, ?_, ?_, ?_⟩
  · simp only [List.flatMap_append, List.flatMap_singleton, h.records, hsent]
  · rw [hreplied.got_eq, ← h.taken]
    cases hopened : source.opened? <;> simp [hopened]
  · intro x hx
    rcases List.mem_append.1 hx with hx | hx
    · exact h.computed x hx
    · rw [List.mem_singleton.1 hx]
      exact ⟨hsends, hsub⟩

theorem Sound.answer {source : Source} (h : w.Sound be key source.opened?.toList)
    {encrypted : Bool} {payload : Bytes}
    (hsends : Computed be source (dispatch be encrypted w.supportsChunks w.state payload).1) :
    (w.answer encrypt be source encrypted payload).Sound be key [] := by
  have hstate : Sound be key
      { w with state := (dispatch be encrypted w.supportsChunks w.state payload).2.1 }
      source.opened?.toList := ⟨h.link, h.records, h.taken, h.computed⟩
  obtain ⟨hlink, hrecords, htaken, hcomputed⟩ := hstate.exchange hsends
  exact ⟨hlink, hrecords, htaken, hcomputed⟩

theorem Sound.deliver (h : w.Sound be key []) {frame : Bytes} {res : Except ChannelError Bytes}
    {link : Link} (hres : w.link.deliver encrypt .clientToServer frame = (res, link))
    {pending : List (ℕ × Bytes)}
    (hgot : link.got .clientToServer = w.link.got .clientToServer ++ pending) :
    Sound be key { w with link := link } pending where
  link := by
    have : (w.link.deliver encrypt .clientToServer frame).2.Sound key := h.link.deliver _ _
    rwa [hres] at this
  records := by
    have hsent : (w.link.deliver encrypt .clientToServer frame).2.sent = w.link.sent :=
      Link.sent_deliver _
    rw [hres] at hsent
    rw [h.records]
    exact (congrFun hsent _).symm
  taken := by
    rw [hgot, ← h.taken, List.append_nil]
  computed := h.computed

/-- What the server can do with a whole message: ignore it, answer a frame that opened, refuse one
that did not, or answer a frame in clear. -/
theorem serveFrame_cases (w : World σ) (bin : Bytes) :
    (bin.length < 5 ∧ w.serveFrame encrypt be bin = w) ∨
    (∃ payload link, w.link.deliver encrypt .clientToServer (bin.drop 4) = (.ok payload, link) ∧
      w.serveFrame encrypt be bin = ({ w with link := link }).answer encrypt be
        (.opened (w.link.receiver .clientToServer).nextRecvSeq.toNat payload) true payload) ∨
    (∃ e link, w.link.deliver encrypt .clientToServer (bin.drop 4) = (.error e, link) ∧
      w.serveFrame encrypt be bin = ({ w with link := link }).exchange encrypt
        (.refused (bin.drop 4) e) [.resp (errorResponse s!"channel open failed: {e.message}")]) ∨
    ((bin.drop 4).head? ≠ some encryptedFrameMagic ∧
      w.serveFrame encrypt be bin =
        w.answer encrypt be (.clear (bin.drop 4)) false (bin.drop 4)) := by
  unfold World.serveFrame
  by_cases hlen : bin.length < 5
  · exact .inl ⟨hlen, if_pos hlen⟩
  rw [if_neg hlen]
  by_cases hmagic : (bin.drop 4).head? = some encryptedFrameMagic
  · rw [if_pos hmagic]
    rcases hres : w.link.deliver encrypt .clientToServer (bin.drop 4) with ⟨res, link⟩
    cases res with
    | ok payload => exact .inr (.inl ⟨payload, link, rfl, rfl⟩)
    | error e => exact .inr (.inr (.inl ⟨e, link, rfl, rfl⟩))
  · rw [if_neg hmagic]
    exact .inr (.inr (.inr ⟨hmagic, rfl⟩))

theorem Sound.serveFrame (h : w.Sound be key []) (bin : Bytes) :
    (w.serveFrame encrypt be bin).Sound be key [] := by
  rcases w.serveFrame_cases bin with ⟨-, heq⟩ | ⟨payload, link, hres, heq⟩ | ⟨e, link, hres, heq⟩ |
    ⟨-, heq⟩ <;> rw [heq]
  · exact h
  · have hopened : Sound be key { w with link := link }
        (Source.opened (w.link.receiver .clientToServer).nextRecvSeq.toNat payload).opened?.toList :=
      h.deliver hres (Link.got_deliver_ok hres)
    exact hopened.answer ⟨_, _, rfl⟩
  · have hrefused : Sound be key { w with link := link }
        (Source.refused (bin.drop 4) e).opened?.toList :=
      h.deliver hres ((congrFun (Link.got_deliver_error hres) _).trans (List.append_nil _).symm)
    exact hrefused.exchange rfl
  · have hclear : w.Sound be key (Source.clear (bin.drop 4)).opened?.toList := h
    exact hclear.answer ⟨_, _, rfl⟩

/-- The whole message a WebSocket message completes. -/
def wholeMessage (w : World σ) (budget : Bool) : WsMessage → Option Bytes
  | .binary raw =>
    match reassemble budget w.chunk raw with
    | .complete bin _ => if w.alive then some bin else none
    | _ => none
  | _ => none

/-- An iteration of the loop serves the whole message, if there is one, and else leaves link and
exchanges alone. -/
theorem serveMessage_cases (w : World σ) (budget : Bool) (msg : WsMessage) :
    ((w.serveMessage encrypt be budget msg).link = w.link ∧
      (w.serveMessage encrypt be budget msg).exchanges = w.exchanges) ∨
    ∃ (bin : Bytes) (w₀ : World σ), w.wholeMessage budget msg = some bin ∧ w₀.link = w.link ∧
      w₀.exchanges = w.exchanges ∧
      w.serveMessage encrypt be budget msg = w₀.serveFrame encrypt be bin := by
  unfold serveMessage
  by_cases halive : w.alive = false
  · rw [if_pos halive]
    exact .inl ⟨rfl, rfl⟩
  rw [if_neg halive]
  cases msg with
  | ping => exact .inl ⟨rfl, rfl⟩
  | close => exact .inl ⟨rfl, rfl⟩
  | other => exact .inl ⟨rfl, rfl⟩
  | binary raw =>
    simp only [wholeMessage]
    cases hre : reassemble budget w.chunk raw with
    | closed => exact .inl ⟨rfl, rfl⟩
    | pending cs => exact .inl ⟨rfl, rfl⟩
    | complete bin cs =>
      refine .inr ⟨bin, { w with supportsChunks := w.supportsChunks || isChunk raw, chunk := cs },
        ?_, rfl, rfl, rfl⟩
      simpa using halive

end World

/-! ## The client's side -/

section Client

variable (encrypt : Cipher) (link : Link)

theorem sealOutgoing_link (encoded : Bytes) :
    (sealOutgoing encrypt link encoded).2 = link ∨
      (sealOutgoing encrypt link encoded).2 =
        (link.sealPayload encrypt .clientToServer (encoded.drop 4)).2 := by
  unfold sealOutgoing
  split_ifs
  · exact .inl rfl
  · rcases link.sealPayload encrypt .clientToServer (encoded.drop 4) with ⟨res, link'⟩
    cases res <;> exact .inr rfl

theorem openIncoming_link (payload : Bytes) :
    (openIncoming encrypt link payload).2 = link ∨
      (openIncoming encrypt link payload).2 =
        (link.deliver encrypt .serverToClient payload).2 := by
  cases payload with
  | nil => exact .inl rfl
  | cons first rest =>
    simp only [openIncoming]
    split_ifs
    · exact .inl rfl
    · rcases link.deliver encrypt .serverToClient (first :: rest) with ⟨res, link'⟩
      cases res <;> exact .inr rfl

theorem recvRecord_link (raw : Bytes) :
    (recvRecord encrypt link raw).2 = link ∨
      (recvRecord encrypt link raw).2 =
        (link.deliver encrypt .serverToClient (raw.drop 4)).2 := by
  have h := openIncoming_link encrypt link (raw.drop 4)
  unfold recvRecord
  split_ifs
  · exact .inl rfl
  · rcases hres : openIncoming encrypt link (raw.drop 4) with ⟨res, link'⟩
    rw [hres] at h
    cases res <;> exact h

end Client

/-! ## Runs -/

section Runs

variable {σ : Type} {encrypt : Cipher} {be : Backend σ}
  {key : SessionKey} {w : World σ}

theorem World.Sound.congr (h : w.Sound be key []) {w' : World σ} (hlink : w'.link = w.link)
    (hexchanges : w'.exchanges = w.exchanges) : w'.Sound be key [] := by
  obtain ⟨hl, hr, ht, hc⟩ := h
  refine ⟨?_, ?_, ?_, ?_⟩
  · rwa [hlink]
  · rwa [hlink, hexchanges]
  · rwa [hlink, hexchanges]
  · rwa [hexchanges]

theorem World.Sound.clientSeal (h : w.Sound be key []) (payload : Bytes) :
    World.Sound be key
      { w with link := (w.link.sealPayload encrypt .clientToServer payload).2 } [] where
  link := h.link.sealPayload ..
  records := by
    rw [h.records, Link.sent_sealPayload_of_ne (by decide)]
  taken := by
    rw [h.taken, Link.got_sealPayload]
  computed := h.computed

theorem World.Sound.clientOpen (h : w.Sound be key []) (frame : Bytes) :
    World.Sound be key
      { w with link := (w.link.deliver encrypt .serverToClient frame).2 } [] where
  link := h.link.deliver ..
  records := by
    rw [h.records, Link.sent_deliver]
  taken := by
    rw [h.taken, Link.got_deliver_of_ne (by decide)]
  computed := h.computed

/-- **Every step keeps the accounts.** -/
theorem sound_connStep (h : w.Sound be key []) (e : ConnEvent) :
    (connStep encrypt be w e).Sound be key [] := by
  cases e with
  | request encoded =>
    rcases sealOutgoing_link encrypt w.link encoded with heq | heq <;> rw [connStep, heq]
    · exact h
    · exact h.clientSeal _
  | response payload =>
    rcases openIncoming_link encrypt w.link payload with heq | heq <;> rw [connStep, heq]
    · exact h
    · exact h.clientOpen _
  | receive raw =>
    rcases recvRecord_link encrypt w.link raw with heq | heq <;> rw [connStep, heq]
    · exact h
    · exact h.clientOpen _
  | message budget msg =>
    rw [connStep]
    rcases w.serveMessage_cases budget msg with ⟨hlink, hexch⟩ | ⟨bin, w₀, -, hlink, hexch, heq⟩
    · exact h.congr hlink hexch
    · rw [heq]
      exact (h.congr hlink hexch).serveFrame bin
  | hangup => exact h.congr rfl rfl

/-! ## Only the client's own frames -/

/-- A step at which nothing but genuine traffic reaches the ends: a response with the number the
client expects is the one sealed under it; a whole message taken by the server is the frame the
client sealed under the number the server expects, and is answered with one record. -/
def OwnStep (encrypt : Cipher) (be : Backend σ) (w : World σ) :
    ConnEvent → Prop
  | .request _ => True
  | .response payload => w.link.Genuine encrypt .serverToClient payload
  | .receive raw => w.link.Genuine encrypt .serverToClient (raw.drop 4)
  | .message budget msg =>
    ∀ bin, w.wholeMessage budget msg = some bin → 5 ≤ bin.length →
      (w.link.receiver .clientToServer).Expects (bin.drop 4) ∧
      w.link.Genuine encrypt .clientToServer (bin.drop 4) ∧
      ∃ x, (w.serveMessage encrypt be budget msg).exchanges = w.exchanges ++ [x] ∧
        x.records.length = 1
  | .hangup => True

/-- Nothing was skipped in either direction, and every exchange answers an opened frame with one
record. -/
structure World.Own (w : World σ) : Prop where
  noGap : ∀ dir, w.link.NoGap dir
  opened : ∀ x ∈ w.exchanges, x.source.opened?.isSome
  one : ∀ x ∈ w.exchanges, x.records.length = 1

theorem World.Own.congr (h : w.Own) {w' : World σ} (hlink : ∀ dir, w'.link.NoGap dir)
    (hexchanges : w'.exchanges = w.exchanges) : w'.Own := by
  refine ⟨hlink, ?_, ?_⟩ <;> rw [hexchanges]
  · exact h.opened
  · exact h.one

/-- Answering an opened frame adds one exchange for it and skips nothing. -/
theorem answer_eq (encrypt : Cipher) (be : Backend σ)
    (w : World σ) (source : Source) (encrypted : Bool) (payload : Bytes) :
    ∃ x, (w.answer encrypt be source encrypted payload).exchanges = w.exchanges ++ [x] ∧
      x.source = source ∧
      ∀ dir, w.link.NoGap dir → (w.answer encrypt be source encrypted payload).link.NoGap dir := by
  obtain ⟨link, wire, added, heq, hreplied, -, -⟩ := World.exchange_eq encrypt
    { w with state := (dispatch be encrypted w.supportsChunks w.state payload).2.1 } source
    (dispatch be encrypted w.supportsChunks w.state payload).1
  simp only [World.answer, heq]
  exact ⟨_, rfl, rfl, hreplied.noGap⟩

theorem own_serveFrame (hsound : w.Sound be key []) (h : w.Own) {bin : Bytes} (hlen : 5 ≤ bin.length)
    (hexpects : (w.link.receiver .clientToServer).Expects (bin.drop 4))
    (hgenuine : w.link.Genuine encrypt .clientToServer (bin.drop 4))
    (hone : ∃ x, (w.serveFrame encrypt be bin).exchanges = w.exchanges ++ [x] ∧
      x.records.length = 1) :
    (w.serveFrame encrypt be bin).Own := by
  obtain ⟨payload', link', hok⟩ := hsound.link.deliver_ok hexpects hgenuine
  have hgap : ∀ dir, link'.NoGap dir := by
    intro dir
    have hdeliver : (w.link.deliver encrypt .clientToServer (bin.drop 4)).2.NoGap dir := by
      cases dir with
      | clientToServer => exact Link.NoGap.deliver hsound.link (h.noGap _) hgenuine
      | serverToClient => exact Link.NoGap.deliver_flip (h.noGap .serverToClient) _
    rwa [hok] at hdeliver
  rcases w.serveFrame_cases bin with ⟨hshort, -⟩ | ⟨payload, link, hres, heq⟩ | ⟨e, link, hres, -⟩ |
    ⟨hclear, -⟩
  · omega
  · rw [hok] at hres
    cases hres
    obtain ⟨x, hx, hxone⟩ := hone
    obtain ⟨y, hy, hsource, hlink⟩ := answer_eq encrypt be { w with link := link' }
      (.opened (w.link.receiver .clientToServer).nextRecvSeq.toNat payload') true payload'
    rw [heq] at hx ⊢
    have hxy : y = x := by
      have := hy.symm.trans hx
      simpa using this
    subst hxy
    refine ⟨fun dir => hlink dir (hgap dir), ?_, ?_⟩ <;> intro z hz <;> rw [hx] at hz <;>
      rcases List.mem_append.1 hz with hz | hz
    · exact h.opened z hz
    · rw [List.mem_singleton.1 hz, hsource]
      rfl
    · exact h.one z hz
    · rwa [List.mem_singleton.1 hz]
  · rw [hok] at hres
    cases hres
  · exact absurd hexpects.2.1 hclear

/-- **Genuine traffic leaves no gap.** -/
theorem own_connStep (hsound : w.Sound be key []) (h : w.Own) {e : ConnEvent}
    (he : OwnStep encrypt be w e) : (connStep encrypt be w e).Own := by
  have hopen : ∀ frame, w.link.Genuine encrypt .serverToClient frame →
      ∀ dir, (w.link.deliver encrypt .serverToClient frame).2.NoGap dir := by
    intro frame hgenuine dir
    cases dir with
    | clientToServer => exact Link.NoGap.deliver_flip (h.noGap .clientToServer) _
    | serverToClient => exact Link.NoGap.deliver hsound.link (h.noGap _) hgenuine
  cases e with
  | request encoded =>
    rcases sealOutgoing_link encrypt w.link encoded with heq | heq <;> rw [connStep, heq]
    · exact h
    · exact h.congr (fun dir => (h.noGap dir).sealPayload ..) rfl
  | response payload =>
    rcases openIncoming_link encrypt w.link payload with heq | heq <;> rw [connStep, heq]
    · exact h
    · exact h.congr (hopen payload he) rfl
  | receive raw =>
    rcases recvRecord_link encrypt w.link raw with heq | heq <;> rw [connStep, heq]
    · exact h
    · exact h.congr (hopen (raw.drop 4) he) rfl
  | message budget msg =>
    rw [connStep]
    rcases w.serveMessage_cases budget msg with ⟨hlink, hexch⟩ | ⟨bin, w₀, hbin, hlink, hexch, heq⟩
    · exact h.congr (fun dir => hlink ▸ h.noGap dir) hexch
    · have hsound₀ := hsound.congr hlink hexch
      have hown₀ := h.congr (fun dir => hlink ▸ h.noGap dir) hexch
      by_cases hlen : 5 ≤ bin.length
      · obtain ⟨hexpects, hgenuine, hone⟩ := he bin hbin hlen
        rw [← hlink] at hexpects hgenuine
        rw [heq, ← hexch] at hone
        rw [heq]
        exact own_serveFrame hsound₀ hown₀ hlen hexpects hgenuine hone
      · rw [heq, World.serveFrame, if_pos (by omega)]
        exact hown₀
  | hangup => exact h.congr h.noGap rfl

/-- In a run of genuine traffic the positions of responses and requests agree. -/
theorem World.Own.answers (hsound : w.Sound be key []) (h : w.Own) {n : ℕ} {r : Bytes}
    (hr : w.returned[n]? = some r) :
    ∃ (p : Bytes) (x : Exchange), w.requested[n]? = some p ∧ w.exchanges[n]? = some x ∧
      x.source = .opened n p ∧ x.records = [(n, r)] := by
  rw [World.returned, List.getElem?_map, Option.map_eq_some_iff] at hr
  obtain ⟨⟨m, r'⟩, hgot, rfl⟩ := hr
  obtain ⟨hn, hval⟩ := List.getElem?_eq_some_iff.1 hgot
  -- the client has taken the record with number `n`
  have hm : m = n := by
    rw [← (hsound.link.stream .serverToClient).fst_getElem_got (h.noGap _) hn, hval]
  subst hm
  have hsent : (w.link.sent .serverToClient)[m]? = some (m, r') := by
    obtain ⟨t, ht⟩ := hsound.link.isPrefix (h.noGap .serverToClient)
    rw [← ht, List.getElem?_append_left hn, hgot]
  -- each exchange has one record, so it is that of exchange `n`
  rw [← hsound.records] at hsent
  obtain ⟨x, hx, hrecords⟩ := getElem?_flatMap_of_length_one h.one hsent
  -- each exchange answers an opened frame, so it answers the `n`-th one
  obtain ⟨⟨k, p⟩, hopened⟩ := Option.isSome_iff_exists.1 (h.opened x (List.mem_of_getElem? hx))
  have htaken : (w.link.got .clientToServer)[m]? = some (k, p) := by
    have hmap : w.exchanges.filterMap (fun x => x.source.opened?) =
        w.exchanges.map fun x => x.source.opened?.getD (0, []) := by
      rw [← List.filterMap_eq_map]
      apply List.filterMap_congr
      intro y hy
      obtain ⟨z, hz⟩ := Option.isSome_iff_exists.1 (h.opened y hy)
      simp [hz]
    rw [← hsound.taken, List.append_nil, hmap, List.getElem?_map, hx]
    simp [hopened]
  obtain ⟨hm, hval'⟩ := List.getElem?_eq_some_iff.1 htaken
  have hk : k = m := by
    rw [← (hsound.link.stream .clientToServer).fst_getElem_got (h.noGap _) hm, hval']
  subst hk
  refine ⟨p, x, ?_, hx, ?_, hrecords⟩
  · obtain ⟨t, ht⟩ := hsound.link.isPrefix (h.noGap .clientToServer)
    rw [World.requested, List.getElem?_map, ← ht, List.getElem?_append_left hm, htaken]
    rfl
  · cases hsource : x.source with
    | opened seq payload =>
      rw [hsource] at hopened
      cases hopened
      rfl
    | clear payload => simp [hsource, Source.opened?] at hopened
    | refused frame e => simp [hsource, Source.opened?] at hopened

/-- **What the client's transport returns.** In every run the returned payloads are, in order,
some of the records the server sealed, each computed for a frame the server took from this
connection; the frames that opened carry, in order, payloads the client sealed. If moreover only
genuine traffic reaches both ends and every request is answered with one record, the `n`-th
returned payload is the record of the `n`-th exchange, which answers the `n`-th payload the
client sealed. -/
theorem responses_bound (encrypt : Cipher) (be : Backend σ)
    (key : SessionKey) (state : σ) (es : List ConnEvent) :
    let w := runFrom (connStep encrypt be) (World.start key state) es
    w.returned.Sublist (w.exchanges.flatMap fun x => x.records.map Prod.snd) ∧
    (∀ x ∈ w.exchanges, Computed be x.source x.sends ∧
      (x.records.map Prod.snd).Sublist (x.sends.flatMap Send.bodies)) ∧
    ((w.exchanges.filterMap fun x => x.source.opened?).map Prod.snd).Sublist w.requested ∧
    (EachStep (connStep encrypt be) (OwnStep encrypt be) (World.start key state) es →
      ∀ n r, w.returned[n]? = some r →
        ∃ (p : Bytes) (x : Exchange), w.requested[n]? = some p ∧ w.exchanges[n]? = some x ∧
          x.source = .opened n p ∧ x.records = [(n, r)]) := by
  intro w
  have hsound : w.Sound be key [] :=
    runFrom_invariant (I := fun w : World σ => w.Sound be key []) (fun w e h => sound_connStep h e) es
      (World.sound_start be key state)
  refine ⟨?_, hsound.computed, ?_, ?_⟩
  · have := (hsound.link.got_sublist .serverToClient).map Prod.snd
    rw [← hsound.records, List.map_flatMap] at this
    exact this
  · have := (hsound.link.got_sublist .clientToServer).map Prod.snd
    rw [← hsound.taken, List.append_nil] at this
    exact this
  · intro hown n r hr
    have hend := EachStep.invariant (I := fun w : World σ => w.Sound be key [] ∧ w.Own)
      (fun w e h he => ⟨sound_connStep h.1 e, own_connStep h.1 h.2 he⟩)
      ⟨World.sound_start be key state, ⟨fun _ => rfl, by simp [World.start], by simp [World.start]⟩⟩
      hown
    exact hend.2.answers hend.1 hr

/-- **No nonce is used for two payloads**, whatever the attacker sends to either end. -/
theorem nonces_unique (encrypt : Cipher) (be : Backend σ)
    (key : SessionKey) (state : σ) (es : List ConnEvent) (dir : Direction) (seq : UInt64) :
    {p | (key, nonceFor dir seq, p) ∈
      (runFrom (connStep encrypt be) (World.start key state) es).link.log}.Subsingleton := by
  have hsound : (runFrom (connStep encrypt be) (World.start key state) es).Sound be key [] :=
    runFrom_invariant (I := fun w : World σ => w.Sound be key []) (fun w e h => sound_connStep h e) es
      (World.sound_start be key state)
  -- the numbers of what was sent increase
  have hnodup := List.pairwise_map.2 ((hsound.link.stream dir).sent_sorted.imp ne_of_lt)
  intro p hp p' hp'
  have hsent := (hsound.link.mem_log dir seq p).1 hp
  have hsent' := (hsound.link.mem_log dir seq p').1 hp'
  exact congrArg Prod.snd (List.inj_on_of_nodup_map hnodup hsent hsent' rfl)

end Runs

/-! ## An injected ping -/

/-- A server that serves everything and echoes requests after a byte of its own. -/
def echoBackend : Backend Unit where
  serveHints := true
  serveQueries := true
  oramOnly := false
  admitFrame _ _ := (none, ())
  handle payload _ _ _ := ([.resp (encodeResponse (0xab :: payload))], ())
  exhausted _ := false

/-- A frame sealed by the example cipher, as a message. -/
def sealedMessage (seq : UInt64) (payload : Bytes) : Bytes :=
  let frame := frameOf seq (payload ++ List.replicate aeadTagLen 0)
  leBytes 4 frame.length ++ frame

/-- A request reaches the server, and the response reaches the client. -/
def echoTurn (seq : UInt64) (request : UInt8) : List ConnEvent :=
  [.request (encodeRequest request []), .message true (.binary (sealedMessage seq [request])),
    .response ((sealedMessage seq [0xab, request]).drop 4)]

def echoRun : List ConnEvent := echoTurn 0 0x01 ++ echoTurn 1 0x02

/-- The client gets the answers to its two requests; the second one is bound to the second. -/
theorem responses_bound_echo :
    let w := runFrom (connStep plainCipher echoBackend) (World.start (Digest.zero 32) ()) echoRun
    w.returned = [[0xab, 0x01], [0xab, 0x02]] ∧ ∃ (p : Bytes) (x : Exchange),
      w.requested[1]? = some p ∧ w.exchanges[1]? = some x ∧ x.source = .opened 1 p ∧
      x.records = [(1, [0xab, 0x02])] := by
  refine ⟨by decide, (responses_bound plainCipher echoBackend (Digest.zero 32) () echoRun).2.2.2
    ?_ 1 _ (by decide)⟩
  refine ⟨trivial, ?_, fun _ => ⟨[0xab, 0x01], _, by decide, rfl, by decide⟩,
    trivial, ?_, fun _ => ⟨[0xab, 0x02], _, by decide, rfl, by decide⟩, eachStep_nil _⟩
  · intro bin hbin _
    cases hbin
    exact ⟨by decide, fun _ => ⟨[0x01], _, by decide, rfl, by decide⟩, _, rfl, by decide⟩
  · intro bin hbin _
    cases hbin
    exact ⟨by decide, fun _ => ⟨[0x02], _, by decide, rfl, by decide⟩, _, rfl, by decide⟩

/-- The attacker sends a ping in clear before the client's request. -/
def pingRun : List ConnEvent :=
  [.message true (.binary (encodeRequest reqPing [])), .request (encodeRequest 0x01 []),
    .message true (.binary (sealedMessage 0 [0x01])),
    .response ((sealedMessage 0 [0x00]).drop 4)]

/-- The client's only request is `[1]`, and the server computes `[0xab, 1]` for it; the client's
transport returns `[0]`, which the server has sealed as its answer to the ping. -/
theorem responses_shifted_by_ping :
    let w := runFrom (connStep plainCipher echoBackend) (World.start (Digest.zero 32) ()) pingRun
    w.wire = [sealedMessage 0 [0x00], sealedMessage 1 [0xab, 0x01]] ∧
      w.requested = [[0x01]] ∧ w.returned = [[0x00]] ∧
      w.exchanges.map (fun x => (x.source, x.records)) =
        [(.clear [0x00], [(0, [0x00])]), (.opened 0 [0x01], [(1, [0xab, 0x01])])] := by
  decide

end BitcoinPir.Channel
