import BitcoinPir.Channel.Link
import BitcoinPir.Core.Protocol

/-!
# A connection after its handshake

Client and server of one WebSocket connection on which the encrypted channel is established.

* The client's transport (`sealOutgoing`, `openIncoming`) seals every request and accepts only
  sealed responses.
* The server's loop (`World.serveMessage`) reassembles chunked messages, opens a frame that begins
  with the channel's first byte and takes any other frame as it is, passes the request through
  the gates to its handler, and seals every response.

What the handlers compute is a parameter (`Backend`), except for the two requests the loop's
behaviour depends on: a ping, and a second handshake. What travels between the two ends is the
attacker's choice: every message the server takes, and everything the client's inner transport
returns. `World.exchanges` records what each response was computed for.
-/

namespace BitcoinPir.Channel

open Foundations

/-! ## Messages -/

/-- A WebSocket message as the server's loop distinguishes it. -/
inductive WsMessage
  | binary (bin : Bytes)
  | ping
  | close
  | other

def chunkMagic : UInt8 := 0xc7

def chunkSize : ℕ := 256 * 1024

/-- Magic, number and total of a chunk. -/
def chunkHdr : ℕ := 1 + 2 + 2

def maxReassembled : ℕ := 16 * 1024 * 1024

def maxChunkFrames : ℕ := maxReassembled ⌈/⌉ chunkSize

/-! ## Reassembly -/

/-- The chunks of a message received so far. -/
structure ChunkState where
  acc : Bytes
  expected : ℕ
  total : ℕ
  deriving DecidableEq

def ChunkState.empty : ChunkState := ⟨[], 0, 0⟩

/-- Control traffic cannot keep a partial upload alive. -/
def ChunkState.reset (cs : ChunkState) : ChunkState := ⟨[], 0, cs.total⟩

/-- What the loop does with a binary message: close, wait for more chunks, or go on with a whole
message. -/
inductive Reassembled
  | closed
  | pending (cs : ChunkState)
  | complete (bin : Bytes) (cs : ChunkState)

def isChunk (raw : Bytes) : Bool :=
  decide (4 + chunkHdr ≤ raw.length) && raw[4]? == some chunkMagic

/-- A chunk that continues the message received so far. -/
def acceptChunk (budget : Bool) (cs : ChunkState) (total : ℕ) (piece : Bytes) : Reassembled :=
  if piece.isEmpty ∨ maxReassembled < cs.acc.length + piece.length ∨ budget = false then .closed
  else if cs.expected + 1 < total then .pending ⟨cs.acc ++ piece, cs.expected + 1, total⟩
  else .complete (cs.acc ++ piece) ⟨[], 0, total⟩

/-- Reassembly of one binary message; `budget` says whether the process-wide budget admits the
piece. -/
def reassemble (budget : Bool) (cs : ChunkState) (raw : Bytes) : Reassembled :=
  if isChunk raw then
    let declared := leNat (raw.take 4)
    let seq := leNat ((raw.drop 5).take 2)
    let total := leNat ((raw.drop 7).take 2)
    let piece := raw.drop (4 + chunkHdr)
    if declared ≠ raw.length - 4 ∨ total = 0 ∨ maxChunkFrames < total ∨ total ≤ seq ∨
        seq ≠ cs.expected then .closed
    else if seq = 0 then acceptChunk budget ⟨[], 0, total⟩ total piece
    else if total ≠ cs.total then .closed
    else acceptChunk budget cs total piece
  else if cs.acc.isEmpty then .complete raw cs
  else .closed

/-! ## Responses -/

/-- One call of the server's sending functions. -/
inductive Send
  /-- One record, as one message. -/
  | resp (payload : Bytes)
  /-- One record, split into chunks if it is large and the client takes chunks. -/
  | chunked (payload : Bytes)
  /-- Several records in one message. -/
  | batch (records : List Bytes)
  deriving DecidableEq

/-- The record bodies of a call. -/
def Send.bodies : Send → List Bytes
  | resp payload => [payload.drop 4]
  | chunked payload => [payload.drop 4]
  | batch records => records.map (List.drop 4)

section Sending

variable (encrypt : Cipher)

/-- Seal one record and frame it; a payload without a length passes as it is. -/
def sealRecord (link : Link) (payload : Bytes) : Except ChannelError Bytes × Link :=
  if payload.length < 4 then (.ok payload, link)
  else
    match link.sealPayload encrypt .serverToClient (payload.drop 4) with
    | (.ok sealed, link) => (.ok (leBytes 4 sealed.length ++ sealed), link)
    | (.error e, link) => (.error e, link)

/-- Seal records one by one; the first failure ends it. -/
def sealRecords : Link → List Bytes → Except ChannelError Bytes × Link
  | link, [] => (.ok [], link)
  | link, payload :: rest =>
    match sealRecord encrypt link payload with
    | (.error e, link) => (.error e, link)
    | (.ok framed, link) =>
      match sealRecords link rest with
      | (.error e, link) => (.error e, link)
      | (.ok buf, link) => (.ok (framed ++ buf), link)

/-- The chunk frames of a large message. -/
def chunkFrames (msg : Bytes) : List Bytes :=
  let total := msg.length ⌈/⌉ chunkSize
  (List.range total).map fun seq =>
    let piece := (msg.drop (seq * chunkSize)).take chunkSize
    leBytes 4 (chunkHdr + piece.length) ++
      chunkMagic :: (leBytes 2 seq ++ (leBytes 2 total ++ piece))

/-- The messages a call puts on the wire, with the link after it. -/
def performSend (allowChunk : Bool) (link : Link) : Send → List Bytes × Link
  | .resp payload =>
    match sealRecord encrypt link payload with
    | (.ok msg, link) => ([msg], link)
    | (.error _, link) => ([], link)
  | .chunked payload =>
    match sealRecord encrypt link payload with
    | (.ok msg, link) =>
      if allowChunk = false ∨ msg.length ≤ chunkSize then ([msg], link)
      else if 2 ^ 16 ≤ msg.length ⌈/⌉ chunkSize then ([], link)
      else (chunkFrames msg, link)
    | (.error _, link) => ([], link)
  | .batch records =>
    if records.isEmpty then ([], link)
    else
      match sealRecords encrypt link records with
      | (.ok msg, link) => ([msg], link)
      | (.error _, link) => ([], link)

def performSends (allowChunk : Bool) : Link → List Send → List Bytes × Link
  | link, [] => ([], link)
  | link, send :: rest =>
    let (wire, link) := performSend encrypt allowChunk link send
    let (wire', link) := performSends allowChunk link rest
    (wire ++ wire', link)

end Sending

/-! ## The server's request handling -/

/-- The server behind the loop: its modes, the access gate with the refusal it may give, the
request handlers, and when too many presentations were rejected. -/
structure Backend (σ : Type) where
  serveHints : Bool
  serveQueries : Bool
  oramOnly : Bool
  admitFrame : Bytes → σ → Option String × σ
  handle : Bytes → (encrypted supportsChunks : Bool) → σ → List Send × σ
  exhausted : σ → Bool

def reqPing : UInt8 := 0x00

def reqHandshake : UInt8 := 0x06

def reqOramLookup : UInt8 := 0x60

def isHintVariant (variant : UInt8) : Bool := variant ∈ [0x41, 0x44, 0x46]

def isQueryBearingVariant (variant : UInt8) : Bool :=
  variant ∈ [0x11, 0x21, 0x33, 0x34, 0x43, reqOramLookup, 0x50, 0x51, 0x52, 0x53, 0x54, 0x55, 0x56]

/-- The response to a ping. -/
def pong : Bytes := encodeResponse [0x00]

/-- What the loop computes for a request after opening it: the sending calls, the server's state,
and whether the loop ends. -/
def dispatch {σ : Type} (be : Backend σ) (encrypted supportsChunks : Bool) (state : σ) :
    Bytes → List Send × σ × Bool
  | [] => ([], state, false)
  | variant :: body =>
    if be.serveHints = false ∧ isHintVariant variant then
      ([.resp (errorResponse
        "server not configured to serve hints — start with --serve-hints (see deploy/systemd/*.service)")],
        state, false)
    else if be.serveQueries = false ∧ isQueryBearingVariant variant then
      ([.resp (errorResponse
        "server not configured to answer queries — start with --serve-queries (see deploy/systemd/*.service)")],
        state, false)
    else if be.oramOnly = true ∧ isQueryBearingVariant variant ∧ variant ≠ reqOramLookup then
      ([.resp (errorResponse "this server serves Direct ORAM only (--oram-only)")], state, false)
    else
      match be.admitFrame (variant :: body) state with
      | (some message, state) => ([.resp (errorResponse message)], state, false)
      | (none, state) =>
        if variant = reqPing then ([.resp pong], state, be.exhausted state)
        else if variant = reqHandshake then
          -- the session of this connection exists, so a second handshake is refused
          ([.resp (errorResponse "secure channel is already established on this connection")],
            state, be.exhausted state)
        else
          let (sends, state) := be.handle (variant :: body) encrypted supportsChunks state
          (sends, state, be.exhausted state)

/-! ## The whole connection -/

/-- What the server took: a frame that opened, with its number and payload; a frame in clear; or
a frame that did not open. -/
inductive Source
  | opened (seq : ℕ) (payload : Bytes)
  | clear (payload : Bytes)
  | refused (frame : Bytes) (error : ChannelError)
  deriving DecidableEq

/-- What the server took, what it computed for it, and the numbered records it sealed. -/
structure Exchange where
  source : Source
  sends : List Send
  records : List (ℕ × Bytes)
  deriving DecidableEq

/-- Both ends of the connection. -/
structure World (σ : Type) where
  link : Link
  chunk : ChunkState
  supportsChunks : Bool
  /-- The server's loop is running. -/
  alive : Bool
  state : σ
  /-- The messages the server has put on the wire. -/
  wire : List Bytes
  exchanges : List Exchange

/-- The connection right after the handshake. -/
def World.start {σ : Type} (key : SessionKey) (state : σ) : World σ where
  link := Link.start key
  chunk := .empty
  supportsChunks := false
  alive := true
  state := state
  wire := []
  exchanges := []

section Client

variable (encrypt : Cipher)

/-- The client seals a request frame. -/
def sealOutgoing (link : Link) (encoded : Bytes) : PirResult Bytes × Link :=
  if encoded.length < 4 then
    (.error (.protocol "secure channel: outgoing frame missing 4-byte length prefix"), link)
  else
    match link.sealPayload encrypt .clientToServer (encoded.drop 4) with
    | (.ok sealed, link) => (.ok (leBytes 4 sealed.length ++ sealed), link)
    | (.error e, link) => (.error (.protocol s!"secure channel: {e.message}"), link)

/-- The client opens a response payload. -/
def openIncoming (link : Link) (payload : Bytes) : PirResult Bytes × Link :=
  match payload with
  | [] => (.error (.protocol "secure channel: empty incoming payload"), link)
  | first :: rest =>
    if first ≠ encryptedFrameMagic then
      (.error (.protocol
        s!"secure channel: incoming frame missing 0x{hexByte encryptedFrameMagic} magic (got 0x{hexByte first})"),
        link)
    else
      match link.deliver encrypt .serverToClient (first :: rest) with
      | (.ok opened, link) => (.ok opened, link)
      | (.error e, link) => (.error (.protocol s!"secure channel: {e.message}"), link)

/-- Receive, given what the inner transport returned; the result again carries a length. -/
def recvRecord (link : Link) (raw : Bytes) : PirResult Bytes × Link :=
  if raw.length < 4 then
    (.error (.protocol "secure channel: inner recv returned <4 bytes"), link)
  else
    match openIncoming encrypt link (raw.drop 4) with
    | (.ok opened, link) => (.ok (leBytes 4 opened.length ++ opened), link)
    | (.error e, link) => (.error e, link)

end Client

section Server

variable {σ : Type} (encrypt : Cipher) (be : Backend σ)

/-- Send what was computed for a request, and record the exchange. -/
def World.exchange (w : World σ) (source : Source) (sends : List Send) : World σ :=
  let (wire, link) := performSends encrypt w.supportsChunks w.link sends
  { w with
    link := link
    wire := w.wire ++ wire
    exchanges := w.exchanges ++
      [⟨source, sends, (link.sent .serverToClient).drop (w.link.sent .serverToClient).length⟩] }

def World.answer (w : World σ) (source : Source) (encrypted : Bool) (payload : Bytes) : World σ :=
  let (sends, state, stop) := dispatch be encrypted w.supportsChunks w.state payload
  { ({ w with state := state }).exchange encrypt source sends with alive := !stop }

/-- A whole message: open it if it begins with the channel's first byte. -/
def World.serveFrame (w : World σ) (bin : Bytes) : World σ :=
  if bin.length < 5 then w
  else
    let outer := bin.drop 4
    if outer.head? = some encryptedFrameMagic then
      match w.link.deliver encrypt .clientToServer outer with
      | (.ok payload, link) =>
        ({ w with link := link }).answer encrypt be
          (.opened (w.link.receiver .clientToServer).nextRecvSeq.toNat payload) true payload
      | (.error e, link) =>
        ({ w with link := link }).exchange encrypt (.refused outer e)
          [.resp (errorResponse s!"channel open failed: {e.message}")]
    else w.answer encrypt be (.clear outer) false outer

/-- One iteration of the server's loop. -/
def World.serveMessage (w : World σ) (budget : Bool) (msg : WsMessage) : World σ :=
  if w.alive = false then w
  else
    match msg with
    | .ping => { w with chunk := w.chunk.reset }
    | .close => { w with alive := false }
    | .other => { w with chunk := w.chunk.reset }
    | .binary raw =>
      let w := { w with supportsChunks := w.supportsChunks || isChunk raw }
      match reassemble budget w.chunk raw with
      | .closed => { w with alive := false }
      | .pending cs => { w with chunk := cs }
      | .complete bin cs => ({ w with chunk := cs }).serveFrame encrypt be bin

/-- What happens on the connection. A round trip of the client is a request followed by a
response. -/
inductive ConnEvent
  /-- The client sends a frame or begins a round trip. -/
  | request (encoded : Bytes)
  /-- The inner transport ends a round trip with a response. -/
  | response (payload : Bytes)
  /-- The inner transport returns a frame. -/
  | receive (raw : Bytes)
  /-- The server's socket yields a message. -/
  | message (budget : Bool) (msg : WsMessage)
  /-- The server's loop ends: a read error, an idle timeout. -/
  | hangup

def connStep (w : World σ) : ConnEvent → World σ
  | .request encoded => { w with link := (sealOutgoing encrypt w.link encoded).2 }
  | .response payload => { w with link := (openIncoming encrypt w.link payload).2 }
  | .receive raw => { w with link := (recvRecord encrypt w.link raw).2 }
  | .message budget msg => w.serveMessage encrypt be budget msg
  | .hangup => { w with alive := false }

end Server

end BitcoinPir.Channel
