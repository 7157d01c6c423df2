import BitcoinPir.Core.Protocol

/-!
# The credited transport

A wrapper around a transport that keeps the connection's gas balance funded. Before a metered
frame goes out it is priced; if the balance does not cover a paid frame, credits are presented
first, each presentation being a round trip on the same connection. A frame refused for lack of
gas, or by a busy best-effort lane, is funded and sent once more.

The inner transport delivers exactly one response per frame, in the order of the frames, so its
state is the queue of responses not yet delivered; a round trip on it sends a frame and takes the
*oldest* response. Every frame on it is marked with its origin: the caller's `i`-th frame, or a
presentation of the transport's own. The log records which origin each outcome handed to the
caller, and each receipt applied to the balance, came from.

A balance is a signed 64-bit number. A price that does not fit one counts as the largest, and a
charge wraps around as in a release build. What a frame needs is compared in 128 bits.
-/

namespace BitcoinPir.Credit

open Foundations

/-! ## Prices -/

inductive Access
  | free
  | bestEffort
  | paid
  deriving DecidableEq

/-- How frames are priced: the classification of frames, the server's gas card and its access
policy. -/
structure Pricing (Op : Type) where
  classifyFrame : Bytes → Option (Op × UInt8)
  /-- What the server charges before it dispatches a frame. -/
  frameGas : UInt8 → Op → Option ℕ
  access : Op → Access
  opFamily : Op → ℕ
  expectedResponseBytes : Op → ℕ
  egressGas : ℕ → ℕ
  creditsToCover : ℕ → ℕ
  /-- The server takes presentations. -/
  canPay : Bool

structure Presentation where
  kind : UInt8
  payload : Bytes
  credits : ℕ

/-- Everything outside the transport: prices, the wallet's answer to its `n`-th request, and the
server's response to the `n`-th frame on the inner transport. -/
structure Env (Op : Type) extends Pricing Op where
  present : ℕ → ℕ → PirResult (Option Presentation)
  respond : ℕ → Bytes → Bytes

/-! ## Frames of the credit protocol -/

def reqCreditPresent : UInt8 := 0x12

def respCreditOk : UInt8 := 0x12

def maxCreditPresentPayloadLen : ℕ := 256 * 1024

def encodeCreditPresentBody (kind : UInt8) (payload : Bytes) : PirResult Bytes :=
  if payload = [] then .error (.protocol "empty credit presentation")
  else if maxCreditPresentPayloadLen < payload.length then
    .error (.protocol
      s!"credit presentation is {payload.length} bytes, the limit is {maxCreditPresentPayloadLen}")
  else .ok (kind :: (leBytes 4 payload.length ++ payload))

structure CreditReceipt where
  gasAdded : ℕ
  gasBalance : ℤ

/-- A 64-bit two's complement number. -/
def signed64 (n : ℕ) : ℤ := if n < 2 ^ 63 then n else (n : ℤ) - 2 ^ 64

/-- A price as a signed 64-bit number. -/
def signedGas (gas : ℕ) : ℤ := min gas (2 ^ 63 - 1)

/-- Take gas off a balance. -/
def debit (balance : ℤ) (gas : ℕ) : ℤ := (balance - signedGas gas).bmod (2 ^ 64)

def decodeErrorEnvelope (response : Bytes) : String :=
  if 5 ≤ response.length then
    let len := leNat ((response.drop 1).take 4)
    if 5 + len ≤ response.length then fromUtf8Lossy ((response.drop 5).take len)
    else "<truncated error message>"
  else fromUtf8Lossy (response.drop 1)

def parseCreditResponse (response : Bytes) : PirResult CreditReceipt :=
  match response with
  | [] => .error (.protocol "empty credit response")
  | variant :: body =>
    if variant = respCreditOk then
      if response.length ≠ 17 then
        .error (.protocol s!"credit response must be 17 bytes, got {response.length}")
      else .ok ⟨leNat (body.take 8), signed64 (leNat (body.drop 8))⟩
    else if variant = respError then .error (.serverError (decodeErrorEnvelope response))
    else .error (.protocol
      s!"unexpected response variant 0x{hexByte variant} for credit presentation")

/-- The text of an error response; a malformed one is shown as it is. -/
def decodeErrorMessage (response : Bytes) : String :=
  let len := leNat ((response.drop 1).take 4)
  if 5 ≤ response.length ∧ 5 + len ≤ response.length then
    fromUtf8Lossy ((response.drop 5).take len)
  else fromUtf8Lossy (response.drop 1)

def freeLaneBusyPrefix : String := "free capacity busy"

/-- The response is a refusal by a best-effort lane. -/
def isBusy (response : Bytes) : Bool :=
  response.head? = some respError &&
    freeLaneBusyPrefix.toList.isPrefixOf (decodeErrorMessage response).toList

/-- The part of a text after the first occurrence of a pattern, and the part before it. -/
def splitOnce (pat : List Char) : List Char → Option (List Char × List Char)
  | [] => if pat = [] then some ([], []) else none
  | c :: cs =>
    if pat.isPrefixOf (c :: cs) then some ([], (c :: cs).drop pat.length)
    else (splitOnce pat cs).map fun (before, after) => (c :: before, after)

/-- The characters `str::trim` strips: those with the Unicode property `White_Space`. -/
def isWhiteSpace (c : Char) : Bool :=
  (9 ≤ c.toNat && c.toNat ≤ 13) || (0x2000 ≤ c.toNat && c.toNat ≤ 0x200A) ||
    [0x20, 0x85, 0xA0, 0x1680, 0x2028, 0x2029, 0x202F, 0x205F, 0x3000].contains c.toNat

def trimChars (cs : List Char) : List Char :=
  ((cs.dropWhile isWhiteSpace).reverse.dropWhile isWhiteSpace).reverse

def parseDigits (cs : List Char) : Option ℕ :=
  if cs ≠ [] ∧ cs.all Char.isDigit then
    some (cs.foldl (fun n c => n * 10 + (c.toNat - '0'.toNat)) 0)
  else none

/-- An unsigned 64-bit number in decimal. -/
def parseU64 (cs : List Char) : Option ℕ :=
  (parseDigits (if cs.head? = some '+' then cs.drop 1 else cs)).filter (· < 2 ^ 64)

/-- A signed 64-bit number in decimal. -/
def parseI64 (cs : List Char) : Option ℤ :=
  if cs.head? = some '-' then
    ((parseDigits (cs.drop 1)).filter (· ≤ 2 ^ 63)).map fun n => -(n : ℤ)
  else ((parseDigits (if cs.head? = some '+' then cs.drop 1 else cs)).filter (· < 2 ^ 63)).map
    fun n => (n : ℤ)

/-- The gas a refused frame needs, and the server's balance. -/
def parseInsufficientGas (message : String) : Option (ℕ × ℤ) := do
  let start := "insufficient gas: this frame needs ".toList
  if ¬start.isPrefixOf message.toList then none
  else
    let rest := message.toList.drop start.length
    let (needed, rest) ← splitOnce " and the connection has ".toList rest
    let balance := rest.takeWhile (· ≠ ';')
    return (← parseU64 (trimChars needed), ← parseI64 (trimChars balance))

/-- The numbers of a refusal for lack of gas. -/
def refusal (response : Bytes) : Option (ℕ × ℤ) :=
  if response.head? ≠ some respError then none
  else parseInsufficientGas (decodeErrorMessage response)

/-! ## State -/

/-- Where a frame on the inner transport comes from. -/
inductive Origin
  | caller (i : ℕ)
  | presentation
  deriving DecidableEq

/-- A response that was not delivered yet. -/
structure Pending where
  origin : Origin
  response : Bytes
  deriving DecidableEq

/-- How a frame was booked when it went out. -/
inductive Booking (Op : Type)
  | metered (op : Op)
  | freeLane
  | free

/-- A booked frame and the number of responses attributed to it. -/
structure Outstanding (Op : Type) where
  booking : Booking Op
  framesSeen : ℕ

/-- A best-effort frame kept for a paid resend: the frame, its number, and the balance before. -/
structure BusyRetry where
  request : Bytes
  frame : ℕ
  balanceBefore : ℤ

/-- What the caller got for a frame. -/
structure Handed where
  origin : Origin
  outcome : PirResult Bytes

structure State (Op : Type) where
  balance : ℤ
  outstanding : List (Outstanding Op)
  /-- Largest response seen per request family. -/
  observed : ℕ → Option ℕ
  presentedCredits : ℕ
  busyRetry : Option BusyRetry
  /-- Frames sent on the inner transport. -/
  innerFrames : ℕ
  pending : List Pending
  walletCalls : ℕ
  /-- Frames taken from the caller. -/
  callerFrames : ℕ
  handed : List Handed
  /-- Where the receipts applied to the balance came from. -/
  receipts : List Origin

def State.init (Op : Type) (balance : ℤ) : State Op :=
  ⟨balance, [], fun _ => none, 0, none, 0, [], 0, 0, [], []⟩

section Calls

variable {Op : Type} (env : Env Op) (s : State Op)

/-! ## The inner transport -/

def innerSend (origin : Origin) (frame : Bytes) : State Op :=
  { s with
    innerFrames := s.innerFrames + 1
    pending := s.pending ++ [⟨origin, env.respond s.innerFrames frame⟩] }

/-- Take the oldest response. -/
def innerRecv : Option (Pending × State Op) :=
  match s.pending with
  | [] => none
  | p :: rest => some (p, { s with pending := rest })

/-- Send a frame and take the oldest response. -/
def innerRoundtrip (origin : Origin) (frame : Bytes) : Pending × State Op :=
  let s := innerSend env s origin frame
  (s.pending.headD ⟨origin, []⟩, { s with pending := s.pending.tail })

/-! ## Funding -/

/-- The response bytes expected for a request kind, priced. -/
def egressReserve (op : Op) : ℕ :=
  env.egressGas (match s.observed (env.opFamily op) with
    | none => env.expectedResponseBytes op
    | some seen => max seen ((seen / 8 + seen) % 2 ^ 64))

/-- The credits that cover what is missing. -/
def creditsFor (needed : ℤ) : ℕ :=
  max 1 (env.creditsToCover (min (needed - s.balance).toNat (2 ^ 64 - 1)))

/-- Send a presentation and adopt the balance of its receipt. -/
def presentCredits (presentation : Presentation) : PirResult Unit × State Op :=
  match encodeCreditPresentBody presentation.kind presentation.payload with
  | .error e => (.error e, s)
  | .ok body =>
    let (p, s) := innerRoundtrip env s .presentation (encodeRequest reqCreditPresent body)
    match parseCreditResponse p.response with
    | .error e => (.error e, s)
    | .ok receipt =>
      (.ok (), { s with
        presentedCredits := s.presentedCredits + presentation.credits
        balance := receipt.gasBalance
        receipts := s.receipts ++ [p.origin] })

/-- Present credits once; `false` when the wallet has none. -/
def presentOnce (credits : ℕ) : PirResult Bool × State Op :=
  let answer := env.present s.walletCalls credits
  let s := { s with walletCalls := s.walletCalls + 1 }
  match answer with
  | .error e => (.error e, s)
  | .ok none => (.ok false, s)
  | .ok (some presentation) =>
    match presentCredits env s presentation with
    | (.error e, s) => (.error e, s)
    | (.ok (), s) => (.ok true, s)

/-- Present credits until the balance covers `needed`, at most as often as attempts are left. -/
def topUpIfPossible : ℕ → State Op → ℤ → PirResult Bool × State Op
  | attempts, s, needed =>
    if needed ≤ s.balance then (.ok true, s)
    else
      match attempts with
      | 0 => (.error (.protocol
          "credits: the balance did not reach the frame's price after four presentations"), s)
      | attempts + 1 =>
        match presentOnce env s (creditsFor env s needed) with
        | (.error e, s) => (.error e, s)
        | (.ok false, s) => (.ok false, s)
        | (.ok true, s) => topUpIfPossible attempts s needed

def topUp (needed : ℤ) : PirResult Unit × State Op :=
  match topUpIfPossible env 4 s needed with
  | (.error e, s) => (.error e, s)
  | (.ok true, s) => (.ok (), s)
  | (.ok false, s) => (.error (.serverError (s!"credits required: this frame needs " ++
      s!"{creditsFor env s needed} more credit(s) and the wallet has none")), s)

/-- Price and, if needed, fund a frame. -/
def beforeSend (frame : Bytes) : PirResult (Booking Op) × State Op :=
  match env.classifyFrame frame with
  | none => (.ok .free, s)
  | some (op, dbId) =>
    match env.frameGas dbId op with
    | none => (.ok .free, s)
    | some admission =>
      match env.access op with
      | .free => (.ok .free, s)
      | .bestEffort =>
        if s.balance < signedGas admission then (.ok .freeLane, s)
        else (.ok (.metered op), { s with balance := debit s.balance admission })
      | .paid =>
        let needed : ℤ := admission + egressReserve env s op
        if s.balance < needed then
          match topUp env s needed with
          | (.error e, s) => (.error e, s)
          | (.ok (), s) => (.ok (.metered op), { s with balance := debit s.balance admission })
        else (.ok (.metered op), { s with balance := debit s.balance admission })

/-! ## Bookkeeping -/

/-- Forget an answered request that is the only one booked. -/
def closeAnsweredHead : State Op :=
  match s.outstanding with
  | [o] => if 0 < o.framesSeen then { s with outstanding := [] } else s
  | _ => s

/-- Charge a response to the metered request it answers. -/
def chargeEgress (o : Outstanding Op) (responseLen : ℕ) : State Op :=
  match o.booking with
  | .metered op =>
    let family := env.opFamily op
    let before := (s.observed family).getD 0
    let seen := if o.framesSeen ≤ 1 then max before responseLen
      else min (before + responseLen) (2 ^ 64 - 1)
    { s with
      balance := debit s.balance (env.egressGas responseLen)
      observed := Function.update s.observed family (some seen) }
  | _ => s

/-- Attribute a response to the oldest booked request. -/
def afterRecv (responseLen : ℕ) : State Op :=
  match s.outstanding with
  | [] => s
  | o :: rest =>
    let o := { o with framesSeen := o.framesSeen + 1 }
    let s := chargeEgress env s o responseLen
    { s with outstanding := if rest = [] then [o] else rest }

def noteRefusal (response : Bytes) : Option ℕ × State Op :=
  match refusal response with
  | none => (none, s)
  | some (needed, balance) => (some needed, { s with balance })

def bookResend (booking : Booking Op) (admission : ℕ) : State Op :=
  let s := closeAnsweredHead { s with balance := debit s.balance admission }
  { s with outstanding := s.outstanding ++ [⟨booking, 0⟩] }

/-- The balance a refused frame needs. If it was booked as metered, at least one presentation is
made, so that its receipt corrects the balance. -/
def neededAfterBusy (op : Op) (admission : ℕ) : Booking Op → ℤ
  | .metered _ => max (admission + egressReserve env s op) (s.balance + 1)
  | _ => admission + egressReserve env s op

/-- Fund a frame that a busy lane refused, and book its resend; `false` leaves the refusal
standing. -/
def fundAfterBusy (request : Bytes) (booking : Booking Op) (balanceBefore : ℤ) :
    PirResult Bool × State Op :=
  let s := { s with balance := balanceBefore }
  match env.classifyFrame request with
  | none => (.ok false, s)
  | some (op, dbId) =>
    let admission := (env.frameGas dbId op).getD 0
    if env.canPay = false then (.ok false, s)
    else
      match topUpIfPossible env 4 s (neededAfterBusy env s op admission booking) with
      | (.error e, s) => (.error e, s)
      | (.ok false, s) => (.ok false, s)
      | (.ok true, s) => (.ok true, bookResend s (.metered op) admission)

def isBestEffort : Booking Op → Bool
  | .freeLane => true
  | .metered op => env.access op = .bestEffort
  | .free => false

/-- Give the caller the outcome of a frame. -/
def hand (origin : Origin) (outcome : PirResult Bytes) :
    PirResult Bytes × State Op :=
  (outcome, { s with handed := s.handed ++ [⟨origin, outcome⟩] })

/-! ## The calls -/

def send (data : Bytes) : PirResult Unit × State Op :=
  let s := closeAnsweredHead s
  let balanceBefore := s.balance
  match beforeSend env s data with
  | (.error e, s) => (.error e, s)
  | (.ok booking, s) =>
    let retry := if s.outstanding.isEmpty && isBestEffort env booking then
      some ⟨data, s.callerFrames, balanceBefore⟩ else none
    let s := innerSend env { s with busyRetry := retry } (.caller s.callerFrames) data
    (.ok (), { s with
      callerFrames := s.callerFrames + 1
      outstanding := s.outstanding ++ [⟨booking, 0⟩] })

/-- Send a funded frame again and hand over what comes back. -/
def resendAndRecv (retry : BusyRetry) : PirResult Bytes × State Op :=
  let (p, s) := innerRoundtrip env s (.caller retry.frame) retry.request
  let frame := encodeResponse p.response
  hand (afterRecv env s frame.length) p.origin (.ok frame)

def recv : PirResult Bytes × State Op :=
  match innerRecv s with
  | none => (.error (.protocol "nothing to receive"), s)
  | some (p, s) =>
    let frame := encodeResponse p.response
    let s := afterRecv env s frame.length
    let retry := s.busyRetry
    let s := { s with busyRetry := none }
    match retry, s.outstanding.head?, isBusy p.response with
    | some retry, some entry, true =>
      match fundAfterBusy env s retry.request entry.booking retry.balanceBefore with
      | (.error e, s) => hand s p.origin (.error e)
      | (.ok false, s) => hand s p.origin (.ok frame)
      | (.ok true, s) => resendAndRecv env s retry
    | _, _, _ => hand (noteRefusal s p.response).2 p.origin (.ok frame)

/-- The second attempt of a round trip. -/
def roundtripAgain (frame : ℕ) (request : Bytes) :
    PirResult Bytes × State Op :=
  let (p, s) := innerRoundtrip env s (.caller frame) request
  hand (afterRecv env s (p.response.length + 4)) p.origin (.ok p.response)

/-- What a frame that was refused for lack of gas needs for its response. -/
def refusalReserve : Booking Op → ℕ
  | .metered op => egressReserve env s op
  | _ => 0

/-- What a round trip makes of the first response. -/
def roundtripAnswer (p : Pending) (frame : ℕ) (request : Bytes)
    (booking : Booking Op) (balanceBefore : ℤ) : PirResult Bytes × State Op :=
  if isBusy p.response then
    match fundAfterBusy env s request booking balanceBefore with
    | (.error e, s) => hand s p.origin (.error e)
    | (.ok false, s) => hand s p.origin (.ok p.response)
    | (.ok true, s) => roundtripAgain env s frame request
  else
    match noteRefusal s p.response with
    | (none, s) => hand s p.origin (.ok p.response)
    | (some needed, s) =>
      match topUp env s (needed + refusalReserve env s booking) with
      | (.error e, s) => hand s p.origin (.error e)
      | (.ok (), s) => roundtripAgain env (bookResend s booking needed) frame request

def roundtrip (request : Bytes) : PirResult Bytes × State Op :=
  let s := { closeAnsweredHead s with busyRetry := none }
  let balanceBefore := s.balance
  match beforeSend env s request with
  | (.error e, s) => (.error e, s)
  | (.ok booking, s) =>
    let frame := s.callerFrames
    let s := { s with
      callerFrames := s.callerFrames + 1
      outstanding := s.outstanding ++ [⟨booking, 0⟩] }
    let (p, s) := innerRoundtrip env s (.caller frame) request
    let s := afterRecv env s (p.response.length + 4)
    roundtripAnswer env s p frame request booking balanceBefore

/-- A call of the caller. -/
inductive Call
  | send (data : Bytes)
  | recv
  | roundtrip (request : Bytes)

def step : Call → State Op
  | .send data => (send env s data).2
  | .recv => (recv env s).2
  | .roundtrip request => (roundtrip env s request).2

end Calls

end BitcoinPir.Credit
