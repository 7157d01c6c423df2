import BitcoinPir.Foundations.Bytes

/-!
# Gas

What a metered request costs. `GasTable.workGas` prices an operation from the public geometry of the
database it addresses; the numbers are floating-point milliseconds, rounded. A connection's balance
is charged before a frame is dispatched (`GasBalance.charge`), if the access policy says so.
-/

namespace BitcoinPir.Meter

open Foundations

/-! ## Geometry -/

structure SubTableGeometry where
  binsPerGroup : UInt64
  groups : UInt64
  bytes : UInt64

def saturatingAdd (a b : UInt64) : UInt64 := UInt64.ofNat (min (a.toNat + b.toNat) (2 ^ 64 - 1))

def saturatingMul (a b : UInt64) : UInt64 := UInt64.ofNat (min (a.toNat * b.toNat) (2 ^ 64 - 1))

def SubTableGeometry.cells (s : SubTableGeometry) : UInt64 := saturatingMul s.binsPerGroup s.groups

structure CuckooGeometry where
  index : SubTableGeometry
  chunk : SubTableGeometry
  indexSiblings : List SubTableGeometry
  chunkSiblings : List SubTableGeometry

structure OnionGeometry where
  indexNttBytes : UInt64
  chunkNttBytes : UInt64

structure OramGeometry where
  slotsPerLookup : UInt64

structure DatabaseGeometry where
  cuckoo : Option CuckooGeometry
  onion : Option OnionGeometry
  oram : Option OramGeometry

/-! ## Operations -/

inductive TableKind
  | index
  | chunk
  deriving DecidableEq

inductive Backend
  | dpf
  | harmony
  | onion
  | oram
  deriving DecidableEq

/-- A metered request, reduced to what its price depends on. -/
inductive MeteredOp
  | dpfIndexRound
  | dpfChunkRound
  | dpfSiblingPass (table : TableKind) (level : UInt8)
  | treeTops
  | onionRegisterKeys
  | onionIndexQuery
  | onionChunkQuery
  | onionSiblingQuery (table : TableKind)
  | onionTreeTops
  | harmonyHintSet (level : UInt8)
  | harmonyPoolEntry
  | harmonyContinuation
  | harmonyQuery (level : UInt8) (subQueries : UInt32)
  | oramLookup
  deriving DecidableEq

def MeteredOp.backend : MeteredOp → Backend
  | .dpfIndexRound | .dpfChunkRound | .dpfSiblingPass .. | .treeTops => .dpf
  | .onionRegisterKeys | .onionIndexQuery | .onionChunkQuery | .onionSiblingQuery _
  | .onionTreeTops => .onion
  | .harmonyHintSet _ | .harmonyPoolEntry | .harmonyContinuation | .harmonyQuery .. => .harmony
  | .oramLookup => .oram

/-- The levels on the wire: 0 is INDEX, 1 is CHUNK, `10 + l` and `20 + l` their sibling levels. -/
def harmonyLevel (level : UInt8) : Option (TableKind × Option UInt8) :=
  if level = 0 then some (.index, none)
  else if level = 1 then some (.chunk, none)
  else if 10 ≤ level ∧ level ≤ 19 then some (.index, some (level - 10))
  else if 20 ≤ level ∧ level ≤ 29 then some (.chunk, some (level - 20))
  else none

/-- A sibling batch has its table and level in the round id, `table * 100 + level`. -/
def dpfSiblingRound (roundId : UInt16) : Option (TableKind × UInt8) :=
  if roundId / 100 = 0 then some (.index, (roundId % 100).toUInt8)
  else if roundId / 100 = 1 then some (.chunk, (roundId % 100).toUInt8)
  else none

/-- A table of a database. The sibling levels of an OnionPIR table are one store. -/
inductive Table
  | main (kind : TableKind)
  | sibling (kind : TableKind) (level : ℕ)
  | siblings (kind : TableKind)
  | oram
  deriving DecidableEq

def harmonyTable (level : UInt8) : Option Table :=
  (harmonyLevel level).map fun
    | (kind, none) => .main kind
    | (kind, some l) => .sibling kind l.toNat

/-- The tables an operation is priced for. -/
def MeteredOp.tables : MeteredOp → List Table
  | .dpfIndexRound | .onionIndexQuery => [.main .index]
  | .dpfChunkRound | .onionChunkQuery => [.main .chunk]
  | .dpfSiblingPass kind level => [.sibling kind level.toNat]
  | .onionSiblingQuery kind => [.siblings kind]
  | .harmonyHintSet level | .harmonyQuery level _ => (harmonyTable level).toList
  | .harmonyPoolEntry | .harmonyContinuation => [.main .index, .main .chunk]
  | .oramLookup => [.oram]
  | .treeTops | .onionRegisterKeys | .onionTreeTops => []

/-! ## Prices -/

structure Calibration where
  dpfNsPerBin : Float
  dpfMsPerGb : Float
  onionIndexMsPerGb : Float
  onionChunkMsPerGb : Float
  onionSiblingQueryMs : Float
  onionRegisterKeysMs : Float
  harmonyPoolUsPerCell : Float
  harmonySiblingUsPerCell : Float
  harmonyQueryNsPerRead : Float
  oramMsPerSlot : Float
  treeTopsMs : Float

def harmonySegment (bins : UInt64) : UInt64 := (2.0 * bins.toFloat).sqrt.round.toUInt64

def sibling (cuckoo : CuckooGeometry) (table : TableKind) (level : UInt8) :
    Option SubTableGeometry :=
  match table with
  | .index => cuckoo.indexSiblings[level.toNat]?
  | .chunk => cuckoo.chunkSiblings[level.toNat]?

/-- The sub-table a HarmonyPIR level names. -/
def harmonySub (cuckoo : CuckooGeometry) : TableKind × Option UInt8 → Option SubTableGeometry
  | (.index, none) => some cuckoo.index
  | (.chunk, none) => some cuckoo.chunk
  | (table, some level) => sibling cuckoo table level

section Price

variable (c : Calibration)

def dpfMs (sub : SubTableGeometry) : Float :=
  sub.cells.toFloat * c.dpfNsPerBin / 1e6 + sub.bytes.toFloat / 1e9 * c.dpfMsPerGb

def hintSetMs (sub : SubTableGeometry) : Option UInt8 → Float
  | none => sub.cells.toFloat * c.harmonyPoolUsPerCell / 1e3
  | some _ => sub.cells.toFloat * c.harmonySiblingUsPerCell / 1e3

def poolEntryMs (cuckoo : CuckooGeometry) : Float :=
  (cuckoo.index.cells + cuckoo.chunk.cells).toFloat * c.harmonyPoolUsPerCell / 1e3

def harmonyQueryMs (sub : SubTableGeometry) (subQueries : UInt32) : Float :=
  sub.groups.toFloat * (harmonySegment sub.binsPerGroup - min 1 (harmonySegment sub.binsPerGroup)).toFloat *
    (max subQueries 1).toFloat * c.harmonyQueryNsPerRead / 1e6

/-- Milliseconds to gas. -/
def toGas (ms : Float) : UInt64 := (max ms.round 0.0).toUInt64

/-- What an operation costs on a database, without the base fee; `none` if the database does not
serve the backend or the table. -/
def workGas (db : DatabaseGeometry) : MeteredOp → Option UInt64
  | .dpfIndexRound => db.cuckoo.map fun g => toGas (dpfMs c g.index)
  | .dpfChunkRound => db.cuckoo.map fun g => toGas (dpfMs c g.chunk)
  | .dpfSiblingPass table level => do
    let g ← db.cuckoo
    let sub ← sibling g table level
    return toGas (dpfMs c sub)
  | .treeTops => db.cuckoo.map fun _ => toGas c.treeTopsMs
  | .onionRegisterKeys => db.onion.map fun _ => toGas c.onionRegisterKeysMs
  | .onionIndexQuery =>
    db.onion.map fun g => toGas (g.indexNttBytes.toFloat / 1e9 * c.onionIndexMsPerGb)
  | .onionChunkQuery =>
    db.onion.map fun g => toGas (g.chunkNttBytes.toFloat / 1e9 * c.onionChunkMsPerGb)
  | .onionSiblingQuery _ => db.onion.map fun _ => toGas c.onionSiblingQueryMs
  | .onionTreeTops => db.onion.map fun _ => toGas c.treeTopsMs
  | .harmonyHintSet level => do
    let g ← db.cuckoo
    let which ← harmonyLevel level
    let sub ← harmonySub g which
    return toGas (hintSetMs c sub which.2)
  | .harmonyPoolEntry => db.cuckoo.map fun g => toGas (poolEntryMs c g)
  | .harmonyContinuation => db.cuckoo.map fun g => toGas (poolEntryMs c g) / 2
  | .harmonyQuery level subQueries => do
    let g ← db.cuckoo
    let which ← harmonyLevel level
    let sub ← harmonySub g which
    return toGas (harmonyQueryMs c sub subQueries)
  | .oramLookup => db.oram.map fun g => toGas (g.slotsPerLookup.toFloat * c.oramMsPerSlot)

end Price

structure GasParams where
  baseGasPerFrame : UInt64
  egressGasPerMb : UInt64

def GasParams.frameGas (p : GasParams) (workGas : UInt64) : UInt64 :=
  saturatingAdd workGas p.baseGasPerFrame

def GasParams.egressGas (p : GasParams) (responseBytes : UInt64) : UInt64 :=
  UInt64.ofNat (min (responseBytes.toNat * p.egressGasPerMb.toNat / 1000000) (2 ^ 64 - 1))

/-! ## The balance of a connection -/

def i64Max : ℤ := 2 ^ 63 - 1

def i64Min : ℤ := -2 ^ 63

/-- An amount of gas as a signed number, at most the largest one. -/
def toI64 (gas : UInt64) : ℤ := min gas.toNat i64Max

structure GasBalance where
  gas : ℤ
  presentationFailures : ℕ
  /-- Label of the API key presented on this connection. -/
  apiKey : Option String

namespace GasBalance

def new : GasBalance := ⟨0, 0, none⟩

def topUp (b : GasBalance) (gasAdded : UInt64) : GasBalance :=
  { b with gas := min (b.gas + toI64 gasAdded) i64Max }

def covers (b : GasBalance) (frameGas : UInt64) : Bool :=
  frameGas.toNat ≤ i64Max ∧ (frameGas.toNat : ℤ) ≤ b.gas

/-- Charge a frame, or refuse it. -/
def charge (b : GasBalance) (frameGas : UInt64) : Except String GasBalance :=
  if b.gas < toI64 frameGas then
    .error (s!"insufficient gas: this frame needs {frameGas} and the connection has {b.gas}; " ++
      "present credits with REQ_CREDIT_PRESENT")
  else .ok { b with gas := b.gas - toI64 frameGas }

/-- Charge the bytes of a response; the balance may become negative. -/
def chargeEgress (b : GasBalance) (egressGas : UInt64) : GasBalance :=
  { b with gas := max (b.gas - toI64 egressGas) i64Min }

def notePresentationFailure (b : GasBalance) : GasBalance :=
  { b with presentationFailures := min (b.presentationFailures + 1) (2 ^ 32 - 1) }

def acceptApiKey (b : GasBalance) (label : String) : GasBalance := { b with apiKey := some label }

end GasBalance

/-! ## The access policy -/

inductive Access
  | free
  | paid
  | bestEffort
  deriving DecidableEq

def Access.openness : Access → ℕ
  | .free => 2
  | .bestEffort => 1
  | .paid => 0

structure AccessPolicy where
  dpf : Access
  harmony : Access
  onion : Access
  oram : Access

namespace AccessPolicy

def get (p : AccessPolicy) : Backend → Access
  | .dpf => p.dpf
  | .harmony => p.harmony
  | .onion => p.onion
  | .oram => p.oram

/-- Tree tops serve DPF and HarmonyPIR alike and follow the more open of the two. -/
def forOp (p : AccessPolicy) (op : MeteredOp) : Access :=
  if op = .treeTops ∧ p.dpf.openness < p.harmony.openness then p.harmony else p.get op.backend

def AllPaid (p : AccessPolicy) : Prop := ∀ backend, p.get backend = .paid

theorem AllPaid.forOp {p : AccessPolicy} (h : p.AllPaid) (op : MeteredOp) : p.forOp op = .paid := by
  rw [AccessPolicy.forOp]
  split_ifs
  · exact h .harmony
  · exact h op.backend

end AccessPolicy

inductive Admission
  | free
  | charged
  | freeLane
  | refused (message : String)

def Admission.isRefused : Admission → Bool
  | .refused _ => true
  | _ => false

def Admission.isCharged : Admission → Bool
  | .charged => true
  | _ => false

/-- Charge a frame or refuse it. -/
def chargeFrame (balance : GasBalance) (cost : UInt64) : Admission × GasBalance :=
  match balance.charge cost with
  | .ok b => (.charged, b)
  | .error message => (.refused message, balance)

/-- Decide one frame. `lane` is what a best-effort lane answers. -/
def admitFrame (policy : AccessPolicy) (lane : Except String Unit) (op : Option MeteredOp)
    (cost : Option UInt64) (balance : GasBalance) : Admission × GasBalance :=
  match op, cost with
  | some op, some cost =>
    -- A connection that presented an API key is served unmetered.
    if balance.apiKey.isSome then (.free, balance)
    else
      match policy.forOp op with
      | .free => (.free, balance)
      | .paid => chargeFrame balance cost
      | .bestEffort =>
        if balance.covers cost then chargeFrame balance cost
        else
          match lane with
          | .ok () => (.freeLane, balance)
          | .error message => (.refused message, balance)
  | _, _ => (.free, balance)

theorem chargeFrame_cases (balance : GasBalance) (cost : UInt64) :
    (∃ message, chargeFrame balance cost = (.refused message, balance)) ∨
      chargeFrame balance cost = (.charged, { balance with gas := balance.gas - toI64 cost }) := by
  rw [chargeFrame, GasBalance.charge]
  split_ifs
  · exact .inl ⟨_, rfl⟩
  · exact .inr rfl

theorem chargeFrame_of_le {balance : GasBalance} {cost : UInt64} (h : toI64 cost ≤ balance.gas) :
    chargeFrame balance cost = (.charged, { balance with gas := balance.gas - toI64 cost }) := by
  rw [chargeFrame, GasBalance.charge, if_neg (not_lt.2 h)]

/-- **A paid frame is charged or refused.** -/
theorem admitFrame_paid {policy : AccessPolicy} (hpaid : policy.AllPaid) (lane : Except String Unit)
    (op : MeteredOp) (cost : UInt64) {balance : GasBalance} (hkey : balance.apiKey = none) :
    admitFrame policy lane (some op) (some cost) balance = chargeFrame balance cost := by
  simp only [admitFrame, hkey, Option.isSome_none, Bool.false_eq_true, if_false, hpaid.forOp]

theorem chargeFrame_apiKey (balance : GasBalance) (cost : UInt64) :
    (chargeFrame balance cost).2.apiKey = balance.apiKey := by
  rcases chargeFrame_cases balance cost with ⟨message, h⟩ | h
  · rw [h]
  · rw [h]

theorem admitFrame_apiKey (policy : AccessPolicy) (lane : Except String Unit)
    (op : Option MeteredOp) (cost : Option UInt64) (balance : GasBalance) :
    (admitFrame policy lane op cost balance).2.apiKey = balance.apiKey := by
  unfold admitFrame
  repeat' split
  all_goals first
    | rfl
    | exact chargeFrame_apiKey ..

end BitcoinPir.Meter
