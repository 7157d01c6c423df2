import BitcoinPir.Core.Hash
import BitcoinPir.Sync.Delta

/-!
# How delta records are made

`delta_gen_0` replays the blocks after a snapshot: it keeps the outputs the blocks created and did
not spend again, and per script hash the outputs of the snapshot that were spent. At the end it
writes a file of records grouped by script hash, with the created outputs above the dust threshold.
`delta_gen_1` slices that file into records again, pads each to blocks of 40 bytes, and writes one
index entry per script hash.

The two hash maps are lists of pairs with distinct keys. In which order a map is walked is left
open: the walks take the order as an argument.
-/

namespace BitcoinPir.Sync

open Foundations

/-! ## The chain -/

structure OutPoint where
  txid : Digest 32
  vout : UInt32
  deriving DecidableEq

structure TxOut where
  scriptPubkey : Bytes
  value : UInt64
  deriving DecidableEq

/-- Outputs by outpoint. -/
abbrev Outputs := List (OutPoint × TxOut)

structure Transaction where
  txid : Digest 32
  isCoinbase : Bool
  inputs : List OutPoint
  outputs : List TxOut

abbrev Block := List Transaction

/-- The outpoints of a transaction's outputs. -/
def Transaction.created (tx : Transaction) : Outputs :=
  tx.outputs.zipIdx.map fun (output, vout) => (⟨tx.txid, UInt32.ofNat vout⟩, output)

def Transaction.spends (tx : Transaction) : List OutPoint := if tx.isCoinbase then [] else tx.inputs

section Chain

variable (unspendable : Bytes → Bool)

/-- The unspent outputs after a transaction. Provably unspendable outputs are never among them. -/
def unspentAfterTx (unspent : Outputs) (tx : Transaction) : Outputs :=
  (unspent.filter fun e => e.1 ∉ tx.spends) ++
    tx.created.filter fun e => !unspendable e.2.scriptPubkey

def unspentAfter (unspent : Outputs) (blocks : List Block) : Outputs :=
  blocks.flatten.foldl (unspentAfterTx unspendable) unspent

end Chain

/-- The blocks of a range. Inputs and outputs are counted with 64 bits. -/
structure BlockRange where
  blocks : List Block
  inputs_lt : (blocks.flatten.flatMap Transaction.spends).length < 2 ^ 64
  outputs_lt : (blocks.flatten.flatMap Transaction.created).length < 2 ^ 64

def createdOutpoints (blocks : List Block) : List OutPoint :=
  blocks.flatten.flatMap fun tx => tx.created.map Prod.fst

/-! ## `delta_gen_0` -/

def dustThreshold : UInt64 := 576

structure ScriptDelta where
  spent : List OutPoint
  newUtxos : List UtxoEntry
  deriving DecidableEq

/-- The delta of each script hash that has one. -/
abbrev Deltas := List (ScriptHash × ScriptDelta)

/-- Script hash and value of outputs. -/
abbrev Created := List (OutPoint × ScriptHash × UInt64)

/-- Change the entry of a key, which is created if it does not exist. -/
def entryOrDefault (deltas : Deltas) (scriptHash : ScriptHash)
    (change : ScriptDelta → ScriptDelta) : Deltas :=
  if scriptHash ∈ deltas.map Prod.fst then
    deltas.map fun e => if e.1 = scriptHash then (e.1, change e.2) else e
  else deltas ++ [(scriptHash, change ⟨[], []⟩)]

structure Replay where
  /-- Outputs created in the range and not spent in it. -/
  inRangeCreated : Created
  deltas : Deltas

section Gen0

variable (hash160 : Bytes → ScriptHash)

/-- The snapshot's outputs by outpoint; a later one replaces an earlier one. -/
def utxoMap (dump : Outputs) (key : OutPoint) : Option ScriptHash :=
  (dump.reverse.map fun e => (e.1, hash160 e.2.scriptPubkey)).lookup key

def Replay.spend (utxos : OutPoint → Option ScriptHash) (st : Replay) (key : OutPoint) : Replay :=
  if key ∈ st.inRangeCreated.map Prod.fst then
    -- Created and consumed within the range.
    { st with inRangeCreated := st.inRangeCreated.filter fun e => e.1 ≠ key }
  else
    match utxos key with
    | some scriptHash =>
      { st with deltas := entryOrDefault st.deltas scriptHash fun d =>
          { d with spent := d.spent ++ [key] } }
    | none => st

def Replay.create (st : Replay) (output : OutPoint × TxOut) : Replay :=
  { st with inRangeCreated := (st.inRangeCreated.filter fun e => e.1 ≠ output.1) ++
      [(output.1, hash160 output.2.scriptPubkey, output.2.value)] }

def Replay.tx (utxos : OutPoint → Option ScriptHash) (st : Replay) (tx : Transaction) : Replay :=
  let st := if tx.isCoinbase then st else tx.inputs.foldl (Replay.spend utxos) st
  tx.created.foldl (Replay.create hash160) st

def replayBlocks (dump : Outputs) (blocks : List Block) : Replay :=
  blocks.foldl (fun st block => block.foldl (Replay.tx hash160 (utxoMap hash160 dump)) st) ⟨[], []⟩

/-- The outputs left over become new outputs of their script hashes, without dust. -/
def addNewUtxos (deltas : Deltas)
    (drained : Created) : Deltas :=
  drained.foldl (fun deltas e =>
    if e.2.2 ≤ dustThreshold then deltas
    else entryOrDefault deltas e.2.1 fun d =>
      { d with newUtxos := d.newUtxos ++ [⟨e.1.txid, e.1.vout, e.2.2⟩] }) deltas

end Gen0

def writeSpent (o : OutPoint) : Bytes := o.txid.val ++ writeVarint o.vout.toUInt64

def writeNew (n : UtxoEntry) : Bytes :=
  n.txid.val ++ writeVarint n.vout.toUInt64 ++ writeVarint n.amountSats

def writeDelta (d : ScriptDelta) : Bytes :=
  writeVarint (UInt64.ofNat d.spent.length) ++ d.spent.flatMap writeSpent ++
    writeVarint (UInt64.ofNat d.newUtxos.length) ++ d.newUtxos.flatMap writeNew

/-- The grouped file. The number of records is written as 32 bits. -/
def writeGrouped (deltas : Deltas) : Bytes :=
  leBytes 4 deltas.length ++ deltas.flatMap fun e => e.1.val ++ writeDelta e.2

/-! ## `delta_gen_1` -/

def blockSize : ℕ := 40

def maxChunksPerSpk : ℕ := 255

/-- An index entry with the bytes it wrote to the chunk file. -/
structure PackedRecord where
  scriptHash : ScriptHash
  startChunkId : UInt32
  /-- 0 marks a record that is too large to be stored. -/
  numChunks : UInt8
  data : Bytes

/-- Skip a number and return it; `none` is a panic. -/
def skipVarint (data : Bytes) : Option (UInt64 × Bytes) := (tryReadVarint data).toOption

/-- Skip `n` entries of a transaction id and `numbers` numbers. -/
def skipEntries (numbers : ℕ) : ℕ → Bytes → Option Bytes
  | 0, data => some data
  | n + 1, data =>
    match Nat.iterate (fun d => d.bind fun d => (skipVarint d).map Prod.snd) numbers
        (some (data.drop 32)) with
    | none => none
    | some rest => skipEntries numbers n rest

/-- The bytes after one record. -/
def skipRecord (data : Bytes) : Option Bytes := do
  let (numSpent, data) ← skipVarint data
  let data ← skipEntries 1 numSpent.toNat data
  let (numNew, data) ← skipVarint data
  skipEntries 2 numNew.toNat data

/-- Pad a record, or mark it as too large. -/
def packRecord (scriptHash : ScriptHash) (chunkId : UInt32) (deltaBytes : Bytes) : PackedRecord :=
  let numBlocks := deltaBytes.length ⌈/⌉ blockSize
  if maxChunksPerSpk < numBlocks then ⟨scriptHash, 0, 0, []⟩
  else
    ⟨scriptHash, chunkId, UInt8.ofNat numBlocks,
      deltaBytes ++ List.replicate (numBlocks * blockSize - deltaBytes.length) 0⟩

/-- Slice `n` records off the file; `none` is a panic. -/
def packRecords : ℕ → UInt32 → Bytes → Option (List PackedRecord)
  | 0, _, _ => some []
  | n + 1, chunkId, data => do
    let (scriptHash, data) ← (Reader.takeArr 20 () data).toOption
    let rest ← skipRecord data
    let record := packRecord scriptHash chunkId (data.take (data.length - rest.length))
    let records ← packRecords n (chunkId + record.numChunks.toUInt32) rest
    return record :: records

def buildChunks (file : Bytes) : Option (List PackedRecord) :=
  if file.length < 4 then none
  else packRecords (leNat (file.take 4)) 0 (file.drop 4)

end BitcoinPir.Sync
