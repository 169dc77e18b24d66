import Recto.Genesis.SealMark
import Recto.Data.Faulty

/-!
# The stored chain and its mark

Two files: the chain's records and the seal mark. An append to a sealed chain
writes three times, the mark in flight, the chain and the plain mark; a start
settles a mark that a fault left in flight.
-/

namespace Recto
namespace Genesis

variable (env : Primitives)

/-- An entry as it is stored. -/
structure Record where
  seq : ℤ
  op : String
  kind : String
  /-- Hexadecimal. -/
  pubkey : String
  algorithm : String
  prev : Option String
  /-- URL-safe base64. -/
  signatures : List String
  metaText : Option String
  deriving DecidableEq, Repr

def ChainEntry.asRecord (entry : ChainEntry) : Record where
  seq := entry.seq
  op := entry.op
  kind := entry.kind
  pubkey := hex entry.pubkey
  algorithm := entry.algorithm
  prev := entry.prev
  signatures := entry.signatures.map b64u
  metaText := entry.metaText

/-- Text that must decode. -/
def decoded {α : Type} : Option α → Except Failure α
  | some a => .ok a
  | none => .error (.python .valueError)

/-- One stored record as an entry. -/
def entryFromRecord (record : Record) : Except Failure ChainEntry := do
  let pubkey ← decoded (fromHex record.pubkey)
  let signatures ← record.signatures.mapM fun s => decoded (unb64u s)
  buildEntry env
    { seq := record.seq, op := record.op, kind := record.kind, pubkey := pubkey
      algorithm := record.algorithm, prev := record.prev, signatures := signatures
      metaText := record.metaText }

def entriesFromRecords (records : List Record) : Except Failure (List ChainEntry) :=
  records.mapM (entryFromRecord env)

/-- `replay_state(entries) if entries else None` -/
def replayStored (entries : List ChainEntry) : Except Failure (Option ChainState) :=
  if entries = [] then .ok none else (replayState env entries).map some

/-- The two files: `chain` of genesis_members.json, and genesis_seal_mark.json (`null` when it does
not exist). -/
structure ChainStore where
  chain : List Record
  mark : Json
  deriving DecidableEq

/-- The store before anything was written. -/
def ChainStore.empty : ChainStore := ⟨[], .null⟩

abbrev Chained := Faulty ChainStore Failure

/-- A write of the seal mark. -/
def writeMark (mark : Json) : Chained PUnit :=
  Faulty.write (fun store => { store with mark := mark }) (.python .osError)

/-- A write of the chain. -/
def writeChain (chain : List Record) : Chained PUnit :=
  Faulty.write (fun store => { store with chain := chain }) (.python .osError)

/-- The chain's state, checked against the seal mark. -/
def genesisChainState (store : ChainStore) : Except Failure (Option ChainState) := do
  let entries ← entriesFromRecords env store.chain
  let state ← replayStored env entries
  checkSealMark env entries state store.mark
  pure state

/-- A record that is no entry at all is refused as a chain error too. -/
def asChainError {α : Type} : Except Failure α → Except Failure α
  | .error (.python e) => .error (.chain (.malformedRecord e))
  | x => x

/-- The guard: the chain with the record replays. -/
def candidate (chain : List Record) (record : Record) :
    Except Failure (List ChainEntry × ChainState) := do
  let entries ← asChainError (entriesFromRecords env (chain ++ [record]))
  let newState ← replayState env entries
  pure (entries, newState)

/-- What an append establishes before it writes: the entries with the new one, the state they
replay to, and the plain mark the stored chain answers to. -/
def checkAppend (store : ChainStore) (record : Record) :
    Except Failure (List ChainEntry × ChainState × Json) := do
  let (entries, newState) ← candidate env store.chain record
  let stored := entries.dropLast
  let storedState ← replayStored env stored
  let mark ← resolveSealMark env stored storedState store.mark
  pure (entries, newState, mark)

def appendGenesisChainEntry (record : Record) : Chained ChainState := do
  let store ← Faulty.get
  let (entries, newState, mark) ← Faulty.ofExcept (checkAppend env store record)
  let newMark ← Faulty.ofExcept (sealMarkOf env entries newState)
  match newMark with
  | none => writeChain (store.chain ++ [record])
  | some newMark =>
      -- The mark goes ahead: a stop between the writes leaves a chain that answers to a side.
      writeMark (inFlight mark newMark.toJson)
      writeChain (store.chain ++ [record])
      -- The chain is committed, so a mark that fails to advance only lags.
      (writeMark newMark.toJson).handle fun _ => pure ⟨⟩
  pure newState

/-- The plain mark a mark in flight settles to; `none` when there is nothing to settle. -/
def markToSettle (store : ChainStore) : Except Failure (Option Json) :=
  match store.mark with
  | .obj fields =>
      if fields.lookup "next" = none then .ok none
      else do
        let entries ← entriesFromRecords env store.chain
        let state ← replayStored env entries
        let plain ← resolveSealMark env entries state store.mark
        pure (some plain)
  | _ => .ok none

/-- At start. A plain mark of `null` removes the file. -/
def settleSealMark : Chained PUnit := do
  let store ← Faulty.get
  let plain ← Faulty.ofExcept (markToSettle env store)
  match plain with
  | none => pure ⟨⟩
  | some plain => writeMark plain

/-- A call on the store, with the faults its writes meet. -/
inductive ChainCall where
  | append (record : Record) (faults : List Fault)
  | settle (faults : List Fault)

def ChainCall.run (store : ChainStore) : ChainCall → ChainStore
  | .append record faults => ((appendGenesisChainEntry env record).run faults store).store
  | .settle faults => ((settleSealMark env).run faults store).store

/-- The store after the calls, from an empty one. -/
def runCalls (calls : List ChainCall) : ChainStore :=
  calls.foldl (ChainCall.run env) ChainStore.empty

end Genesis
end Recto
