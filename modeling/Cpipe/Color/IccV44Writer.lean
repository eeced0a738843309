import Cpipe.Library.Raster

namespace Cpipe.Color.IccV44Writer
open Library.Bytes (Fault copyN join32)
open Library.Raster (load store)

structure TagRecord where
  signature : UInt32
  offset : UInt32
  size : UInt32
deriving DecidableEq, Repr

/-- An access outside a vector, or an exception. -/
inductive Failure
  | outside (fault : Fault)
  | runtimeError (message : String)
deriving DecidableEq, Repr

instance : MonadLift (Except Fault) (Except Failure) where
  monadLift x := x.mapError .outside

def fourcc (a b c d : Char) : UInt32 :=
  (UInt32.ofNat a.toNat <<< 24) ||| (UInt32.ofNat b.toNat <<< 16) |||
    (UInt32.ofNat c.toNat <<< 8) ||| UInt32.ofNat d.toNat

def readU32Be (bytes : List UInt8) (offset : Nat) : Except Fault UInt32 := do
  let a ← load bytes (offset + 0)
  let b ← load bytes (offset + 1)
  let c ← load bytes (offset + 2)
  let d ← load bytes (offset + 3)
  return join32 a b c d

def writeU32Be (bytes : List UInt8) (offset : Nat) (value : UInt32) :
    Except Fault (List UInt8) := do
  let bytes ← store bytes (offset + 0) ((value >>> 24) &&& 0xff).toUInt8
  let bytes ← store bytes (offset + 1) ((value >>> 16) &&& 0xff).toUInt8
  let bytes ← store bytes (offset + 2) ((value >>> 8) &&& 0xff).toUInt8
  store bytes (offset + 3) (value &&& 0xff).toUInt8

def appendU32Be (bytes : List UInt8) (value : UInt32) : List UInt8 :=
  bytes ++ [((value >>> 24) &&& 0xff).toUInt8,((value >>> 16) &&& 0xff).toUInt8,
    ((value >>> 8) &&& 0xff).toUInt8,(value &&& 0xff).toUInt8]

/-- The loop of `align4` with the rounds left. -/
def pad : Nat → List UInt8 → List UInt8
  | 0, bytes => bytes
  | n+1, bytes => if bytes.length % 4 ≠ 0 then pad n (bytes ++ [0]) else bytes

def align4 (bytes : List UInt8) : List UInt8 := pad 3 bytes

def readTagRecord (profile : List UInt8) (i : Nat) : Except Failure TagRecord := do
  let offset := 132 + i*12
  let record : TagRecord :=
    { signature := ← readU32Be profile offset
      offset := ← readU32Be profile (offset + 4)
      size := ← readU32Be profile (offset + 8) }
  if profile.length < record.offset.toNat + record.size.toNat then
    .error (.runtimeError "invalid ICC tag payload")
  else
    return record

def readTagRecords (profile : List UInt8) : Except Failure (List TagRecord) :=
  if profile.length < 132 then
    .error (.runtimeError "invalid ICC base profile")
  else do
    let magic ← readU32Be profile 36
    if magic ≠ fourcc 'a' 'c' 's' 'p' then
      .error (.runtimeError "invalid ICC base profile")
    else
      let count ← readU32Be profile 128
      if profile.length < 132 + count.toNat*12 then
        .error (.runtimeError "invalid ICC tag table")
      else
        (List.range count.toNat).mapM (readTagRecord profile)

def cicpTag : List UInt8 :=
  appendU32Be (appendU32Be [] (fourcc 'c' 'i' 'c' 'p')) 0 ++ [9] ++ [16] ++ [9] ++ [1]

def a2b0FloatTag : List UInt8 :=
  let bytes := appendU32Be (appendU32Be [] (fourcc 'm' 'A' 'B' 'F')) 0 ++ [3] ++ [3] ++ [0] ++ [0]
  appendU32Be (appendU32Be bytes 16) 0

structure Payload where
  signature : UInt32
  bytes : List UInt8
deriving DecidableEq, Repr

/-- What `std::sort` by signature may return: the order of equal signatures is open. -/
structure StdSort where
  run : List Payload → List Payload
  perm : ∀ payloads, (run payloads).Perm payloads
  sorted : ∀ payloads, (run payloads).Pairwise (fun lhs rhs => lhs.signature ≤ rhs.signature)

/-- The tags that the profile gets anew. -/
def replaced (signature : UInt32) : Bool :=
  signature == fourcc 'c' 'i' 'c' 'p' || signature == fourcc 'A' '2' 'B' '0'

def basePayload (base : List UInt8) (record : TagRecord) : Except Failure Payload := do
  let bytes ← copyN base record.offset.toNat record.size.toNat
  return { signature := record.signature, bytes }

def basePayloads (base : List UInt8) (records : List TagRecord) : Except Failure (List Payload) :=
  (records.filter (fun record => !replaced record.signature)).mapM (basePayload base)

def newPayloads : List Payload :=
  [{ signature := fourcc 'c' 'i' 'c' 'p', bytes := cicpTag },
    { signature := fourcc 'A' '2' 'B' '0', bytes := a2b0FloatTag }]

/-- One round of the loop that lays the payloads out. -/
def place (state : List UInt8 × List TagRecord) (payload : Payload) :
    List UInt8 × List TagRecord :=
  let out := align4 state.1
  let offset := UInt32.ofNat out.length
  (out ++ payload.bytes,
    state.2 ++ [{ signature := payload.signature, offset
                  size := UInt32.ofNat payload.bytes.length }])

def writeRecord (records : List TagRecord) (out : List UInt8) (i : Nat) :
    Except Failure (List UInt8) := do
  let recordOffset := 132 + i*12
  let record ← load records i
  let out ← writeU32Be out recordOffset record.signature
  let out ← writeU32Be out (recordOffset + 4) record.offset
  writeU32Be out (recordOffset + 8) record.size

/-- The header and an empty table for `n` tags. -/
def tableOf (base : List UInt8) (n : Nat) : List UInt8 :=
  let tagTableEnd := 132 + n*12
  let out := appendU32Be (base.take 128) (UInt32.ofNat n)
  out ++ List.replicate (tagTableEnd - out.length) 0

/-- The fields of the header and of the table that are known only after the layout. -/
def backPatch (out : List UInt8) (newRecords : List TagRecord) : Except Failure (List UInt8) := do
  let out ← writeU32Be out 0 (UInt32.ofNat out.length)
  let out ← store out 8 0x04
  let out ← store out 9 0x40
  let out ← store out 10 0x00
  let out ← store out 11 0x00
  (List.range newRecords.length).foldlM (writeRecord newRecords) out

/-- `bt2020_pq` on the profile that `make_base_profile` returned. -/
def bt2020Pq (sort : StdSort) (base : List UInt8) : Except Failure (List UInt8) := do
  let baseRecords ← readTagRecords base
  let payloads ← basePayloads base baseRecords
  let payloads := sort.run (payloads ++ newPayloads)
  let (out,newRecords) := payloads.foldl place (tableOf base payloads.length,[])
  backPatch out newRecords

end Cpipe.Color.IccV44Writer
