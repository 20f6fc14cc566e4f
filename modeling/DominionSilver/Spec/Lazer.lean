import DominionSilver.Spec.State

/-! The price oracle: the payload parser of `lazer.rs`, the price policy of
`lazer_price.rs` and the return data of the verify call of `lazer_cpi.rs`. -/

namespace DominionSilver

open Checked Bytes

abbrev PAYLOAD_FORMAT_MAGIC : UInt32 := 2479346549
abbrev SOLANA_FORMAT_MAGIC : UInt32 := 2182742457
abbrev MAX_KNOWN_PROP : UInt8 := 12
abbrev MAX_PAYLOAD : ℕ := 4096

inductive LazerError
  | unexpectedEof | badMagic | unknownProperty | wrongChannel | duplicateFeed | duplicateProperty
  | trailingBytes | feedNotFound | missingPrice | missingExponent | missingPublisherCount
  | missingConfidence | missingFeedUpdateTimestamp | payloadTooLarge
deriving DecidableEq

/-- A reader over the bytes not yet taken. -/
abbrev Reader := StateT (List UInt8) (Except LazerError)

namespace Reader

def take (n : ℕ) : Reader (List UInt8) := fun data =>
  if data.length < n then .error .unexpectedEof else .ok (data.take n, data.drop n)

def u8 : Reader UInt8 := do return UInt8.ofNat (ofLE (← take 1))
def u16 : Reader UInt16 := do return UInt16.ofNat (ofLE (← take 2))
def u32 : Reader UInt32 := do return UInt32.ofNat (ofLE (← take 4))
def u64 : Reader UInt64 := do return UInt64.ofNat (ofLE (← take 8))

/-- `as i16`: the word's two's complement value. -/
def i16 : Reader ℤ := do
  let v ← u16
  return if v.toNat < 2 ^ 15 then v.toNat else v.toNat - 2 ^ 16

def i64 : Reader ℤ := do
  let v ← u64
  return if v.toNat < 2 ^ 63 then v.toNat else v.toNat - 2 ^ 64

end Reader

/-- What the target feed has shown so far. -/
structure Target where
  price : Option ℤ
  confidenceSeen : Bool
  confidence : Option ℤ
  exponent : Option ℤ
  publisherCount : Option UInt16
  feedUpdateUs : Option UInt64

def Target.empty : Target := ⟨none, false, none, none, none, none⟩

/-- A presence byte, and a word after it where it is not zero. -/
def readOptional : Reader (Option UInt64) := do
  if (← Reader.u8) ≠ 0 then return some (← Reader.u64) else return none

/-- Read the body of a property; only the target feed's are kept. -/
def consumeProperty (tag : UInt8) (isTarget : Bool) (t : Target) : Reader Target := do
  match tag with
  | 0 => -- price
    let v ← Reader.i64
    return if isTarget then { t with price := some v } else t
  | 5 => -- confidence
    let v ← Reader.i64
    return if isTarget then
      { t with confidenceSeen := true, confidence := if v = 0 then none else some v } else t
  | 1 | 2 | 10 | 11 => -- best bid, best ask, moving average and its confidence
    let _ ← Reader.i64
    return t
  | 3 => -- publisher count
    let v ← Reader.u16
    return if isTarget then { t with publisherCount := some v } else t
  | 4 => -- exponent
    let v ← Reader.i16
    return if isTarget then { t with exponent := some v } else t
  | 9 => -- market session
    let _ ← Reader.i16
    return t
  | 6 | 7 | 8 => -- funding rate, timestamp and interval
    let _ ← readOptional
    return t
  | 12 => -- feed update timestamp
    let v ← readOptional
    return if isTarget then { t with feedUpdateUs := v } else t
  | _ => throw .unknownProperty

/-- The inner loop: `n` more properties, `seen` holding a bit for each known tag met. -/
def readProperties (isTarget : Bool) : ℕ → UInt16 → Target → Reader Target
  | 0, _, t => return t
  | n + 1, seen, t => do
    let tag ← Reader.u8
    if tag ≤ MAX_KNOWN_PROP then
      let bit := (1 : UInt16) <<< tag.toUInt16
      if seen &&& bit ≠ 0 then throw .duplicateProperty
      readProperties isTarget n (seen ||| bit) (← consumeProperty tag isTarget t)
    else
      readProperties isTarget n seen (← consumeProperty tag isTarget t)

/-- The outer loop: `n` more feeds. -/
def readFeeds (targetFeedId : UInt32) : ℕ → Option Target → Reader (Option Target)
  | 0, found => return found
  | n + 1, found => do
    let feedId ← Reader.u32
    let numProperties ← Reader.u8
    let isTarget : Bool := feedId = targetFeedId
    let t ← readProperties isTarget numProperties.toNat 0 Target.empty
    if isTarget then
      if found.isSome then throw .duplicateFeed
      readFeeds targetFeedId n (some t)
    else
      readFeeds targetFeedId n found

structure LazerPrice where
  price : ℤ
  exponent : ℤ
  confidence : Option ℤ
  publisherCount : UInt16
  feedUpdateTimestampUs : UInt64
  channelId : UInt8
  timestampUs : UInt64
deriving DecidableEq

/-- The header and the feeds, up to the end of the payload. -/
def readPayload (targetFeedId : UInt32) (expectedChannel : UInt8) :
    Reader (UInt64 × UInt8 × Option Target) := do
  if (← Reader.u32) ≠ PAYLOAD_FORMAT_MAGIC then throw .badMagic
  let timestampUs ← Reader.u64
  let channelId ← Reader.u8
  if channelId ≠ expectedChannel then throw .wrongChannel
  let numFeeds ← Reader.u8
  let found ← readFeeds targetFeedId numFeeds.toNat none
  if (← get) ≠ [] then throw .trailingBytes
  return (timestampUs, channelId, found)

def extractFeedPrice (payload : List UInt8) (targetFeedId : UInt32) (expectedChannel : UInt8) :
    Except LazerError LazerPrice := do
  guardOr (payload.length ≤ MAX_PAYLOAD) .payloadTooLarge
  let ((timestampUs, channelId, found), _) ← readPayload targetFeedId expectedChannel payload
  let t ← okOr found .feedNotFound
  let rawPrice ← okOr t.price .missingPrice
  guardOr (rawPrice ≠ 0) .missingPrice
  let exponent ← okOr t.exponent .missingExponent
  let publisherCount ← okOr t.publisherCount .missingPublisherCount
  guardOr (t.confidenceSeen = true) .missingConfidence
  let feedUpdateTimestampUs ← okOr t.feedUpdateUs .missingFeedUpdateTimestamp
  return ⟨rawPrice, exponent, t.confidence, publisherCount, feedUpdateTimestampUs, channelId,
    timestampUs⟩

inductive LazerPolicyError
  | nonPositivePrice | confidenceMissing | confidenceNonPositive | confidenceTooWide
  | tooFewPublishers | carriedForward | futureTimestamp | stale | nonMonotonic
  | exponentOutOfRange | overflow | priceOutOfBounds
deriving DecidableEq

structure LazerPolicyParams where
  maxStalenessUs : UInt64
  futureSkewUs : UInt64
  maxConfidenceBps : UInt16
  minPublishers : UInt16
  minPriceScaled : ℕ
  maxPriceScaled : ℕ
  nowUs : UInt64

structure LazerPriceResult where
  normalizedPriceScaled : ℕ
  feedUpdateTimestampUs : UInt64
deriving DecidableEq

/-- `lazer_price::PRICE_SCALE`, the decimals of a normalized price. -/
abbrev PRICE_SCALE : ℤ := 9

def priceFromLazer (p : LazerPrice) (params : LazerPolicyParams) (lastUsedFeedUpdateUs : UInt64) :
    Except LazerPolicyError LazerPriceResult := do
  guardOr (0 < p.price) .nonPositivePrice
  let price := p.price.toNat
  let conf ← okOr p.confidence .confidenceMissing
  guardOr (0 < conf) .confidenceNonPositive
  let lhs ← okOr (checkedU128 (conf.toNat * 10000)) .overflow
  let rhs ← okOr (checkedU128 (price * params.maxConfidenceBps.toNat)) .overflow
  guardOr (lhs ≤ rhs) .confidenceTooWide
  guardOr (max params.minPublishers MIN_PUBLISHERS_FLOOR_HARD ≤ p.publisherCount) .tooFewPublishers
  guardOr (p.feedUpdateTimestampUs = p.timestampUs) .carriedForward
  let fut := p.feedUpdateTimestampUs
  guardOr (fut ≤ saturatingAdd params.nowUs params.futureSkewUs) .futureTimestamp
  guardOr (saturatingSub params.nowUs fut ≤ params.maxStalenessUs) .stale
  guardOr (lastUsedFeedUpdateUs < fut) .nonMonotonic
  let combinedExp := PRICE_SCALE + p.exponent
  guardOr (combinedExp.natAbs ≤ 18) .exponentOutOfRange
  let normalized ←
    if 0 ≤ combinedExp then okOr (checkedU128 (price * 10 ^ combinedExp.toNat)) .overflow
    else .ok (price / 10 ^ combinedExp.natAbs)
  guardOr (params.minPriceScaled ≤ normalized ∧ normalized ≤ params.maxPriceScaled)
    .priceOutOfBounds
  return ⟨normalized, fut⟩

abbrev LAZER_FEE_CEILING : UInt64 := 10000
abbrev STORAGE_TREASURY_OFFSET : ℕ := 40
abbrev STORAGE_FEE_OFFSET : ℕ := 72
abbrev MAX_RETURN_PAYLOAD : ℕ := 2048
abbrev MAX_MESSAGE_DATA : ℕ := 1024

def readFee (storageData : List UInt8) : Result UInt64 := do
  require (STORAGE_FEE_OFFSET + 8 ≤ storageData.length) .lazerStorageMalformed
  let fee := UInt64.ofNat (ofLE ((storageData.drop STORAGE_FEE_OFFSET).take 8))
  require (fee ≤ LAZER_FEE_CEILING) .lazerFeeTooHigh
  return fee

/-- The 32 bytes of the treasury key that the storage account names. -/
def readTreasury (storageData : List UInt8) : Result (List UInt8) := do
  require (STORAGE_TREASURY_OFFSET + 32 ≤ storageData.length) .lazerStorageMalformed
  return (storageData.drop STORAGE_TREASURY_OFFSET).take 32

/-- The payload in the return data, after the signer's key and the payload's length. -/
def parseVerifiedMessage (ret : List UInt8) : Result (List UInt8) := do
  require (36 ≤ ret.length) .lazerReturnDataMalformed
  let len := ofLE ((ret.drop 32).take 4)
  require (len ≤ MAX_RETURN_PAYLOAD) .lazerReturnDataMalformed
  require (ret.length = 36 + len) .lazerReturnDataMalformed
  return ret.drop 36

/-- The payload that a message's signature covers (`unwrap_solana_payload`). -/
def unwrapSolanaPayload : Reader (List UInt8) := do
  if (← Reader.u32) ≠ SOLANA_FORMAT_MAGIC then throw .badMagic
  let _signature ← Reader.take 64
  let _publicKey ← Reader.take 32
  let payloadLen ← Reader.u16
  Reader.take payloadLen.toNat

end DominionSilver
