import DominionSilver.Spec.Lazer

/-! The wire format of a price payload, from the encoders in the tests of `lazer.rs` and the
constants of its properties. A payload is a header and a number of feeds, a feed an id and a
number of properties, a property a tag and the body the tag calls for. -/

namespace DominionSilver

open Bytes

/-- A presence byte, and a word after it where it is not zero. -/
inductive Presence
  | absent
  | present (flag : UInt8) (set : flag ≠ 0) (v : UInt64)

def Presence.bytes : Presence → List UInt8
  | absent => [0]
  | present flag _ v => flag :: toLEBytes v

/-- `PriceFeedProperty`, in the order of the tags. -/
inductive Property
  | price (v : UInt64)
  | bestBidPrice (v : UInt64)
  | bestAskPrice (v : UInt64)
  | publisherCount (v : UInt16)
  | exponent (v : UInt16)
  | confidence (v : UInt64)
  | fundingRate (v : Presence)
  | fundingTimestamp (v : Presence)
  | fundingRateInterval (v : Presence)
  | marketSession (v : UInt16)
  | emaPrice (v : UInt64)
  | emaConfidence (v : UInt64)
  | feedUpdateTimestamp (v : Presence)

namespace Property

def tag : Property → UInt8
  | price _ => 0
  | bestBidPrice _ => 1
  | bestAskPrice _ => 2
  | publisherCount _ => 3
  | exponent _ => 4
  | confidence _ => 5
  | fundingRate _ => 6
  | fundingTimestamp _ => 7
  | fundingRateInterval _ => 8
  | marketSession _ => 9
  | emaPrice _ => 10
  | emaConfidence _ => 11
  | feedUpdateTimestamp _ => 12

def body : Property → List UInt8
  | price v | bestBidPrice v | bestAskPrice v | confidence v | emaPrice v | emaConfidence v =>
    toLEBytes v
  | publisherCount v | exponent v | marketSession v => toLEBytes v
  | fundingRate v | fundingTimestamp v | fundingRateInterval v | feedUpdateTimestamp v => v.bytes

def bytes (p : Property) : List UInt8 := p.tag :: p.body

end Property

structure Feed where
  id : UInt32
  properties : List Property
  distinct : (properties.map Property.tag).Nodup

def Feed.bytes (f : Feed) : List UInt8 :=
  toLEBytes f.id ++ UInt8.ofNat f.properties.length :: f.properties.flatMap Property.bytes

structure Payload where
  timestampUs : UInt64
  channelId : UInt8
  feeds : List Feed
  counted : feeds.length < 256

def Payload.bytes (m : Payload) : List UInt8 :=
  toLEBytes PAYLOAD_FORMAT_MAGIC ++ toLEBytes m.timestampUs ++
    m.channelId :: UInt8.ofNat m.feeds.length :: m.feeds.flatMap Feed.bytes

/-- The two's complement values of words. -/
def asI64 (v : UInt64) : ℤ := if v.toNat < 2 ^ 63 then v.toNat else v.toNat - 2 ^ 64

def asI16 (v : UInt16) : ℤ := if v.toNat < 2 ^ 15 then v.toNat else v.toNat - 2 ^ 16

/-- The feed carries the five properties a price needs, with the values that `r` holds. -/
structure Feed.Carries (f : Feed) (r : LazerPrice) : Prop where
  price : ∃ v, v ≠ 0 ∧ .price v ∈ f.properties ∧ r.price = asI64 v
  exponent : ∃ v, .exponent v ∈ f.properties ∧ r.exponent = asI16 v
  publisherCount : .publisherCount r.publisherCount ∈ f.properties
  confidence : ∃ v, .confidence v ∈ f.properties ∧
    r.confidence = if v = 0 then none else some (asI64 v)
  feedUpdateTimestamp : ∃ flag set,
    .feedUpdateTimestamp (.present flag set r.feedUpdateTimestampUs) ∈ f.properties

end DominionSilver
