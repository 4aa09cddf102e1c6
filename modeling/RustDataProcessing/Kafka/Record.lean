/-
Kafka records and configuration (`src/kafka/record.rs`, `builder.rs`).

What the client library reports of a failed call is a chain of error links, as it is for the other engines.
-/
import Mathlib.Tactic
import RustDataProcessing.Lib.RustStd
import RustDataProcessing.Error

namespace RustDataProcessing.Kafka

open Polars (ErrorLink)

structure KafkaHeader where
  name : String
  value : String
deriving DecidableEq, Repr

structure KafkaStreamRecord where
  topic : String
  partition : Int32
  offset : Int64
  timestampMs : Option Int64
  key : Option String
  value : String
  headers : List KafkaHeader
deriving DecidableEq, Repr

structure KafkaConsumerBuilder where
  brokers : String
  groupId : String
  topic : String
  autoOffsetReset : String
  sessionTimeoutMs : Option UInt32
deriving DecidableEq, Repr

def KafkaConsumerBuilder.new (brokers groupId topic : String) : KafkaConsumerBuilder :=
  ⟨brokers, groupId, topic, "earliest", none⟩

structure KafkaProducerBuilder where
  brokers : String
  topic : String
  messageTimeoutMs : UInt64
  keyColumn : Option String
  valueColumn : Option String
  headers : List (String × String)
deriving DecidableEq, Repr

def KafkaProducerBuilder.new (brokers topic : String) : KafkaProducerBuilder := ⟨brokers, topic, 5000, none, none, []⟩

/-- one check of `validate` -/
def requireText (name text : String) : IngestionResult Unit :=
  if (RustStd.trim text).isEmpty then .error (.schemaMismatch s!"kafka {name} must not be empty") else .ok ()

def KafkaConsumerBuilder.validate (b : KafkaConsumerBuilder) : IngestionResult Unit := do
  requireText "brokers" b.brokers
  requireText "group_id" b.groupId
  requireText "topic" b.topic

def KafkaProducerBuilder.validate (b : KafkaProducerBuilder) : IngestionResult Unit := do
  requireText "brokers" b.brokers
  requireText "topic" b.topic

/-- a failure of the client library -/
def clientError (message : String) (source : List ErrorLink) : Fault := .error (.engine message source)

end RustDataProcessing.Kafka
