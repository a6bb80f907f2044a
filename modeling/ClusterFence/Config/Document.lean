import ClusterFence.Config.Basic
import ClusterFence.Document.Basic

namespace ClusterFence

namespace ConfiguredNode

def fieldNames : List String := ["id", "name"]

def ofDocument? (conv : Document.Convention) (d : Document) : Option ConfiguredNode := do
  let [some id, some name] ← d.fields? conv fieldNames | none
  return { id := ← id.uint32?, name := ← name.text? }

def toDocument (n : ConfiguredNode) : Document :=
  .table (fieldNames.zip [.integer n.id.toNat, .text n.name])

end ConfiguredNode

namespace DomainConfig

def fieldNames : List String := ["name", "nodes", "clean_start"]

def ofDocument? (conv : Document.Convention) (d : Document) : Option DomainConfig := do
  let [name, nodes, cleanStart] ← d.fields? conv fieldNames | none
  let default : DomainConfig := {}
  return {
    name := ← Document.orDefault default.name (·.text?) name
    nodes := ← Document.orDefault default.nodes
      (fun d => d.list?.bind (·.mapM (ConfiguredNode.ofDocument? conv))) nodes
    cleanStart := ← Document.orDefault default.cleanStart (·.boolean?) cleanStart }

def toDocument (c : DomainConfig) : Document :=
  .table (fieldNames.zip
    [.text c.name, .list (c.nodes.map (·.toDocument)), .boolean c.cleanStart])

end DomainConfig

namespace FencingConfig

def fieldNames : List String :=
  ["post_join_delay", "post_fail_delay", "override_path", "override_time", "retry_interval_ms",
    "delay_poll_ms"]

def ofDocument? (conv : Document.Convention) (d : Document) : Option FencingConfig := do
  let [postJoinDelay, postFailDelay, overridePath, overrideTime, retryInterval, delayPoll] ←
    d.fields? conv fieldNames | none
  let default : FencingConfig := {}
  return {
    postJoinDelay := ← Document.orDefault default.postJoinDelay (·.int32?) postJoinDelay
    postFailDelay := ← Document.orDefault default.postFailDelay (·.int32?) postFailDelay
    overridePath := ← Document.orDefault default.overridePath (·.optionalText?) overridePath
    overrideTime := ← Document.orDefault default.overrideTime (·.uint64?) overrideTime
    retryInterval := ← Document.orDefault default.retryInterval (·.uint64?) retryInterval
    delayPoll := ← Document.orDefault default.delayPoll (·.uint64?) delayPoll }

def toDocument (c : FencingConfig) : Document :=
  .table (fieldNames.zip
    [.integer c.postJoinDelay.toInt, .integer c.postFailDelay.toInt,
      (c.overridePath.map .text).getD .null, .integer c.overrideTime.toNat,
      .integer c.retryInterval.toNat, .integer c.delayPoll.toNat])

end FencingConfig

namespace LoggingConfig

def fieldNames : List String := ["level"]

def ofDocument? (conv : Document.Convention) (d : Document) : Option LoggingConfig := do
  let [level] ← d.fields? conv fieldNames | none
  let default : LoggingConfig := {}
  return { level := ← Document.orDefault default.level (·.text?) level }

def toDocument (c : LoggingConfig) : Document := .table (fieldNames.zip [.text c.level])

end LoggingConfig

namespace Config

def fieldNames : List String := ["node", "domain", "fencing", "logging"]

/-- The configuration that a document holds. Only the node has to be there; what else is left out
    has its default, and keys that are not known are passed over. -/
def ofDocument? (conv : Document.Convention) (d : Document) : Option Config := do
  let [some node, domain, fencing, logging] ← d.fields? conv fieldNames | none
  return {
    node := ← ConfiguredNode.ofDocument? conv node
    domain := ← Document.orDefault {} (DomainConfig.ofDocument? conv) domain
    fencing := ← Document.orDefault {} (FencingConfig.ofDocument? conv) fencing
    logging := ← Document.orDefault {} (LoggingConfig.ofDocument? conv) logging }

/-- The configuration with every field in its place. -/
def toDocument (c : Config) : Document :=
  .table (fieldNames.zip
    [c.node.toDocument, c.domain.toDocument, c.fencing.toDocument, c.logging.toDocument])

end Config

end ClusterFence
