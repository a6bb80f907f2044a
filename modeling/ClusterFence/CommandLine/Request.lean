import ClusterFence.CommandLine.Arguments
import ClusterFence.Config.Starter
import ClusterFence.Document.Json

namespace ClusterFence.CommandLine

/-- What there is to do. -/
inductive Command where
  | init (output : String) (node : NodeId) (name : String)
  | validate
  | info
deriving DecidableEq, Repr, Inhabited

/-- What the program is asked for. -/
inductive Request where
  | run (config : String) (command : Command)
  | tell (f : Flag)
deriving DecidableEq, Repr, Inhabited

/-- The file that is meant when no other is named. -/
def defaultFile : String := "fencekeeper.toml"

/-- A number in base ten, with a sign or without. -/
def int? (text : String) : Option Int :=
  let digits? (cs : List Char) : Option Nat :=
    if cs.isEmpty || !cs.all Char.isDigit then none
    else some (cs.foldl (fun n c => 10 * n + (c.toNat - '0'.toNat)) 0)
  match text.toList with
  | '+' :: cs => (digits? cs).map Int.ofNat
  | '-' :: cs => (digits? cs).map fun n => -(n : Int)
  | cs => (digits? cs).map Int.ofNat

/-- A node id in base ten. -/
def nodeId? (text : String) : Option NodeId :=
  (int? text).bind fun n => if 0 ≤ n && n < UInt32.size then some (UInt32.ofNat n.toNat) else none

/-- Options that stand before the command. -/
def programLevel : Level where
  options :=
    [{ name := "config", letter := some 'c', accepts := (!·.isEmpty) },
      { name := "log-level", letter := some 'l' }]
  flags := [.help, .version]

/-- Options of the command that writes a first configuration. -/
def initLevel : Level where
  options :=
    [{ name := "output", letter := some 'o', accepts := (!·.isEmpty) },
      { name := "node-id", accepts := fun text => (nodeId? text).isSome },
      { name := "node-name" }]

/-- A command with the arguments after it. -/
def Request.ofCommand? (config name : String) (args : List String) : Option Request :=
  match name with
  | "init" =>
    match initLevel.read? [] args with
    | some (values, .over) =>
      some (.run config (.init
        ((values.lookup "output").getD defaultFile)
        (((values.lookup "node-id").bind nodeId?).getD 1)
        ((values.lookup "node-name").getD "node1")))
    | some (_, .flag f) => some (.tell f)
    | _ => none
  | "validate" | "info" =>
    match ({} : Level).read? [] args with
    | some (_, .over) => some (.run config (if name == "info" then .info else .validate))
    | some (_, .flag f) => some (.tell f)
    | _ => none
  | "help" =>
    if args.length ≤ 1 && args.all ["init", "validate", "info", "help"].contains then
      some (.tell .help)
    else none
  | _ => none

/-- What the arguments ask for, if they are in order. -/
def Request.ofArguments? (args : List String) : Option Request :=
  match programLevel.read? [] args with
  | some (values, .word name rest) =>
    Request.ofCommand? ((values.lookup "config").getD defaultFile) name rest
  | some (_, .flag f) => some (.tell f)
  | _ => none

/-- What the program does: it prints, writes a file and then prints, fails, or has been misused. -/
inductive Outcome where
  | print (text : String)
  | write (path content text : String)
  | fail (e : Error)
  | misuse
deriving Inhabited

/-- The status that the program ends with, when what it writes can be written. -/
def Outcome.status : Outcome → UInt32
  | .print _ | .write _ _ _ => 0
  | .fail _ => 1
  | .misuse => 2

/-- How the program is used. -/
def usage : String :=
  unlines
    ["Usage: fencekeeper [--config FILE] [--log-level LEVEL] COMMAND",
      "Commands:",
      "  init [--output FILE] [--node-id ID] [--node-name NAME]",
      "  validate",
      "  info"]

def Flag.text : Flag → String
  | .help => usage
  | .version => "fencekeeper 0.3.1\n"

/-- What is said when a first configuration has been written. -/
def createdText (path : String) : String :=
  unlines
    [s!"Configuration file created: {path}",
      "",
      "Add the other cluster nodes to [domain] nodes.",
      s!"Then check it with: fencekeeper --config {path} validate"]

/-- What is said of a configuration that can be used. -/
def validText (c : Config) : String :=
  let delays := (c.fencing.postJoinDelay, c.fencing.postFailDelay)
  let override := c.overridePath?.getD "disabled"
  unlines
    ["✓ Configuration is valid",
      s!"  Node: {c.node.id} ({c.node.name})",
      s!"  Domain: {c.domainGroup.text}",
      s!"  Cluster Nodes: {c.domain.nodes.length}",
      s!"  Delays: post_join {delays.1}s post_fail {delays.2}s",
      s!"  Override: {override}"]

section

-- what is said of a text that is no configuration, and what files hold
variable (explain : String → String) (read : String → Except String ByteArray)

/-- Carries a command out as far as no file has to be written. -/
def Command.outcome (config : String) : Command → Outcome
  | .init output node name =>
    match Config.starter explain node name with
    | .ok content => .write output content (createdText output)
    | .error e => .fail e
  | .validate =>
    match Config.ofFile explain (read config) with
    | .ok c => .print (validText c)
    | .error e => .fail e
  | .info =>
    match Config.ofFile explain (read config) with
    | .ok c => .print (c.toDocument.pretty ++ "\n")
    | .error e => .fail e

/-- What the program does when it is started with these arguments. -/
def outcome (args : List String) : Outcome :=
  match Request.ofArguments? args with
  | some (.run config command) => command.outcome explain read config
  | some (.tell f) => .print f.text
  | none => .misuse

end

end ClusterFence.CommandLine
