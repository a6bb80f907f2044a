import ClusterFence.Config.Document
import ClusterFence.Document.Toml.Line

namespace ClusterFence.Config

section

-- what the reader of a TOML text says of one that is no configuration
variable (explain : String → String)

/-- The configuration in a TOML text, which has been checked. -/
def ofToml (text : String) : Except Error Config :=
  match (Document.ofToml? text).bind (Config.ofDocument? .toml) with
  | none => .error (.configUnreadable (explain text))
  | some c => c.check

/-- The configuration in a file with this content, or with what the system says of a file that
    cannot be read. -/
def ofFile (content : Except String ByteArray) : Except Error Config :=
  match content with
  | .error text => .error (.fileUnreadable (.stated text))
  | .ok bytes =>
    match String.fromUTF8? bytes with
    | none => .error (.fileUnreadable .notText)
    | some text => ofToml explain text

end

end ClusterFence.Config
