import Stencil.Document.Config
import Stencil.Toml.Document

/-!
# Settings in a configuration file

The sections of the settings are tables of the file. A file that is empty has the defaults.

* `Config.ofFile?` — the settings of a text;
* `Config.load` — the settings of a file as it is stored.
-/

namespace Stencil

/-- Why there are no settings. -/
inductive ConfigError where
  /-- There is no file, or it holds no text. -/
  | read
  /-- The text does not say settings. -/
  | parse
deriving DecidableEq

namespace Config

/-- The settings of a text. -/
def ofFile? (text : String) : Option Config := do ofJson? .ignored (← Toml.ofText? text).toJson

/-- The settings of a stored file, if there is one. -/
def load : Option ByteArray → Except ConfigError Config
  | none => .error .read
  | some bytes =>
    match String.fromUTF8? bytes with
    | none => .error .read
    | some text =>
      match ofFile? text with
      | none => .error .parse
      | some c => .ok c

end Config

end Stencil
