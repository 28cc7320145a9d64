import BareMetal.Cluster.Metadata
import BareMetal.Text.Base64

/-!
# Secrets

A Secret holds named bytes, which are written in base 64.
-/

namespace BareMetal.Cluster

open Json

/-- Named bytes. -/
structure Secret where
  metadata : Metadata := {}
  data : Option (Dict (List UInt8)) := none
  immutable : Option Bool := none
  stringData : Option (Dict String) := none
  kind : Option String := none
deriving Inhabited

namespace Secret

/-- The form of bytes. -/
def bytesForm : Form (List UInt8) :=
  ⟨Decoder.text.andThen fun s => match Text.Base64.decode? s.toList with
    | some bytes => .ok bytes
    | none => .error .mismatch, fun bytes => .str (.ofList (Text.Base64.encode bytes))⟩

/-- The form of a Secret. -/
def form : Form Secret := .object <|
  (fun _ _ => Secret.mk)
    <$> .marker "apiVersion" "v1"
    <*> .marker "kind" "Secret"
    <*> .lenientOr "metadata" (·.metadata) {} Metadata.form
    <*> .lenient "data" (·.data) (.dict bytesForm)
    <*> .lenient "immutable" (·.immutable) .flag
    <*> .lenient "stringData" (·.stringData) (.dict .text)
    <*> .lenient "type" (·.kind) .text

end Secret

end BareMetal.Cluster
