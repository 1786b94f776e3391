import FabricConfig.Json.Record
import FabricConfig.Settings.Basic

/-! The JSON form of settings and tensors. -/

namespace FabricConfig

open Json

namespace SpecPair

def toJson (specs : SpecPair) : Json :=
  .object (member? "Input" .string specs.input ++ member? "Output" .string specs.output)

def record : Record SpecPair where
  title := "struct RawPrecision"
  fields :=
    [⟨"Input", false,
      fun d specs => return { specs with input := ← Decoder.optional Decoder.string d }⟩,
     ⟨"Output", false,
      fun d specs => return { specs with output := ← Decoder.optional Decoder.string d }⟩]
  blank := {}

def decoder : Decoder SpecPair :=
  record.decoder .text

end SpecPair

namespace Section

def toJson (accelerator : Section) : Json :=
  .object (member? "Precision" SpecPair.toJson accelerator.precision ++
    member? "Driver" .name accelerator.driver ++
    member? "Interface" .name accelerator.interface)

def record : Record Section where
  title := "struct RawAcceleratorSection"
  fields :=
    [⟨"Precision", false,
      fun d s => return { s with precision := ← Decoder.optional SpecPair.decoder d }⟩,
     ⟨"Driver", false,
      fun d s => return { s with driver := ← Decoder.optional (Decoder.named .text) d }⟩,
     ⟨"Interface", false,
      fun d s => return { s with interface := ← Decoder.optional (Decoder.named .text) d }⟩]
  blank := {}

def decoder : Decoder Section :=
  record.decoder .text

end Section

namespace Settings

/-- Settings with their known members first and the others after them, in byte order. -/
def toJson (settings : Settings) : Json :=
  .object (member? "Board" .string settings.board ++
    member? "XilinxPart" .string settings.part ++
    member? "AcceleratorConfig" Section.toJson settings.accelerator ++
    settings.extra.entries)

def record : Record Settings where
  title := "struct RawConfig"
  fields :=
    [⟨"Board", false,
      fun d s => return { s with board := ← Decoder.optional Decoder.string d }⟩,
     ⟨"XilinxPart", false,
      fun d s => return { s with part := ← Decoder.optional Decoder.string d }⟩,
     ⟨"AcceleratorConfig", false,
      fun d s => return { s with accelerator := ← Decoder.optional Section.decoder d }⟩]
  blank := {}

/-- Keeps a member that is for other tools. -/
def keepOther (key : String) (d : Document) (settings : Settings) :
    Except DecodeError Settings := do
  let value ← d.value (Decoder.maxDepth - 1)
  return { settings with extra := settings.extra.insert key value }

/-- Reads settings, which are always an object. -/
def decoder : Decoder Settings
  | .object members stop => record.readObject keepOther members stop
  | d => d.mismatch (.record record.title)

/-- Reads settings from a JSON text. -/
def ofText (text : String) : Except DecodeError Settings :=
  Decoder.run decoder text

end Settings

namespace Tensor

def toJson (tensor : Tensor) : Json :=
  .object [("name", .string tensor.name),
    ("shape", .array (tensor.shape.map fun size => .nat size.toNat))]

def record : Record Tensor where
  title := "struct TensorDescriptor"
  fields :=
    [⟨"name", true, fun d tensor => return { tensor with name := ← Decoder.string d }⟩,
     ⟨"shape", false,
      fun d tensor => return { tensor with shape := ← Decoder.list Decoder.word64 d }⟩]
  blank := { name := "" }

def decoder : Decoder Tensor :=
  record.decoder .text

end Tensor

end FabricConfig
