import FabricConfig.Precision.Encoding
import FabricConfig.Resolution.Basic
import FabricConfig.Settings.Encoding

/-! The JSON form of resolutions. -/

namespace FabricConfig

open Json

def Accelerator.toJson (a : Accelerator) : Json :=
  .object
    [("board", .string a.board), ("part", .string a.part), ("board_info", a.boardInfo.toJson),
     ("interface", .name a.interface), ("driver", .name a.driver),
     ("input_type", a.input.precision.toJson), ("output_type", a.output.precision.toJson),
     ("input_bitwidth", .nat a.input.bitwidth.toNat),
     ("output_bitwidth", .nat a.output.bitwidth.toNat),
     ("input_tensor", a.input.tensor.toJson), ("output_tensor", a.output.tensor.toJson),
     ("template_root", .string a.templateRoot)]

def Correction.toJson : Correction → Json
  | .part requested canonical =>
    .object [("type", .string "part_corrected"), ("requested", .string requested),
      ("canonical", .string canonical)]
  | .accelerator fallback =>
    .object [("type", .string "accelerator_section_synthesized"), ("section", fallback.toJson)]

def Resolution.toJson (resolution : Resolution) : Json :=
  .object [("config", resolution.config.toJson),
    ("corrections", .array (resolution.corrections.map Correction.toJson))]

end FabricConfig
