import FabricConfig.Command.Outcome
import FabricConfig.Proofs.Command.WriteBack
import FabricConfig.Proofs.Registry

/-! The command on paths against the registry. It fails exactly if the settings cannot be resolved
or the board has no script for the interface. The paths that it lists come from the board, the
driver and the interface alone, so no other part of the settings shows in them. -/

namespace FabricConfig

/-! ### Resolutions for one input and one output -/

/-- A resolution with other tensors. -/
def Resolution.withTensors (r : Resolution) (input output : Tensor) : Resolution :=
  { r with
    config := { r.config with
      input := { r.config.input with tensor := input }
      output := { r.config.output with tensor := output } } }

/-- Tensors are passed on and decide nothing. -/
theorem Resolver.resolve_eq_withTensors (resolver : Resolver) (settings : Settings)
    (input output input' output' : Tensor) :
    resolver.resolve settings [input'] [output'] =
      (resolver.resolve settings [input] [output]).map (·.withTensors input' output') := by
  rw [resolve_eq, resolve_eq]
  cases (resolver.catalog.board (resolver.selectedBoard settings)).mapError
    ConfigError.ofCatalog with
  | error error => rfl
  | ok boardInfo =>
      cases (resolver.selectedSection settings).specs with
      | error error => rfl
      | ok specs =>
          simp only [ok_bind, tensorPair]
          cases resolver.sideType specs.1 with
          | error error => rfl
          | ok inputType =>
              cases resolver.sideType specs.2 with
              | error error => rfl
              | ok outputType => rfl

/-! ### What paths are made of -/

namespace Accelerator

/-- The text that lists the paths of an accelerator, given that of its script. -/
def pathList (a : Accelerator) (script : String) : String :=
  "driver: " ++ a.driverPath ++ "\n" ++ "wrapper: " ++ a.wrapperPath ++ "\n" ++
    "constraints: " ++ a.constraintsPath ++ "\n" ++ "tcl: " ++ script ++ "\n"

theorem scriptPath_eq_ok_iff {a : Accelerator} {path : String} :
    a.scriptPath = .ok path ↔ ∃ script, a.boardInfo.script? a.interface = some script ∧
      path = a.boardDirectory ++ "/tcl_scripts/" ++ script := by
  unfold scriptPath
  cases a.boardInfo.script? a.interface with
  | none => simp
  | some script => simp [eq_comm]

theorem scriptPath_eq_error_iff {a : Accelerator} {error : ConfigError} :
    a.scriptPath = .error error ↔ a.boardInfo.script? a.interface = none ∧
      error = .missingScript a.board a.interface := by
  unfold scriptPath
  cases a.boardInfo.script? a.interface with
  | none => simp [eq_comm]
  | some script => simp

/-- Two accelerators whose templates are the same. -/
structure SameTemplates (a b : Accelerator) : Prop where
  templateRoot_eq : a.templateRoot = b.templateRoot
  board_eq : a.board = b.board
  driver_eq : a.driver = b.driver
  interface_eq : a.interface = b.interface

namespace SameTemplates

variable {a b : Accelerator}

theorem boardDirectory_eq (h : SameTemplates a b) : a.boardDirectory = b.boardDirectory := by
  rw [boardDirectory, boardDirectory, h.templateRoot_eq, h.board_eq]

theorem pathList_eq (h : SameTemplates a b) (script : String) :
    a.pathList script = b.pathList script := by
  unfold pathList driverPath driverFiles wrapperPath constraintsPath
  rw [h.boardDirectory_eq, h.driver_eq, h.interface_eq]

end SameTemplates

end Accelerator

/-- Two settings that ask for the same board, driver and interface. What is not given counts as its
default. -/
structure SameTarget (a b : Settings) : Prop where
  board_eq : a.board.getD "pynq-z2" = b.board.getD "pynq-z2"
  driver_eq : (a.accelerator.bind (·.driver)).getD .python =
    (b.accelerator.bind (·.driver)).getD .python
  interface_eq : (a.accelerator.bind (·.interface)).getD .stream =
    (b.accelerator.bind (·.interface)).getD .stream

namespace Command

/-! ### What a command resolves -/

section

variable {registry : Registry} {board : Option String} {settings : Settings}
  {inputs outputs : List Tensor} {r : Resolution}

theorem selectedBoard_eq (registry : Registry) (board : Option String) (settings : Settings) :
    (resolver registry board).selectedBoard settings =
      board.getD (settings.board.getD "pynq-z2") := by
  cases board with
  | none => rfl
  | some name => rfl

/-- Commands have no section of their own, and the one that is made up asks for the defaults. -/
theorem driver_and_interface_eq (registry : Registry) (board : Option String)
    (settings : Settings) :
    ((resolver registry board).selectedSection settings).driver.getD .python =
        (settings.accelerator.bind (·.driver)).getD .python ∧
      ((resolver registry board).selectedSection settings).interface.getD .stream =
        (settings.accelerator.bind (·.interface)).getD .stream := by
  have hsection : (resolver registry board).selectedSection settings =
      settings.accelerator.getD .fallback := rfl
  rw [hsection]
  cases settings.accelerator with
  | none => exact ⟨rfl, rfl⟩
  | some accelerator => exact ⟨rfl, rfl⟩

/-- An accelerator for the board, the driver and the interface of the settings. -/
structure Targets (registry : Registry) (board : Option String) (settings : Settings)
    (config : Accelerator) : Prop where
  templateRoot_eq : config.templateRoot = Accelerator.defaultTemplateRoot
  board_eq : config.board = (resolver registry board).selectedBoard settings
  entry : registry.get? ((resolver registry board).selectedBoard settings) = some config.boardInfo
  driver_eq : config.driver = (settings.accelerator.bind (·.driver)).getD .python
  interface_eq : config.interface = (settings.accelerator.bind (·.interface)).getD .stream

theorem targets_of_resolve
    (h : (resolver registry board).resolve settings inputs outputs = .ok r) :
    Targets registry board settings r.config := by
  obtain ⟨boardInfo, _, _, _, _, _, _, hboard, -, -, -, -, -, rfl⟩ :=
    (resolver registry board).resolve_eq_ok_iff.mp h
  obtain ⟨hdriver, hinterface⟩ := driver_and_interface_eq registry board settings
  exact ⟨rfl, rfl, Registry.board_eq_ok_iff.mp hboard, hdriver, hinterface⟩

theorem Targets.boardDirectory_eq {config : Accelerator}
    (h : Targets registry board settings config) :
    config.boardDirectory = Accelerator.defaultTemplateRoot ++ "/" ++
      (resolver registry board).selectedBoard settings := by
  rw [Accelerator.boardDirectory, h.templateRoot_eq, h.board_eq]

theorem Targets.sameTemplates {settings' : Settings} {config config' : Accelerator}
    (h : Targets registry board settings config) (h' : Targets registry board settings' config')
    (hsame : SameTarget settings settings') :
    config.SameTemplates config' ∧ config.boardInfo = config'.boardInfo := by
  have hboard : (resolver registry board).selectedBoard settings =
      (resolver registry board).selectedBoard settings' := by
    rw [selectedBoard_eq, selectedBoard_eq, hsame.board_eq]
  have hentry := h.entry
  rw [hboard, h'.entry] at hentry
  refine ⟨⟨?_, ?_, ?_, ?_⟩, (Option.some.inj hentry).symm⟩
  · rw [h.templateRoot_eq, h'.templateRoot_eq]
  · rw [h.board_eq, h'.board_eq, hboard]
  · rw [h.driver_eq, h'.driver_eq, hsame.driver_eq]
  · rw [h.interface_eq, h'.interface_eq, hsame.interface_eq]

end

/-! ### What the command prints -/

/-- A text that lists four paths in a directory, the last one of which leads to a script. -/
def ListsPaths (text directory script : String) : Prop :=
  ∃ driver wrapper constraints tcl : String,
    text = "driver: " ++ driver ++ "\n" ++ "wrapper: " ++ wrapper ++ "\n" ++
      "constraints: " ++ constraints ++ "\n" ++ "tcl: " ++ tcl ++ "\n" ∧
    (∀ path ∈ [driver, wrapper, constraints, tcl], (directory ++ "/").toList <+: path.toList) ∧
    tcl = directory ++ "/tcl_scripts/" ++ script

theorem listsPaths_pathList (a : Accelerator) (script : String) :
    ListsPaths (a.pathList (a.boardDirectory ++ "/tcl_scripts/" ++ script)) a.boardDirectory
      script := by
  refine ⟨a.driverPath, a.wrapperPath, a.constraintsPath, _, rfl, ?_, rfl⟩
  simp [Accelerator.driverPath, Accelerator.wrapperPath, Accelerator.constraintsPath]

theorem completed_line (text : String) : completed (text ++ "\n") = text ++ "\n" := by
  have hends : (text ++ "\n").endsWith "\n" = true :=
    String.Slice.endsWith_string_iff.mpr (by simp)
  rw [completed, if_pos hends]

/-- The last line of the list is complete, so the list is printed as it is. -/
theorem output_pathList (a : Accelerator) (script : String) :
    (Outcome.ofResult (.ok (a.pathList script))).output = a.pathList script :=
  completed_line _

open FileStore (HasRegistry HasSettings)

variable {σ : Type} [FileStore σ] {world : World σ} {boards config : String} {registry : Registry}
  {settings : Settings}

section

variable (hregistry : HasRegistry world.system boards registry)
  (hsettings : HasSettings world.system config settings) (board : Option String)
  (input output : Tensor)
include hregistry hsettings

/-- The command on paths without its surroundings. Its tensors have names of its own, and any others
would do. -/
theorem runIn_paths :
    (runIn (paths boards config board) world).1 = (do
      let r ← ((resolver registry board).resolve settings [input] [output]).mapError
        (unresolved registry)
      let script ← r.config.scriptPath.mapError CommandError.noScript
      return r.config.pathList script) := by
  have hboards := runIn_loadRegistry_eq_ok_iff.mpr ⟨hregistry, rfl⟩
  have hconfig : runIn (loadSettings config)
      (world.logged [.registryLoaded registry.size]) = (.ok settings, _) :=
    runIn_loadSettings_eq_ok_iff.mpr ⟨hsettings, rfl⟩
  have hscript (r : Resolution) :
      (r.withTensors (.named "input") (.named "output")).config.scriptPath = r.config.scriptPath :=
    rfl
  simp only [paths, runIn_bind, hboards, hconfig, runIn_resolveSettings, List.map_cons,
    List.map_nil]
  rw [Resolver.resolve_eq_withTensors _ _ input output]
  cases (resolver registry board).resolve settings [input] [output] with
  | error error => rfl
  | ok r =>
      simp only [Except.map, mapError_ok, ok_bind, hscript]
      cases r.config.scriptPath with
      | error error => rfl
      | ok script => rfl

theorem runIn_paths_eq_ok_iff {text : String} :
    (runIn (paths boards config board) world).1 = .ok text ↔
      ∃ r script, (resolver registry board).resolve settings [input] [output] = .ok r ∧
        r.config.boardInfo.script? r.config.interface = some script ∧
        text = r.config.pathList (r.config.boardDirectory ++ "/tcl_scripts/" ++ script) := by
  simp only [runIn_paths hregistry hsettings board input output, bind_eq_ok_iff, mapError_eq_ok_iff,
    Accelerator.scriptPath_eq_ok_iff, pure_eq_ok, Except.ok.injEq]
  constructor
  · rintro ⟨r, hresolve, path, ⟨script, hscript, rfl⟩, rfl⟩
    exact ⟨r, script, hresolve, hscript, rfl⟩
  · rintro ⟨r, script, hresolve, hscript, rfl⟩
    exact ⟨r, hresolve, _, ⟨script, hscript, rfl⟩, rfl⟩

theorem runIn_paths_eq_error_iff {error : CommandError} :
    (runIn (paths boards config board) world).1 = .error error ↔
      (∃ e, (resolver registry board).resolve settings [input] [output] = .error e ∧
          error = unresolved registry e) ∨
        ∃ r, (resolver registry board).resolve settings [input] [output] = .ok r ∧
          r.config.boardInfo.script? r.config.interface = none ∧
          error = .noScript (.missingScript r.config.board r.config.interface) := by
  simp only [runIn_paths hregistry hsettings board input output, bind_eq_error_iff,
    mapError_eq_ok_iff, mapError_eq_error_iff, Accelerator.scriptPath_eq_error_iff, pure_eq_ok]
  constructor
  · rintro (hunresolved | ⟨r, hresolve, ⟨_, ⟨hnone, rfl⟩, rfl⟩ | ⟨path, -, hreturned⟩⟩)
    · exact .inl hunresolved
    · exact .inr ⟨r, hresolve, hnone, rfl⟩
    · contradiction
  · rintro (hunresolved | ⟨r, hresolve, hnone, rfl⟩)
    · exact .inl hunresolved
    · exact .inr ⟨r, hresolve, .inl ⟨_, ⟨hnone, rfl⟩, rfl⟩⟩

/-- The text depends on the settings through their board, driver and interface alone. -/
theorem text_eq_of_sameTarget {world' : World σ} {boards' config' : String} {settings' : Settings}
    {text text' : String} (hregistry' : HasRegistry world'.system boards' registry)
    (hsettings' : HasSettings world'.system config' settings')
    (hsame : SameTarget settings settings')
    (htext : (runIn (paths boards config board) world).1 = .ok text)
    (htext' : (runIn (paths boards' config' board) world').1 = .ok text') : text' = text := by
  let x := Tensor.named "x"
  obtain ⟨r, script, hresolve, hscript, rfl⟩ :=
    (runIn_paths_eq_ok_iff hregistry hsettings board x x).mp htext
  obtain ⟨r', script', hresolve', hscript', rfl⟩ :=
    (runIn_paths_eq_ok_iff hregistry' hsettings' board x x).mp htext'
  obtain ⟨htemplates, hentry⟩ := (targets_of_resolve hresolve).sameTemplates
    (targets_of_resolve hresolve') hsame
  rw [hentry, htemplates.interface_eq, hscript'] at hscript
  rw [Option.some.inj hscript, htemplates.pathList_eq, htemplates.boardDirectory_eq]

end

/-- The command on paths succeeds exactly if the settings can be resolved for one input and one
output, and the entry of their board in the registry has a script for their interface. If not, it
fails for that reason and prints nothing. The paths that it lists are all in the directory of the
board, the last one is that of the script, and the list is all that is printed. Two settings with the
same board, driver and interface have the same list, whatever else they ask for. -/
theorem paths_agree_with_registry (hregistry : HasRegistry world.system boards registry)
    (hsettings : HasSettings world.system config settings) (board : Option String)
    (input output : Tensor) :
    let name := (resolver registry board).selectedBoard settings
    let resolved := (resolver registry board).resolve settings [input] [output]
    let result := (runIn (paths boards config board) world).1
    ((∃ text, result = .ok text) ↔ ∃ r entry script, resolved = .ok r ∧
        registry.get? name = some entry ∧ entry.script? r.config.interface = some script) ∧
      (∀ error, result = .error error → (Outcome.ofResult result).output = "" ∧
        ((∃ e, resolved = .error e ∧ error = unresolved registry e) ∨
          ∃ r, resolved = .ok r ∧ error = .noScript (.missingScript name r.config.interface))) ∧
      (∀ text, result = .ok text → (Outcome.ofResult result).output = text ∧
        ∃ r entry script, resolved = .ok r ∧
          registry.get? name = some entry ∧ entry.script? r.config.interface = some script ∧
          ListsPaths text (Accelerator.defaultTemplateRoot ++ "/" ++ name) script) ∧
      ∀ (world' : World σ) (boards' config' : String) (settings' : Settings) (text text' : String),
        HasRegistry world'.system boards' registry → HasSettings world'.system config' settings' →
        SameTarget settings settings' → result = .ok text →
        (runIn (paths boards' config' board) world').1 = .ok text' → text' = text := by
  intro name resolved result
  have hok {text : String} : result = .ok text ↔ _ :=
    runIn_paths_eq_ok_iff hregistry hsettings board input output
  refine ⟨⟨?_, ?_⟩, ?_, ?_, ?_⟩
  · rintro ⟨text, htext⟩
    obtain ⟨r, script, hresolve, hscript, -⟩ := hok.mp htext
    exact ⟨r, _, script, hresolve, (targets_of_resolve hresolve).entry, hscript⟩
  · rintro ⟨r, entry, script, hresolve, hentry, hscript⟩
    obtain rfl := Option.some.inj (hentry.symm.trans (targets_of_resolve hresolve).entry)
    exact ⟨_, hok.mpr ⟨r, script, hresolve, hscript, rfl⟩⟩
  · intro error herror
    refine ⟨by rw [herror]; rfl, ?_⟩
    rcases (runIn_paths_eq_error_iff hregistry hsettings board input output).mp herror with
      hunresolved | ⟨r, hresolve, -, hmissing⟩
    · exact .inl hunresolved
    · rw [(targets_of_resolve hresolve).board_eq] at hmissing
      exact .inr ⟨r, hresolve, hmissing⟩
  · intro text htext
    obtain ⟨r, script, hresolve, hscript, rfl⟩ := hok.mp htext
    have htargets := targets_of_resolve hresolve
    refine ⟨?_, r, _, script, hresolve, htargets.entry, hscript, ?_⟩
    · rw [htext, output_pathList]
    · rw [← htargets.boardDirectory_eq]
      exact listsPaths_pathList r.config script
  · intro world' boards' config' settings' text text'
    exact text_eq_of_sameTarget hregistry hsettings board

/-- Settings without a section and settings with other precisions list the same paths. The board has
scripts, but none for the interface of the last ones. -/
theorem paths_agree_with_registry_three_settings :
    let boards : Json := .object [("pynq-z2", .object [("part", .string "xc7z020"),
      ("tcl_scripts", .object [("axi_stream", .string "design.tcl")])])]
    let precision : Json := .object [("Input", .string "double"), ("Output", .string "ap_int<13>")]
    let bare : Json := .object [("XilinxPart", .string "xc7z010")]
    let other : Json := .object [("AcceleratorConfig", .object [("Precision", precision),
      ("Driver", .string "python")]), ("Clock", .string "5ns")]
    let master : Json := .object [("AcceleratorConfig", .object [("Precision", precision),
      ("Interface", .string "axi_master")])]
    let world (value : Json) : World FileSystem := { system := Sample.system boards value }
    (∃ text, (runIn (paths "b.json" "c.json" none) (world bare)).1 = .ok text ∧
      (Outcome.ofResult (runIn (paths "b.json" "c.json" none) (world bare)).1).output = text ∧
      (runIn (paths "b.json" "c.json" none) (world other)).1 = .ok text ∧
      ListsPaths text "../templates/vivado_accelerator/pynq-z2" "design.tcl") ∧
    (runIn (paths "b.json" "c.json" none) (world master)).1 =
      .error (.noScript (.missingScript "pynq-z2" .master)) := by
  intro boards precision bare other master world
  let registry : Registry := Table.ofList
    [("pynq-z2", { part := "xc7z020", scripts := some { stream := some "design.tcl" } })]
  let specs : SpecPair := ⟨some "double", some "ap_int<13>"⟩
  have hregistry (value : Json) : HasRegistry (world value).system "b.json" registry :=
    Sample.hasRegistry (by simp [boards]) rfl
  have hbare : HasSettings (world bare).system "c.json" { part := some "xc7z010" } :=
    Sample.hasSettings (by simp [bare]) rfl
  have hother : HasSettings (world other).system "c.json"
      { accelerator := some { precision := some specs, driver := some .python }
        extra := Table.ofList [("Clock", .string "5ns")] } :=
    Sample.hasSettings (by simp [other, precision]) rfl
  have hmaster : HasSettings (world master).system "c.json"
      { accelerator := some { precision := some specs, interface := some .master } } :=
    Sample.hasSettings (by simp [master, precision]) rfl
  let x := Tensor.named "x"
  have hentry : registry.get? "pynq-z2" =
      some { part := "xc7z020", scripts := some { stream := some "design.tcl" } } := rfl
  refine ⟨?_, ?_⟩
  · obtain ⟨hlists, -, hpaths, hsame⟩ := paths_agree_with_registry (hregistry bare) hbare none x x
    obtain ⟨hlists', -⟩ := paths_agree_with_registry (hregistry other) hother none x x
    obtain ⟨text, htext⟩ := hlists.mpr ⟨_, _, _, rfl, hentry, rfl⟩
    obtain ⟨text', htext'⟩ := hlists'.mpr ⟨_, _, _, rfl, hentry, rfl⟩
    obtain rfl := hsame (world other) "b.json" "c.json" _ text text' (hregistry other) hother
      ⟨rfl, rfl, rfl⟩ htext htext'
    obtain ⟨hprinted, r, entry, script, hresolve, hfound, hscript, hpaths⟩ := hpaths _ htext
    obtain rfl := Option.some.inj (hentry.symm.trans hfound)
    obtain rfl := Except.ok.inj (hresolve.symm.trans rfl)
    obtain rfl := Option.some.inj hscript
    exact ⟨_, htext, hprinted, htext', hpaths⟩
  · obtain ⟨hlists, hfails, -⟩ := paths_agree_with_registry (hregistry master) hmaster none x x
    cases hresult : (runIn (paths "b.json" "c.json" none) (world master)).1 with
    | ok text =>
        obtain ⟨r, entry, script, hresolve, hfound, hscript⟩ := hlists.mp ⟨text, hresult⟩
        obtain rfl := Option.some.inj (hentry.symm.trans hfound)
        obtain rfl := Except.ok.inj (hresolve.symm.trans rfl)
        exact absurd hscript.symm (Option.some_ne_none script)
    | error error =>
        obtain ⟨-, ⟨e, hresolve, -⟩ | ⟨r, hresolve, rfl⟩⟩ := hfails error hresult
        · contradiction
        · obtain rfl := Except.ok.inj (hresolve.symm.trans rfl)
          rfl

end Command

end FabricConfig
