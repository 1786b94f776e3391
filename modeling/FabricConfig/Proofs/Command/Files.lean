import FabricConfig.Proofs.Command.Precision
import FabricConfig.Proofs.Command.WriteBack
import FabricConfig.Proofs.Resolution.Corrections

/-! What commands do to files. All they do before settings are written back leaves the files alone,
and so does everything that fails. -/

namespace FabricConfig

/-- The settings in one file resolve against the registry in another. -/
def FileStore.Resolves {σ : Type} [FileStore σ] (system : σ) (boards config : String)
    (board : Option String) (inputs outputs : List String) (settings : Settings)
    (resolution : Resolution) : Prop :=
  ∃ registry, HasRegistry system boards registry ∧ HasSettings system config settings ∧
    (Command.resolver registry board).resolve settings (inputs.map Tensor.named)
      (outputs.map Tensor.named) = .ok resolution

theorem FileStore.Resolves.unique {σ : Type} [FileStore σ] {system : σ} {boards config : String}
    {board : Option String} {inputs outputs : List String} {settings settings' : Settings}
    {first second : Resolution}
    (h : Resolves system boards config board inputs outputs settings first)
    (h' : Resolves system boards config board inputs outputs settings' second) :
    settings = settings' ∧ first = second := by
  obtain ⟨registry, hregistry, hsettings, hfirst⟩ := h
  obtain ⟨registry', hregistry', hsettings', hsecond⟩ := h'
  obtain rfl := hregistry.unique hregistry'
  obtain rfl := hsettings.unique hsettings'
  exact ⟨rfl, Except.ok.inj (hfirst.symm.trans hsecond)⟩

namespace Command

open FileStore (ChangesOnly HasRegistry HasSettings Resolves)

variable {σ : Type} {α β : Type} {world after : World σ}

/-! ### Commands that leave the files alone -/

/-- However the command ends, the files are as they were. -/
def KeepsFiles (σ : Type) (command : ExceptT CommandError (StateM (World σ)) α) : Prop :=
  ∀ world, (runIn command world).2.system = world.system

/-- If the command fails, the files are as they were. -/
def FailsCleanly (σ : Type) (command : ExceptT CommandError (StateM (World σ)) α) : Prop :=
  ∀ world error after, runIn command world = (.error error, after) → after.system = world.system

theorem keepsFiles_pure (a : α) : KeepsFiles σ (pure a) :=
  fun _ => rfl

theorem keepsFiles_throw (error : CommandError) :
    KeepsFiles σ (throw error : ExceptT CommandError (StateM (World σ)) α) :=
  fun _ => rfl

theorem KeepsFiles.bind {first : ExceptT CommandError (StateM (World σ)) α}
    {next : α → ExceptT CommandError (StateM (World σ)) β} (hfirst : KeepsFiles σ first)
    (hnext : ∀ a, KeepsFiles σ (next a)) : KeepsFiles σ (first >>= next) := by
  intro world
  have hkept := hfirst world
  rw [runIn_bind]
  revert hkept
  rcases runIn first world with ⟨error | a, middle⟩
  · exact id
  · exact (hnext a middle).trans

theorem KeepsFiles.failsCleanly {command : ExceptT CommandError (StateM (World σ)) α}
    (h : KeepsFiles σ command) : FailsCleanly σ command := by
  intro world error after hrun
  have hkept := h world
  rwa [hrun] at hkept

/-- What comes first has to leave the files alone even if it succeeds. -/
theorem KeepsFiles.bind_failsCleanly {first : ExceptT CommandError (StateM (World σ)) α}
    {next : α → ExceptT CommandError (StateM (World σ)) β} (hfirst : KeepsFiles σ first)
    (hnext : ∀ a, FailsCleanly σ (next a)) : FailsCleanly σ (first >>= next) := by
  intro world error after hrun
  have hkept := hfirst world
  rw [runIn_bind] at hrun
  revert hkept
  rcases hcase : runIn first world with ⟨fault | a, middle⟩ <;> rw [hcase] at hrun
  · obtain ⟨-, rfl⟩ := Prod.mk.inj hrun
    exact id
  · exact (hnext a middle error after hrun).trans

theorem fails_iff {command : ExceptT CommandError (StateM (World σ)) α} :
    Fails command world ↔ ¬ ∃ a after, runIn command world = (.ok a, after) := by
  unfold Fails
  rcases runIn command world with ⟨error | a, after⟩ <;> simp

/-! ### Reading and resolving -/

theorem keepsFiles_precision (spec : String) : KeepsFiles σ (precision spec) := by
  unfold precision
  split
  · exact keepsFiles_throw _
  · exact keepsFiles_pure _

variable [FileStore σ]

theorem keepsFiles_log (event : Event) : KeepsFiles σ (log event) :=
  fun _ => rfl

theorem keepsFiles_forM_log (events : List Event) : KeepsFiles σ (events.forM log) := by
  intro world
  rw [runIn_forM_log]
  rfl

theorem keepsFiles_readText (path : String) : KeepsFiles σ (ExceptT.lift (readText path)) := by
  intro world
  rw [runIn_lift, run_readText]

theorem keepsFiles_loadRegistry (path : String) : KeepsFiles σ (loadRegistry path) := by
  refine (keepsFiles_readText path).bind fun found => ?_
  cases found with
  | error fault => exact keepsFiles_throw _
  | ok text =>
      dsimp only
      cases Registry.ofText text with
      | error error => exact keepsFiles_throw _
      | ok registry => exact (keepsFiles_log _).bind fun _ => keepsFiles_pure registry

theorem keepsFiles_loadSettings (path : String) : KeepsFiles σ (loadSettings path) := by
  refine (keepsFiles_readText path).bind fun found => ?_
  cases found with
  | error fault => exact keepsFiles_throw _
  | ok text =>
      dsimp only
      cases Settings.ofText text with
      | error error => exact keepsFiles_throw _
      | ok settings => exact keepsFiles_pure settings

theorem keepsFiles_resolveSettings (registry : Registry) (settings : Settings)
    (board : Option String) (inputs outputs : List String) :
    KeepsFiles σ (resolveSettings registry settings board inputs outputs) := by
  refine (keepsFiles_forM_log _).bind fun _ => ?_
  split
  · exact keepsFiles_pure _
  · exact keepsFiles_throw _
  · exact keepsFiles_throw _

theorem keepsFiles_paths (boards config : String) (board : Option String) :
    KeepsFiles σ (paths boards config board) := by
  refine (keepsFiles_loadRegistry boards).bind fun registry =>
    (keepsFiles_loadSettings config).bind fun settings =>
      (keepsFiles_resolveSettings registry settings board _ _).bind fun resolution => ?_
  dsimp only
  split
  · exact keepsFiles_throw _
  · exact keepsFiles_pure _

theorem keepsFiles_boards (path : String) : KeepsFiles σ (Command.boards path) :=
  (keepsFiles_loadRegistry path).bind fun _ => keepsFiles_pure _

/-! ### Writing back -/

/-- A write that fails is the end of the command, and after one that succeeds nothing can fail. -/
theorem failsCleanly_saveSettings (path : String) (settings : Settings) (event : Event)
    (output : String) :
    FailsCleanly σ (saveSettings path settings >>= fun _ => log event >>= fun _ => pure output) := by
  intro world error after hrun
  simp only [saveSettings, runIn_bind, runIn_lift] at hrun
  cases hwrite : FileStore.write world.system path settings.toJson.pretty with
  | error fault =>
      simp only [run_write_of_error hwrite, runIn_throw, Prod.mk.injEq] at hrun
      rw [← hrun.2]
  | ok system => simp [run_write_of_ok hwrite] at hrun

theorem failsCleanly_resolve (boards config : String) (board : Option String)
    (inputs outputs : List String) (writeBack : Option String) :
    FailsCleanly σ (resolve boards config board inputs outputs writeBack) := by
  refine (keepsFiles_loadRegistry boards).bind_failsCleanly fun registry =>
    (keepsFiles_loadSettings config).bind_failsCleanly fun settings =>
      (keepsFiles_resolveSettings registry settings board inputs outputs).bind_failsCleanly
        fun resolution => ?_
  cases writeBack with
  | none => exact (keepsFiles_pure _).failsCleanly
  | some path => exact failsCleanly_saveSettings path _ _ _

theorem keepsFiles_resolve_none (boards config : String) (board : Option String)
    (inputs outputs : List String) :
    KeepsFiles σ (resolve boards config board inputs outputs none) :=
  (keepsFiles_loadRegistry boards).bind fun registry =>
    (keepsFiles_loadSettings config).bind fun settings =>
      (keepsFiles_resolveSettings registry settings board inputs outputs).bind fun _ =>
        keepsFiles_pure _

/-! ### When the command on settings succeeds -/

variable {boards config : String} {board : Option String} {inputs outputs : List String}

theorem runIn_resolve_none_eq_ok_iff {output : String} :
    (∃ after, runIn (resolve boards config board inputs outputs none) world = (.ok output, after)) ↔
      ∃ settings resolution,
        Resolves world.system boards config board inputs outputs settings resolution ∧
        output = resolution.toJson.pretty := by
  simp only [resolve, runIn_bind_eq_ok_iff, runIn_loadRegistry_eq_ok_iff,
    runIn_loadSettings_eq_ok_iff, runIn_resolveSettings_eq_ok_iff, runIn_pure, Prod.mk.injEq,
    Except.ok.injEq]
  constructor
  · rintro ⟨after, registry, _, ⟨hregistry, rfl⟩, settings, _, ⟨hsettings, rfl⟩, resolution, _,
      ⟨hresolve, rfl⟩, rfl, -⟩
    exact ⟨settings, resolution, ⟨registry, hregistry, hsettings, hresolve⟩, rfl⟩
  · rintro ⟨settings, resolution, ⟨registry, hregistry, hsettings, hresolve⟩, rfl⟩
    exact ⟨_, registry, _, ⟨hregistry, rfl⟩, settings, _, ⟨hsettings, rfl⟩, resolution, _,
      ⟨hresolve, rfl⟩, rfl, rfl⟩

/-- What is written to a path are the corrected settings. -/
theorem runIn_resolve_some_eq_ok_iff {path output : String} {system : σ} :
    (∃ after, runIn (resolve boards config board inputs outputs (some path)) world =
        (.ok output, after) ∧ after.system = system) ↔
      ∃ settings resolution written,
        Resolves world.system boards config board inputs outputs settings resolution ∧
        CorrectedFrom settings none resolution.config.part written ∧
        FileStore.write world.system path written.toJson.pretty = .ok system ∧
        output = resolution.toJson.pretty := by
  simp only [runIn_resolve_eq_ok_iff]
  constructor
  · rintro ⟨after, ⟨registry, settings, resolution, _, hregistry, hsettings, hresolve, hwrite,
      houtput, rfl⟩, rfl⟩
    exact ⟨settings, resolution, _, ⟨registry, hregistry, hsettings, hresolve⟩,
      Resolver.correctedFrom_applyCorrections hresolve, hwrite, houtput⟩
  · rintro ⟨settings, resolution, written, ⟨registry, hregistry, hsettings, hresolve⟩, hcorrected,
      hwrite, houtput⟩
    obtain rfl := hcorrected.unique (Resolver.correctedFrom_applyCorrections hresolve)
    exact ⟨_, ⟨registry, settings, resolution, system, hregistry, hsettings, hresolve, hwrite,
      houtput, rfl⟩, rfl⟩

theorem fails_resolve_iff (writeBack : Option String) :
    Fails (resolve boards config board inputs outputs writeBack) world ↔
      ¬ ∃ settings resolution,
        Resolves world.system boards config board inputs outputs settings resolution ∧
        ∀ path ∈ writeBack, ∃ written system,
          CorrectedFrom settings none resolution.config.part written ∧
          FileStore.write world.system path written.toJson.pretty = .ok system := by
  rw [fails_iff, not_iff_not]
  cases writeBack with
  | none => simp [runIn_resolve_none_eq_ok_iff]
  | some path =>
      constructor
      · rintro ⟨output, after, hrun⟩
        obtain ⟨settings, resolution, written, hresolves, hcorrected, hwrite, -⟩ :=
          runIn_resolve_some_eq_ok_iff.mp ⟨after, hrun, rfl⟩
        exact ⟨settings, resolution, hresolves, by simpa using ⟨written, hcorrected, _, hwrite⟩⟩
      · rintro ⟨settings, resolution, hresolves, hsaved⟩
        obtain ⟨written, system, hcorrected, hwrite⟩ := hsaved path rfl
        obtain ⟨after, hrun, -⟩ := runIn_resolve_some_eq_ok_iff.mpr
          ⟨settings, resolution, written, hresolves, hcorrected, hwrite, rfl⟩
        exact ⟨_, after, hrun⟩

/-- The command on settings fails exactly if they cannot be read and resolved, or if there is a path
to write them to and they cannot be written there as corrected. If it fails, no file changes. If it
succeeds, none but the file at that path does, by whichever name, and what it then holds is the
settings with all corrections. The other commands change no file, however they end. -/
theorem files_after_commands [LawfulFileStore σ] (world : World σ) (boards config : String)
    (board : Option String) (inputs outputs : List String) :
    (∀ writeBack, Fails (resolve boards config board inputs outputs writeBack) world ↔
        ¬ ∃ settings resolution,
          Resolves world.system boards config board inputs outputs settings resolution ∧
          ∀ path ∈ writeBack, ∃ written system,
            CorrectedFrom settings none resolution.config.part written ∧
            FileStore.write world.system path written.toJson.pretty = .ok system) ∧
      (∀ writeBack error after,
        runIn (resolve boards config board inputs outputs writeBack) world = (.error error, after) →
        after.system = world.system) ∧
      (∀ output after,
        runIn (resolve boards config board inputs outputs none) world = (.ok output, after) →
        after.system = world.system) ∧
      (∀ path output after,
        runIn (resolve boards config board inputs outputs (some path)) world = (.ok output, after) →
        ∃ settings resolution written,
          Resolves world.system boards config board inputs outputs settings resolution ∧
          output = resolution.toJson.pretty ∧
          CorrectedFrom settings none resolution.config.part written ∧
          ChangesOnly path written.toJson.pretty world.system after.system) ∧
      (runIn (paths boards config board) world).2.system = world.system ∧
      (runIn (Command.boards boards) world).2.system = world.system ∧
      ∀ spec, (runIn (precision spec) world).2.system = world.system := by
  refine ⟨fails_resolve_iff, fun writeBack => failsCleanly_resolve _ _ _ _ _ writeBack world, ?_, ?_,
    keepsFiles_paths boards config board world, keepsFiles_boards boards world,
    fun spec => keepsFiles_precision spec world⟩
  · intro output after h
    have hkept := keepsFiles_resolve_none boards config board inputs outputs world
    rwa [h] at hkept
  · intro path output after h
    obtain ⟨settings, resolution, written, hresolves, hcorrected, hwrite, houtput⟩ :=
      runIn_resolve_some_eq_ok_iff.mp ⟨after, h, rfl⟩
    exact ⟨settings, resolution, written, hresolves, houtput, hcorrected,
      LawfulFileStore.changesOnly_of_write hwrite⟩

/-- A board that nobody knows is found out after both files were read, and the settings that were to
be overwritten are still there. If all goes well and the path leads through a link, a file is made in
the directory behind it. -/
theorem files_after_commands_unknown_board :
    let value : Json := .object [("XilinxPart", .string "xc7z010")]
    let corrected : Json := .object
      [("XilinxPart", .string "xc7z020"), ("AcceleratorConfig", Section.fallback.toJson)]
    let world : World FileSystem := { system := Sample.system Sample.boards value }
    (∃ error after,
      runIn (resolve "b.json" "c.json" (some "zcu102") ["x"] ["y"] (some "c.json")) world =
        (.error error, after) ∧ after.system = world.system) ∧
    (∃ output after,
      runIn (resolve "b.json" "c.json" none ["x"] ["y"] none) world = (.ok output, after) ∧
        after.system = world.system) ∧
    ∃ output after,
      runIn (resolve "b.json" "c.json" none ["x"] ["y"] (some "link/new.json")) world =
        (.ok output, after) ∧
      FileStore.content after.system "out/new.json" = some corrected.pretty.toUTF8 ∧
      FileStore.read after.system "c.json" = .ok value.compact.toUTF8 := by
  intro value corrected world
  have hsettings : HasSettings world.system "c.json" { part := some "xc7z010" } :=
    Sample.hasSettings (by simp [value]) rfl
  obtain ⟨own, hown, hpart⟩ : ∃ own, Resolves world.system "b.json" "c.json" none ["x"] ["y"]
      { part := some "xc7z010" } own ∧ own.config.part = "xc7z020" :=
    ⟨_, ⟨Sample.registry, Sample.hasRegistry_boards value, hsettings, rfl⟩, rfl⟩
  have hcorrected : CorrectedFrom { part := some "xc7z010" } none own.config.part
      { part := some "xc7z020", accelerator := some .fallback } := by
    rw [hpart]
    exact ⟨rfl, rfl, rfl, by simp, fun _ _ => rfl, by simp⟩
  have hunknown : ¬ ∃ settings resolution, Resolves world.system "b.json" "c.json" (some "zcu102")
      ["x"] ["y"] settings resolution := by
    rintro ⟨settings, resolution, found, hfound, -, hresolve⟩
    obtain rfl := hfound.unique (Sample.hasRegistry_boards value)
    have herror : (resolver Sample.registry (some "zcu102")).resolve settings [Tensor.named "x"]
        [Tensor.named "y"] = .error (.unknownBoard "zcu102") := rfl
    rw [List.map_singleton, List.map_singleton, herror] at hresolve
    contradiction
  obtain ⟨hfails, hfailed, -⟩ :=
    files_after_commands world "b.json" "c.json" (some "zcu102") ["x"] ["y"]
  obtain ⟨hfailsOwn, -, hread, hwrite, -⟩ :=
    files_after_commands world "b.json" "c.json" none ["x"] ["y"]
  have hsucceeds : ∀ writeBack : Option String,
      (∀ path ∈ writeBack, ∀ text, ∃ after, FileStore.write world.system path text = .ok after) →
      ∃ output after, runIn (resolve "b.json" "c.json" none ["x"] ["y"] writeBack) world =
        (.ok output, after) := by
    intro writeBack hwritable
    by_contra hnone
    refine (hfailsOwn writeBack).mp (fails_iff.mpr hnone) ⟨_, own, hown, fun path hpath => ?_⟩
    obtain ⟨after, hafter⟩ := hwritable path hpath _
    exact ⟨_, after, hcorrected, hafter⟩
  refine ⟨?_, ?_, ?_⟩
  · obtain ⟨error, after, hrun⟩ := (hfails (some "c.json")).mpr
      fun ⟨settings, resolution, hresolves, _⟩ => hunknown ⟨settings, resolution, hresolves⟩
    exact ⟨error, after, hrun, hfailed _ error after hrun⟩
  · obtain ⟨output, after, hrun⟩ := hsucceeds none (by simp)
    exact ⟨output, after, hrun, hread output after hrun⟩
  · obtain ⟨output, after, hrun⟩ :=
      hsucceeds (some "link/new.json") (by rintro _ ⟨⟩ text; exact ⟨_, rfl⟩)
    obtain ⟨settings, resolution, written, hresolves, -, hwritten, hchanges⟩ :=
      hwrite _ output after hrun
    obtain ⟨rfl, rfl⟩ := hresolves.unique hown
    obtain rfl := hwritten.unique hcorrected
    have hsame : FileStore.SameFile world.system "link/new.json" "out/new.json" := ⟨_, rfl, rfl⟩
    have hother : ¬ FileStore.SameFile world.system "link/new.json" "c.json" :=
      FileSystem.not_sameFile rfl rfl (by decide)
    refine ⟨output, after, hrun, ?_, (hchanges.read_iff "c.json" hother _).mpr rfl⟩
    exact (hchanges.same "out/new.json" hsame).1.trans hchanges.written

end Command

end FabricConfig
