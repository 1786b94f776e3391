import FabricConfig.Command.Basic
import FabricConfig.Proofs.Command.FileStore
import FabricConfig.Proofs.Resolution.Stages

/-! Commands that run in a world with any kind of file system. Each step is described by when it
succeeds and by the world that it leaves then. -/

namespace FabricConfig

variable {σ : Type}

/-- A world after some more events. -/
def World.logged (world : World σ) (events : List Event) : World σ :=
  { world with events := world.events ++ events }

@[simp] theorem World.logged_nil (world : World σ) : world.logged [] = world := by
  simp [World.logged]

theorem World.logged_logged (world : World σ) (first next : List Event) :
    (world.logged first).logged next = world.logged (first ++ next) := by
  simp [World.logged]

namespace Command

variable {α β : Type} {world after : World σ}

/-- Runs a command in a world. -/
def runIn (command : ExceptT CommandError (StateM (World σ)) α) (world : World σ) :
    Except CommandError α × World σ :=
  StateT.run (ExceptT.run command) world

@[simp] theorem runIn_pure (a : α) (world : World σ) : runIn (pure a) world = (.ok a, world) :=
  rfl

@[simp] theorem runIn_throw (error : CommandError) (world : World σ) :
    runIn (throw error : ExceptT CommandError (StateM (World σ)) α) world = (.error error, world) :=
  rfl

@[simp] theorem runIn_lift (effect : StateM (World σ) α) (world : World σ) :
    runIn (ExceptT.lift effect) world = (.ok (effect.run world).1, (effect.run world).2) :=
  rfl

theorem runIn_bind (first : ExceptT CommandError (StateM (World σ)) α)
    (next : α → ExceptT CommandError (StateM (World σ)) β) (world : World σ) :
    runIn (first >>= next) world =
      match runIn first world with
      | (.ok a, world) => runIn (next a) world
      | (.error error, world) => (.error error, world) := by
  simp only [runIn, ExceptT.run_bind, StateT.run_bind]
  rcases StateT.run (ExceptT.run first) world with ⟨_ | _, _⟩ <;> rfl

theorem runIn_bind_eq_ok_iff {first : ExceptT CommandError (StateM (World σ)) α}
    {next : α → ExceptT CommandError (StateM (World σ)) β} {b : β} :
    runIn (first >>= next) world = (.ok b, after) ↔
      ∃ a middle, runIn first world = (.ok a, middle) ∧ runIn (next a) middle = (.ok b, after) := by
  rw [runIn_bind]
  rcases runIn first world with ⟨error | a, middle⟩ <;> simp [and_assoc]

open FileStore (textAt)

variable [FileStore σ]

@[simp] theorem runIn_log (event : Event) (world : World σ) :
    runIn (log event) world = (.ok (), world.logged [event]) :=
  rfl

theorem runIn_forM_log (events : List Event) (world : World σ) :
    runIn (events.forM log) world = (.ok (), world.logged events) := by
  induction events generalizing world with
  | nil => simp
  | cons event events ih =>
      have hstep : (event :: events).forM log =
          (log event >>= fun _ => events.forM log :
            ExceptT CommandError (StateM (World σ)) PUnit) := rfl
      rw [hstep, runIn_bind, runIn_log]
      simp only [ih, World.logged_logged, List.singleton_append]

theorem run_readText (path : String) (world : World σ) :
    (readText path : StateM (World σ) (Except FileFault String)).run world =
      (textAt world.system path, world) := by
  have hread : (Surroundings.read path : StateM (World σ) (Except FileFault ByteArray)).run world =
      pure (FileStore.read world.system path, world) := rfl
  simp only [readText, textAt, StateT.run_bind, hread, pure_bind]
  cases FileStore.read world.system path with
  | error fault => rfl
  | ok content =>
      simp only [ok_bind]
      cases String.fromUTF8? content <;> rfl

theorem run_write_of_ok {path text : String} {world : World σ} {system : σ}
    (h : FileStore.write world.system path text = .ok system) :
    (Surroundings.write path text : StateM (World σ) (Except FileFault Unit)).run world =
      (.ok (), { world with system }) := by
  simp only [Surroundings.write, StateT.run, h]

theorem run_write_of_error {path text : String} {world : World σ} {fault : FileFault}
    (h : FileStore.write world.system path text = .error fault) :
    (Surroundings.write path text : StateM (World σ) (Except FileFault Unit)).run world =
      (.error fault, world) := by
  simp only [Surroundings.write, StateT.run, h]

end Command

/-! ### What files hold -/

namespace FileStore

variable [FileStore σ]

/-- A file holds a text that stands for something. -/
def Holds {ε α : Type} (ofText : String → Except ε α) (system : σ) (path : String) (a : α) : Prop :=
  ∃ text, textAt system path = .ok text ∧ ofText text = .ok a

/-- A file holds a registry. -/
def HasRegistry : σ → String → Registry → Prop :=
  Holds Registry.ofText

/-- A file holds settings. -/
def HasSettings : σ → String → Settings → Prop :=
  Holds Settings.ofText

theorem Holds.unique {ε α : Type} {ofText : String → Except ε α} {system : σ} {path : String}
    {first second : α} (h : Holds ofText system path first) (h' : Holds ofText system path second) :
    first = second := by
  obtain ⟨text, htext, hfirst⟩ := h
  obtain ⟨text', htext', hsecond⟩ := h'
  obtain rfl := Except.ok.inj (htext.symm.trans htext')
  exact Except.ok.inj (hfirst.symm.trans hsecond)

theorem Holds.readable {ε α : Type} {ofText : String → Except ε α} {system : σ} {path : String}
    {a : α} (h : Holds ofText system path a) : Readable system path := by
  obtain ⟨text, htext, -⟩ := h
  exact readable_of_textAt htext

end FileStore

/-! ### One step -/

namespace Command

open FileStore (textAt HasRegistry HasSettings)

variable [FileStore σ] {world after : World σ}

theorem runIn_loadRegistry_eq_ok_iff {path : String} {registry : Registry} :
    runIn (loadRegistry path) world = (.ok registry, after) ↔
      HasRegistry world.system path registry ∧
        after = world.logged [.registryLoaded registry.size] := by
  unfold loadRegistry HasRegistry FileStore.Holds
  simp only [runIn_bind, runIn_lift, run_readText]
  cases textAt world.system path with
  | error fault => simp
  | ok text =>
      cases hfound : Registry.ofText text with
      | error error => simp [hfound]
      | ok found =>
          simp only [runIn_bind, runIn_log, runIn_pure, Prod.mk.injEq, Except.ok.injEq,
            exists_eq_left', hfound]
          constructor
          · rintro ⟨rfl, rfl⟩
            exact ⟨rfl, rfl⟩
          · rintro ⟨rfl, rfl⟩
            exact ⟨rfl, rfl⟩

theorem runIn_loadSettings_eq_ok_iff {path : String} {settings : Settings} :
    runIn (loadSettings path) world = (.ok settings, after) ↔
      HasSettings world.system path settings ∧ after = world := by
  unfold loadSettings HasSettings FileStore.Holds
  simp only [runIn_bind, runIn_lift, run_readText]
  cases textAt world.system path with
  | error fault => simp
  | ok text =>
      cases hfound : Settings.ofText text with
      | error error => simp [hfound]
      | ok found => simp [hfound, eq_comm]

theorem runIn_saveSettings_eq_ok_iff {path : String} {settings : Settings} {done : Unit} :
    runIn (saveSettings path settings) world = (.ok done, after) ↔
      ∃ system, FileStore.write world.system path settings.toJson.pretty = .ok system ∧
        after = { world with system } := by
  simp only [saveSettings, runIn_bind, runIn_lift]
  cases hwrite : FileStore.write world.system path settings.toJson.pretty with
  | error fault => simp [run_write_of_error hwrite]
  | ok system => simp [run_write_of_ok hwrite, eq_comm]

/-- The resolver that commands use. -/
def resolver (registry : Registry) (board : Option String) : Resolver where
  catalog := registry.catalog
  board

/-- The failure of a command whose settings cannot be resolved. An unknown board comes with the known
ones. -/
def unresolved (registry : Registry) : ConfigError → CommandError
  | .unknownBoard name => .boardNotKnown registry.keys name
  | error => .notResolved error

theorem runIn_resolveSettings (registry : Registry) (settings : Settings) (board : Option String)
    (inputs outputs : List String) (world : World σ) :
    runIn (resolveSettings registry settings board inputs outputs) world =
      (((resolver registry board).resolve settings (inputs.map Tensor.named)
          (outputs.map Tensor.named)).mapError (unresolved registry),
        world.logged ((resolver registry board).trace settings (inputs.map Tensor.named)
          (outputs.map Tensor.named)).2.events) := by
  have hresolver : ({ catalog := registry.catalog, board } : Resolver) = resolver registry board :=
    rfl
  simp only [resolveSettings, runIn_bind, runIn_forM_log, hresolver, Resolver.resolve]
  rcases (resolver registry board).trace settings (inputs.map Tensor.named)
    (outputs.map Tensor.named) with ⟨error | found, trace⟩
  · cases error <;> rfl
  · rfl

theorem runIn_resolveSettings_eq_ok_iff {registry : Registry} {settings : Settings}
    {board : Option String} {inputs outputs : List String} {resolution : Resolution} :
    runIn (resolveSettings registry settings board inputs outputs) world =
        (.ok resolution, after) ↔
      (resolver registry board).resolve settings (inputs.map Tensor.named)
          (outputs.map Tensor.named) = .ok resolution ∧
        after = world.logged ((resolver registry board).trace settings (inputs.map Tensor.named)
          (outputs.map Tensor.named)).2.events := by
  rw [runIn_resolveSettings, Prod.mk.injEq, mapError_eq_ok_iff, eq_comm (b := after)]

/-! ### All steps -/

/-- What is logged by a resolution that is written back. -/
def resolveEvents (registry : Registry) (settings : Settings) (board : Option String)
    (inputs outputs : List String) (path : String) (resolution : Resolution) : List Event :=
  .registryLoaded registry.size ::
    ((resolver registry board).trace settings (inputs.map Tensor.named)
      (outputs.map Tensor.named)).2.events ++
    [.settingsWritten path resolution.corrections.length]

theorem runIn_resolve_eq_ok_iff {boards config path output : String} {board : Option String}
    {inputs outputs : List String} :
    runIn (resolve boards config board inputs outputs (some path)) world = (.ok output, after) ↔
      ∃ registry settings resolution system,
        HasRegistry world.system boards registry ∧ HasSettings world.system config settings ∧
        (resolver registry board).resolve settings (inputs.map Tensor.named)
          (outputs.map Tensor.named) = .ok resolution ∧
        FileStore.write world.system path (resolution.applyCorrections settings).toJson.pretty =
          .ok system ∧
        output = resolution.toJson.pretty ∧
        after = World.logged { world with system }
          (resolveEvents registry settings board inputs outputs path resolution) := by
  simp only [resolve, runIn_bind_eq_ok_iff, runIn_loadRegistry_eq_ok_iff,
    runIn_loadSettings_eq_ok_iff, runIn_resolveSettings_eq_ok_iff, runIn_saveSettings_eq_ok_iff,
    runIn_log, runIn_pure, Prod.mk.injEq, Except.ok.injEq]
  constructor
  · rintro ⟨registry, _, ⟨hregistry, rfl⟩, settings, _, ⟨hsettings, rfl⟩, resolution, _,
      ⟨hresolve, rfl⟩, _, _, ⟨system, hwrite, rfl⟩, _, _, ⟨-, rfl⟩, rfl, rfl⟩
    refine ⟨registry, settings, resolution, system, hregistry, hsettings, hresolve, hwrite, rfl, ?_⟩
    simp [World.logged, resolveEvents]
  · rintro ⟨registry, settings, resolution, system, hregistry, hsettings, hresolve, hwrite, rfl,
      rfl⟩
    refine ⟨registry, _, ⟨hregistry, rfl⟩, settings, _, ⟨hsettings, rfl⟩, resolution, _,
      ⟨hresolve, rfl⟩, (), _, ⟨system, hwrite, rfl⟩, (), _, ⟨trivial, rfl⟩, rfl, ?_⟩
    simp [World.logged, resolveEvents]

end Command

end FabricConfig
