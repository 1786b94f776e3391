import FabricConfig.Proofs.Command.Running
import FabricConfig.Proofs.Settings.Nulls

/-! Settings files that differ in null members. Texts that are read as the same settings can be
exchanged for each other: the command on settings prints the same, logs the same and writes the same
back, or fails for the same reason. -/

namespace FabricConfig

open Json

/-- Two file systems have the same file at a path, for those who may read it and for all others. -/
def FileStore.AgreeAt {σ : Type} [FileStore σ] (path : String) (first second : σ) : Prop :=
  content second path = content first path ∧ read second path = read first path

namespace Command

open FileStore (textAt AgreeAt Overwrites)

variable {σ α β : Type}

/-! ### Runs in two worlds -/

/-- Two runs with the same result and log. If they succeed, the files that they leave are
related. -/
structure Alike (files : α → σ → σ → Prop)
    (first second : Except CommandError α × World σ) : Prop where
  result : second.1 = first.1
  events : second.2.events = first.2.events
  files : ∀ a, first.1 = .ok a → files a first.2.system second.2.system

theorem Alike.bind {between : α → σ → σ → Prop}
    {files : β → σ → σ → Prop} {command : ExceptT CommandError (StateM (World σ)) α}
    {next : α → ExceptT CommandError (StateM (World σ)) β} {world other : World σ}
    (h : Alike between (runIn command world) (runIn command other))
    (hnext : ∀ a (world other : World σ), other.events = world.events →
      between a world.system other.system →
        Alike files (runIn (next a) world) (runIn (next a) other)) :
    Alike files (runIn (command >>= next) world) (runIn (command >>= next) other) := by
  obtain ⟨hresult, hevents, hfiles⟩ := h
  rw [runIn_bind, runIn_bind]
  revert hresult hevents hfiles
  rcases runIn command world with ⟨result, after⟩
  rcases runIn command other with ⟨result', after'⟩
  rintro rfl hevents hfiles
  cases result' with
  | error error => exact ⟨rfl, hevents, by rintro a ⟨⟩⟩
  | ok a => exact hnext a after after' hevents (hfiles a rfl)

section

variable [FileStore σ] {system system' : σ} {world other : World σ}
  (hevents : other.events = world.events) (hsystem : world.system = system)
  (hsystem' : other.system = system')
include hevents hsystem hsystem'

/-- A registry is read from the same text. -/
theorem alike_loadRegistry {path : String} (htext : textAt system' path = textAt system path) :
    Alike (fun _ first second => first = system ∧ second = system')
      (runIn (loadRegistry path) world) (runIn (loadRegistry path) other) := by
  subst hsystem hsystem'
  simp only [loadRegistry, runIn_bind, runIn_lift, run_readText, htext]
  cases textAt world.system path with
  | error fault => exact ⟨rfl, hevents, fun _ _ => ⟨rfl, rfl⟩⟩
  | ok text =>
      dsimp only
      cases Registry.ofText text with
      | error error => exact ⟨rfl, hevents, fun _ _ => ⟨rfl, rfl⟩⟩
      | ok registry =>
          refine ⟨rfl, ?_, fun _ _ => ⟨rfl, rfl⟩⟩
          exact congrArg (· ++ _) hevents

/-- Settings are read from texts that are read alike. -/
theorem alike_loadSettings {path text text' : String} {settings : Settings}
    (htext : textAt system path = .ok text) (htext' : textAt system' path = .ok text')
    (hread : Settings.ofText text = .ok settings) (hread' : Settings.ofText text' = .ok settings) :
    Alike (fun _ first second => first = system ∧ second = system')
      (runIn (loadSettings path) world) (runIn (loadSettings path) other) := by
  subst hsystem hsystem'
  have hfirst := runIn_loadSettings_eq_ok_iff.mpr ⟨⟨text, htext, hread⟩, (rfl : world = world)⟩
  have hsecond := runIn_loadSettings_eq_ok_iff.mpr ⟨⟨text', htext', hread'⟩, (rfl : other = other)⟩
  rw [hfirst, hsecond]
  exact ⟨rfl, hevents, fun _ _ => ⟨rfl, rfl⟩⟩

theorem alike_resolveSettings (registry : Registry) (settings : Settings) (board : Option String)
    (inputs outputs : List String) :
    Alike (fun _ first second => first = system ∧ second = system')
      (runIn (resolveSettings registry settings board inputs outputs) world)
      (runIn (resolveSettings registry settings board inputs outputs) other) := by
  subst hsystem hsystem'
  simp only [resolveSettings, runIn_bind, runIn_forM_log]
  have hlogged (events : List Event) : (other.logged events).events =
      (world.logged events).events := congrArg (· ++ events) hevents
  split
  · exact ⟨rfl, hlogged _, fun _ _ => ⟨rfl, rfl⟩⟩
  · exact ⟨rfl, hlogged _, fun _ _ => ⟨rfl, rfl⟩⟩
  · exact ⟨rfl, hlogged _, fun _ _ => ⟨rfl, rfl⟩⟩

/-- After one file was overwritten, settings are written as before. -/
theorem alike_saveSettings [LawfulFileStore σ] {config text : String}
    (hover : Overwrites config text system system') (path : String) (settings : Settings) :
    Alike (fun _ => AgreeAt path)
      (runIn (saveSettings path settings) world) (runIn (saveSettings path settings) other) := by
  subst hsystem hsystem'
  simp only [saveSettings, runIn_bind, runIn_lift]
  rcases hover.write_alike path settings.toJson.pretty with
    ⟨fault, hfirst, hsecond⟩ | ⟨first, second, hfirst, hsecond, hread⟩
  · rw [run_write_of_error hfirst, run_write_of_error hsecond]
    exact ⟨rfl, hevents, by rintro a ⟨⟩⟩
  · rw [run_write_of_ok hfirst, run_write_of_ok hsecond]
    refine ⟨rfl, hevents, fun _ _ => ⟨?_, hread⟩⟩
    exact (LawfulFileStore.changesOnly_of_write hsecond).written.trans
      (LawfulFileStore.changesOnly_of_write hfirst).written.symm

end

theorem alike_log [FileStore σ] (files : σ → σ → Prop) {world other : World σ}
    (hevents : other.events = world.events) (hfiles : files world.system other.system)
    (event : Event) :
    Alike (fun _ => files) (runIn (log event) world) (runIn (log event) other) :=
  ⟨rfl, congrArg (· ++ [event]) hevents, fun _ _ => hfiles⟩

/-! ### Texts that are read alike -/

/-- Whichever of two texts the settings file holds, the command on settings does the same, as long
as the registry is in another file. -/
def Interchangeable (text text' : String) : Prop :=
  ∀ (σ : Type) [FileStore σ] [LawfulFileStore σ] (world other : World σ) (boards config : String)
    (board : Option String) (inputs outputs : List String) (writeBack : Option String),
    textAt world.system config = .ok text →
    FileStore.write world.system config text' = .ok other.system →
    other.events = world.events → ¬ FileStore.SameFile world.system config boards →
    Alike (fun _ first second => ∀ path ∈ writeBack, AgreeAt path first second)
      (runIn (resolve boards config board inputs outputs writeBack) world)
      (runIn (resolve boards config board inputs outputs writeBack) other)

theorem interchangeable_of_ofText {text text' : String} {settings : Settings}
    (h : Settings.ofText text = .ok settings) (h' : Settings.ofText text' = .ok settings) :
    Interchangeable text text' := by
  intro σ _ _ world other boards config board inputs outputs writeBack htext hwrite hevents hne
  have hreadable := FileStore.readable_of_textAt htext
  have hover := hreadable.overwrites hwrite
  have htext' := FileStore.textAt_eq_ok_iff.mpr (hover.read_path hreadable)
  have hboards := FileStore.textAt_eq_of_read_eq (hover.read_eq boards hne)
  unfold resolve
  refine (alike_loadRegistry hevents rfl rfl hboards).bind
    fun registry world₁ other₁ hevents₁ hfiles₁ => ?_
  refine (alike_loadSettings hevents₁ hfiles₁.1 hfiles₁.2 htext htext' h h').bind
    fun loaded world₂ other₂ hevents₂ hfiles₂ => ?_
  refine (alike_resolveSettings hevents₂ hfiles₂.1 hfiles₂.2 registry loaded board inputs
    outputs).bind fun resolution world₃ other₃ hevents₃ hfiles₃ => ?_
  cases writeBack with
  | none => exact ⟨rfl, hevents₃, by simp⟩
  | some path =>
      refine (alike_saveSettings hevents₃ hfiles₃.1 hfiles₃.2 hover path _).bind
        fun _ world₄ other₄ hevents₄ hfiles₄ => ?_
      refine (alike_log (AgreeAt path) hevents₄ hfiles₄ _).bind
        fun _ world₅ other₅ hevents₅ hfiles₅ => ?_
      exact ⟨rfl, hevents₅, by simpa using hfiles₅⟩

end Command

/-! ### Null members -/

/-- In every text that is accepted as settings, a null member may be put anywhere where an optional
member is missing: the settings are the same, and so is all that the command on settings does. A
section that is null is made up, specs that are null are missing. A null member with any other key
is kept for other tools. -/
theorem null_member_as_absent {text : String} {settings : Settings}
    (h : Settings.ofText text = .ok settings) :
    ∃ d, Written d text.toList ∧
      (∀ path, ∀ key ∈ Settings.optionalKeys path, ∀ d' text',
        Document.Inserts key .null path d d' → Written d' text'.toList →
          Settings.ofText text' = .ok settings ∧ Command.Interchangeable text text') ∧
      (∀ d', Document.Inserts "AcceleratorConfig" .null [] d d' →
        ∀ (resolver : Resolver) boardInfo input output, resolver.accelerator = none →
          resolver.catalog.board (resolver.selectedBoard settings) = .ok boardInfo →
          ∃ resolution, resolver.resolve settings [input] [output] = .ok resolution ∧
            .accelerator .fallback ∈ resolution.corrections) ∧
      (∀ d', Document.Inserts "Precision" .null ["AcceleratorConfig"] d d' →
        ∀ (resolver : Resolver) boardInfo inputs outputs, resolver.accelerator = none →
          resolver.catalog.board (resolver.selectedBoard settings) = .ok boardInfo →
          resolver.resolve settings inputs outputs = .error (.incomplete "Precision")) ∧
      ∀ key ∉ Settings.optionalKeys [], ∀ before after text',
        d = .object (before ++ after) .closed →
        Written (.object (before ++ (some key, .null) :: after) .closed) text'.toList →
        Settings.ofText text' = .ok { settings with
          extra := if some key ∈ after.map Prod.fst then settings.extra
            else settings.extra.insert key .null } := by
  obtain ⟨d, hwritten, hread⟩ :=
    Decoder.exists_written_of_run (fun d => Settings.strict_decoder d settings) h
  refine ⟨d, hwritten, ?_, ?_, ?_, ?_⟩
  · intro path key hkey d' text' hinserts hwritten'
    have h' : Settings.ofText text' = .ok settings := (Decoder.run_of_written hwritten').trans
      (Settings.ignoresNull path key d d' hkey hinserts settings hread)
    exact ⟨h', Command.interchangeable_of_ofText h h'⟩
  · intro d' hinserts resolver boardInfo input output hresolver hboard
    cases hinserts with
    | here hnew =>
        have hnone := Settings.accelerator_eq_none hnew hread
        exact Resolver.exists_resolve_fallback hresolver hnone hboard input output
  · intro d' hinserts resolver boardInfo inputs outputs hresolver hboard
    obtain ⟨accelerator, hsome, hprecision⟩ := Settings.precision_eq_none hinserts hread
    exact Resolver.resolve_precision_missing hresolver hsome hprecision hboard inputs outputs
  · rintro key hkey before after text' rfl hwritten'
    exact (Decoder.run_of_written hwritten').trans (Settings.decoder_insert_null hkey hread)

/-- Specs that are null are missing, a section that is null is made up, and a clock that is null is
kept. -/
theorem null_member_as_absent_levels :
    let bare : Json := .object [("AcceleratorConfig", .object [])]
    let noSpecs : Json := .object [("AcceleratorConfig", .object [("Precision", .null)])]
    let noClock : Json := .object [("Clock", .null), ("AcceleratorConfig", .object [])]
    let noSection : Json := .object [("AcceleratorConfig", .null)]
    let settings : Settings := { accelerator := some {} }
    let registry : Registry := Table.ofList [("pynq-z2", { part := "xc7z020" })]
    let resolver : Resolver := { catalog := registry.catalog }
    let x := Tensor.named "x"
    Settings.ofText noSpecs.compact = .ok settings ∧
      Command.Interchangeable bare.compact noSpecs.compact ∧
      resolver.resolve settings [x] [x] = .error (.incomplete "Precision") ∧
      Settings.ofText noClock.compact =
        .ok { settings with extra := settings.extra.insert "Clock" .null } ∧
      Settings.ofText noSection.compact = .ok {} ∧
      ∃ resolution, resolver.resolve {} [x] [x] = .ok resolution ∧
        .accelerator .fallback ∈ resolution.corrections := by
  intro bare noSpecs noClock noSection settings registry resolver x
  have hbare : Settings.ofText bare.compact = .ok settings :=
    (Decoder.run_compact _ (by simp [bare])).trans rfl
  have hempty : Settings.ofText (Json.object []).compact = .ok {} :=
    (Decoder.run_compact _ (by simp)).trans rfl
  obtain ⟨d, hd, hnull, -, hspecs, hother⟩ := null_member_as_absent hbare
  obtain ⟨e, he, hnull', hsection, -⟩ := null_member_as_absent hempty
  obtain rfl := hd.unique (Integral.written_compact (by simp [bare]))
  obtain rfl := he.unique (Integral.written_compact (by simp))
  have hinner : Document.Inserts "Precision" .null ["AcceleratorConfig"] bare.document
      noSpecs.document :=
    @Document.Inserts.inside _ _ _ _ _ _ [] [] (@Document.Inserts.here _ _ [] [] (by simp))
  have houter : Document.Inserts "AcceleratorConfig" .null [] (Json.object []).document
      noSection.document :=
    @Document.Inserts.here _ _ [] [] (by simp)
  have hboard (settings : Settings) (h : settings.board = none) :
      resolver.catalog.board (resolver.selectedBoard settings) = .ok { part := "xc7z020" } := by
    rw [Resolver.selectedBoard, h]
    rfl
  obtain ⟨hsame, halike⟩ := hnull _ "Precision"
    (by simp [Settings.optionalKeys, Section.optionalKeys]) _ noSpecs.compact hinner
    (Integral.written_compact (by simp [noSpecs]))
  refine ⟨hsame, halike, hspecs _ hinner resolver _ [x] [x] rfl (hboard settings rfl), ?_, ?_,
    hsection _ houter resolver _ x x rfl (hboard {} rfl)⟩
  · have hclock : Written noClock.document noClock.compact.toList :=
      Integral.written_compact (by simp [noClock])
    exact hother "Clock" (by simp [Settings.optionalKeys]) [] _ _ rfl hclock
  · have hwritten : Written noSection.document noSection.compact.toList :=
      Integral.written_compact (by simp [noSection])
    exact (hnull' _ "AcceleratorConfig" (by simp [Settings.optionalKeys]) _ _ houter hwritten).1

end FabricConfig
