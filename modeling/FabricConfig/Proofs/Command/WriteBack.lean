import FabricConfig.Proofs.Command.FileSystem
import FabricConfig.Proofs.Command.Running
import FabricConfig.Proofs.Resolution.WriteBack
import FabricConfig.Proofs.Settings.RoundTrip

/-! Settings that a command has written back. Running it again on them changes nothing, unless they
were written over the registry: settings with a section on the accelerator are no registry. All of
this holds in any file system in which files keep what is written to them. -/

namespace FabricConfig

open Json

/-! ### Settings are no registry -/

theorem Board.decoder_section (accelerator : Section) (board : Board) :
    Board.decoder accelerator.toJson.document ≠ .ok board := by
  intro h
  have hpart : some "part" ∈ (memberDocuments _).map Prod.fst :=
    Record.mem_keys_of_readObject h (List.mem_cons_self) rfl
  obtain ⟨precision, driver, interface⟩ := accelerator
  cases precision <;> cases driver <;> cases interface <;>
    simp [member?, memberDocuments] at hpart

theorem Registry.ofText_settings {settings : Settings} {accelerator : Section}
    (haccelerator : settings.accelerator = some accelerator) (hintegral : settings.toJson.Integral)
    (registry : Registry) : Registry.ofText settings.toJson.pretty ≠ .ok registry := by
  intro h
  have htable : Decoder.table Board.decoder settings.toJson.document = .ok registry := by
    rw [← Decoder.run_pretty (Decoder.table Board.decoder) hintegral]
    exact mapError_eq_ok_iff.mp h
  obtain ⟨table, hmembers, -⟩ := bind_eq_ok_iff.mp htable
  have hmember : (some "AcceleratorConfig", accelerator.toJson.document) ∈
      memberDocuments (member? "Board" .string settings.board ++
        member? "XilinxPart" .string settings.part ++
        member? "AcceleratorConfig" Section.toJson settings.accelerator ++
        settings.extra.entries) := by
    simp [memberDocuments_eq_map, haccelerator, member?]
  obtain ⟨board, hboard⟩ := Decoder.exists_of_tableMembers hmembers _ hmember
  exact Board.decoder_section accelerator board hboard

/-! ### Files with printed values -/

namespace FileStore

variable {σ : Type} [FileStore σ] {system : σ} {path : String} {value : Json}

theorem hasRegistry_compact (hread : read system path = .ok value.compact.toUTF8)
    (hintegral : value.Integral) {registry : Registry}
    (hdecode : Decoder.table Board.decoder value.document = .ok registry) :
    HasRegistry system path registry := by
  refine ⟨value.compact, textAt_eq_ok_iff.mpr hread, mapError_eq_ok_iff.mpr ?_⟩
  rw [Decoder.run_compact _ hintegral, hdecode]

theorem hasSettings_compact (hread : read system path = .ok value.compact.toUTF8)
    (hintegral : value.Integral) {settings : Settings}
    (hdecode : Settings.decoder value.document = .ok settings) :
    HasSettings system path settings := by
  refine ⟨value.compact, textAt_eq_ok_iff.mpr hread, ?_⟩
  rw [Settings.ofText, Decoder.run_compact _ hintegral, hdecode]

theorem integersOnly_compact (hread : read system path = .ok value.compact.toUTF8)
    (hintegral : value.Integral) (hlexemes : IntegersOnly value.lexemes) {text : String}
    (htext : textAt system path = .ok text) : IntegersOnly (tokens text.toList) := by
  rw [textAt_eq_ok_iff.mpr hread] at htext
  rw [← Except.ok.inj htext, compact, String.toList_ofList,
    tokens_letters Style.blank_compact hintegral]
  exact hlexemes

end FileStore

/-! ### A file system for examples -/

namespace Sample

/-- A registry, some settings under two names, and a directory with a link that leads to it. -/
def system (boards value : Json) : FileSystem where
  nodes :=
    [.directory
      { entries := Table.ofList
          [("b.json", 1), ("c.json", 2), ("link", 4), ("out", 3), ("same.json", 2)]
        parent := 0 },
     .file { content := boards.compact.toUTF8 },
     .file { content := value.compact.toUTF8 },
     .directory { entries := .empty, parent := 0 },
     .link "./out/"]
  working := 0
  working_lt := Nat.succ_pos _
  closed := by
    have hentries : (Table.ofList
        [("b.json", 1), ("c.json", 2), ("link", 4), ("out", 3), ("same.json", 2)]).entries =
          [("b.json", 1), ("c.json", 2), ("link", 4), ("out", 3), ("same.json", 2)] := rfl
    simp [Node.references, hentries, Table.empty]

section

variable {boards value : Json}

theorem hasRegistry (hintegral : boards.Integral) {registry : Registry}
    (hdecode : Decoder.table Board.decoder boards.document = .ok registry) :
    FileStore.HasRegistry (system boards value) "b.json" registry :=
  FileStore.hasRegistry_compact rfl hintegral hdecode

theorem hasSettings (hintegral : value.Integral) {settings : Settings}
    (hdecode : Settings.decoder value.document = .ok settings) :
    FileStore.HasSettings (system boards value) "c.json" settings :=
  FileStore.hasSettings_compact rfl hintegral hdecode

theorem integersOnly (hintegral : value.Integral) (hlexemes : IntegersOnly value.lexemes)
    (text : String) : FileStore.textAt (system boards value) "c.json" = .ok text →
      IntegersOnly (tokens text.toList) :=
  FileStore.integersOnly_compact rfl hintegral hlexemes

end

/-- A registry with one board. -/
def registry : Registry :=
  Table.ofList [("pynq-z2", { part := "xc7z020" })]

def boards : Json :=
  .object [("pynq-z2", .object [("part", .string "xc7z020")])]

theorem hasRegistry_boards (value : Json) :
    FileStore.HasRegistry (system boards value) "b.json" registry :=
  hasRegistry (by simp [boards]) rfl

/-- Settings that resolve are written to any path that leads to a file or to a place for one. -/
theorem exists_runIn_resolve {value : Json} {settings : Settings} {board : Option String}
    {inputs outputs : List String} {path : String} {resolution : Resolution}
    (hsettings : FileStore.HasSettings (system boards value) "c.json" settings)
    (hresolve : (Command.resolver registry board).resolve settings (inputs.map Tensor.named)
      (outputs.map Tensor.named) = .ok resolution)
    (hwrite : ∀ text, ∃ after, FileStore.write (system boards value) path text = .ok after) :
    ∃ output after, Command.runIn
      (Command.resolve "b.json" "c.json" board inputs outputs (some path))
      { system := system boards value } = (.ok output, after) := by
  obtain ⟨after, hafter⟩ := hwrite (resolution.applyCorrections settings).toJson.pretty
  exact ⟨_, _, Command.runIn_resolve_eq_ok_iff.mpr ⟨registry, settings, resolution, after,
    hasRegistry_boards value, hsettings, hresolve, hafter, rfl, rfl⟩⟩

end Sample

/-! ### Running again -/

namespace Command

open FileStore (textAt Readable SameFile HasRegistry HasSettings)

variable {σ : Type} [FileStore σ] {world after : World σ} {boards config path output : String}
  {board : Option String} {inputs outputs : List String}

/-- The corrected settings have a section, as the resolver has none of its own. -/
theorem exists_accelerator_corrected (registry : Registry) (board : Option String)
    (settings : Settings) (canonical : String) :
    ∃ accelerator, ((resolver registry board).corrected settings canonical).accelerator =
      some accelerator := by
  unfold Resolver.corrected resolver
  cases settings.accelerator with
  | none => exact ⟨.fallback, rfl⟩
  | some accelerator => exact ⟨accelerator, rfl⟩

/-- What a run writes: settings that are read back from their text and that resolve without
corrections. -/
theorem exists_written
    (hintegers : ∀ text, textAt world.system config = .ok text → IntegersOnly (tokens text.toList))
    (h : runIn (resolve boards config board inputs outputs (some path)) world =
      (.ok output, after)) :
    ∃ (registry : Registry) (resolution : Resolution) (written : Settings),
      output = resolution.toJson.pretty ∧ HasRegistry world.system boards registry ∧
      (resolver registry board).resolve written (inputs.map Tensor.named)
        (outputs.map Tensor.named) = .ok { resolution with corrections := [] } ∧
      FileStore.write world.system path written.toJson.pretty = .ok after.system ∧
      Settings.ofText written.toJson.pretty = .ok written ∧
      written.toJson.Integral ∧ ∃ accelerator, written.accelerator = some accelerator := by
  obtain ⟨registry, settings, resolution, system, hregistry, ⟨text, htext, hsettings⟩, hresolve,
    hwrite, rfl, rfl⟩ := runIn_resolve_eq_ok_iff.mp h
  obtain ⟨hcorrected, hagain⟩ := Resolver.resolve_corrected hresolve
  rw [← hcorrected] at hagain
  have hextra := Settings.extra_applyCorrections resolution settings
  have hsound := (Settings.sound_of_ofText hsettings).of_extra_eq hextra
  have hintegral : ∀ entry ∈ (resolution.applyCorrections settings).extra.entries,
      entry.2.Integral :=
    hextra ▸ Settings.integral_extra_of_ofText (hintegers text htext) hsettings
  refine ⟨registry, resolution, resolution.applyCorrections settings, rfl, hregistry, hagain, hwrite,
    Settings.ofText_letters hsound hintegral Style.blank_pretty, Settings.integral_toJson hintegral,
    ?_⟩
  rw [hcorrected]
  exact exists_accelerator_corrected registry board settings resolution.config.part

variable [LawfulFileStore σ]

/-- Settings that were written over the registry cannot be resolved, whichever name of the registry
they were written to. -/
theorem resolve_ne_ok_of_sameFile
    (hintegers : ∀ text, textAt world.system config = .ok text → IntegersOnly (tokens text.toList))
    (h : runIn (resolve boards config board inputs outputs (some path)) world =
      (.ok output, after)) (hsame : SameFile world.system path boards) (result : String)
    (again : World σ) :
    runIn (resolve boards path board inputs outputs (some path)) after ≠ (.ok result, again) := by
  obtain ⟨-, -, written, -, -, -, hwrite, -, hintegral, accelerator, haccelerator⟩ :=
    exists_written hintegers h
  have hchanges := LawfulFileStore.changesOnly_of_write hwrite
  intro hrun
  obtain ⟨registry, -, -, -, ⟨text, htext, hregistry⟩, -⟩ := runIn_resolve_eq_ok_iff.mp hrun
  have hcontent : FileStore.content after.system boards = some written.toJson.pretty.toUTF8 :=
    (hchanges.same boards hsame).1.trans hchanges.written
  have hwritten : textAt after.system boards = .ok written.toJson.pretty :=
    FileStore.textAt_of_content hcontent (FileStore.readable_of_textAt htext)
  obtain rfl := Except.ok.inj (htext.symm.trans hwritten)
  exact Registry.ofText_settings haccelerator hintegral registry hregistry

/-- Settings that were written elsewhere can be resolved as soon as they can be read. -/
theorem runIn_resolve_written
    (hintegers : ∀ text, textAt world.system config = .ok text → IntegersOnly (tokens text.toList))
    (h : runIn (resolve boards config board inputs outputs (some path)) world =
      (.ok output, after)) :
    ∃ resolution : Resolution, output = resolution.toJson.pretty ∧
      (Readable after.system path → ¬ SameFile world.system path boards →
        ∃ again, runIn (resolve boards path board inputs outputs (some path)) after =
          (.ok { resolution with corrections := [] }.toJson.pretty, again) ∧
          again.system = after.system) := by
  obtain ⟨registry, resolution, written, houtput, ⟨text, htext, hregistry⟩, hagain, hwrite, hread,
    -⟩ := exists_written hintegers h
  have hchanges := LawfulFileStore.changesOnly_of_write hwrite
  refine ⟨resolution, houtput, fun hreadable hother => ?_⟩
  have hkept := (hchanges.textAt_eq_ok_iff hother).mpr htext
  have hwritten := FileStore.textAt_of_content hchanges.written hreadable
  exact ⟨_, runIn_resolve_eq_ok_iff.mpr ⟨registry, written, { resolution with corrections := [] },
    after.system, ⟨text, hkept, hregistry⟩, ⟨_, hwritten, hread⟩, hagain,
    LawfulFileStore.write_of_write hwrite, rfl, rfl⟩, rfl⟩

/-- If settings with no other numbers than 64-bit integers are resolved and written back, the same
can be done with the settings that were written just if these can be read and did not replace the
registry, by any of its names. It gives the same configuration, there is nothing left to correct,
and no file changes. The settings can be read if they were before. -/
theorem resolve_written_iff
    (hintegers : ∀ text, textAt world.system config = .ok text → IntegersOnly (tokens text.toList))
    (h : runIn (resolve boards config board inputs outputs (some path)) world =
      (.ok output, after)) :
    ∃ resolution : Resolution, output = resolution.toJson.pretty ∧
      ((∃ result again, runIn (resolve boards path board inputs outputs (some path)) after =
          (.ok result, again)) ↔
        Readable after.system path ∧ ¬ SameFile world.system path boards) ∧
      (∀ result again, runIn (resolve boards path board inputs outputs (some path)) after =
          (.ok result, again) →
        result = { resolution with corrections := [] }.toJson.pretty ∧
          again.system = after.system) ∧
      (path = config ∨ Readable world.system path → Readable after.system path) := by
  obtain ⟨resolution, houtput, hresolves⟩ := runIn_resolve_written hintegers h
  have hneeded : ∀ result again, runIn (resolve boards path board inputs outputs (some path)) after =
      (.ok result, again) → Readable after.system path ∧ ¬ SameFile world.system path boards := by
    intro result again hrun
    obtain ⟨_, _, _, _, -, hsettings, -⟩ := runIn_resolve_eq_ok_iff.mp hrun
    exact ⟨hsettings.readable,
      fun hsame => resolve_ne_ok_of_sameFile hintegers h hsame result again hrun⟩
  refine ⟨resolution, houtput, ⟨?_, ?_⟩, ?_, ?_⟩
  · rintro ⟨result, again, hrun⟩
    exact hneeded result again hrun
  · rintro ⟨hreadable, hother⟩
    obtain ⟨again, hrun, -⟩ := hresolves hreadable hother
    exact ⟨_, again, hrun⟩
  · intro result again hrun
    obtain ⟨hreadable, hother⟩ := hneeded result again hrun
    obtain ⟨again', hrun', hkept⟩ := hresolves hreadable hother
    rw [hrun', Prod.mk.injEq, Except.ok.injEq] at hrun
    obtain ⟨rfl, rfl⟩ := hrun
    exact ⟨rfl, hkept⟩
  · intro hbefore
    obtain ⟨-, settings, resolution, system, -, hsettings, -, hwrite, -, rfl⟩ :=
      runIn_resolve_eq_ok_iff.mp h
    have hreadable : Readable world.system path := by
      rcases hbefore with rfl | hreadable
      · exact hsettings.readable
      · exact hreadable
    exact ⟨_, (hreadable.overwrites hwrite).read_path hreadable⟩

theorem resolve_written_iff_in_place :
    let value : Json := .object [("XilinxPart", .string "xc7z010"),
      ("limits", .array [.number (.int (-9223372036854775808)),
        .number (.int 18446744073709551615)])]
    let world : World FileSystem := { system := Sample.system Sample.boards value }
    ∃ output after, runIn (resolve "b.json" "c.json" none ["x"] ["x"] (some "c.json")) world =
        (.ok output, after) ∧
      ∃ resolution : Resolution, output = resolution.toJson.pretty ∧
        ∃ again, runIn (resolve "b.json" "c.json" none ["x"] ["x"] (some "c.json")) after =
            (.ok { resolution with corrections := [] }.toJson.pretty, again) ∧
          again.system = after.system := by
  intro value world
  have hvalue : value.Integral := by simp [value]
  let settings : Settings :=
    { part := some "xc7z010"
      extra := Table.ofList [("limits", .array [.number (.int (-9223372036854775808)),
        .number (.int 18446744073709551615)])] }
  have hsettings : HasSettings world.system "c.json" settings := Sample.hasSettings hvalue rfl
  obtain ⟨output, after, hrun⟩ : ∃ output after, runIn
      (resolve "b.json" "c.json" none ["x"] ["x"] (some "c.json")) world = (.ok output, after) :=
    Sample.exists_runIn_resolve hsettings rfl fun text => ⟨_, rfl⟩
  have hintegers : ∀ text, textAt world.system "c.json" = .ok text →
      IntegersOnly (tokens text.toList) :=
    Sample.integersOnly hvalue (by simp [value, lexemes, moreMemberLexemes, moreItemLexemes])
  obtain ⟨resolution, houtput, hsucceeds, hstable, hreadable⟩ := resolve_written_iff hintegers hrun
  have hother : ¬ SameFile world.system "c.json" "b.json" :=
    FileSystem.not_sameFile rfl rfl (by decide)
  obtain ⟨result, again, hagain⟩ := hsucceeds.mpr ⟨hreadable (.inl rfl), hother⟩
  obtain ⟨rfl, hkept⟩ := hstable result again hagain
  exact ⟨output, after, hrun, resolution, houtput, again, hagain, hkept⟩

/-- The registry is lost if the settings are written to it by another of its names. -/
theorem resolve_fails_after_alias :
    let world : World FileSystem := { system := Sample.system Sample.boards (.object []) }
    "./b.json" ≠ "b.json" ∧
      (∀ text, textAt world.system "c.json" = .ok text → IntegersOnly (tokens text.toList)) ∧
      ∃ output after,
        runIn (resolve "b.json" "c.json" none ["x"] ["x"] (some "./b.json")) world =
          (.ok output, after) ∧
        ∀ text again,
          runIn (resolve "b.json" "./b.json" none ["x"] ["x"] (some "./b.json")) after ≠
            (.ok text, again) := by
  intro world
  have hempty : (Json.object []).Integral := by simp
  have hsettings : HasSettings world.system "c.json" {} := Sample.hasSettings hempty rfl
  obtain ⟨output, after, hrun⟩ : ∃ output after, runIn
      (resolve "b.json" "c.json" none ["x"] ["x"] (some "./b.json")) world = (.ok output, after) :=
    Sample.exists_runIn_resolve hsettings rfl fun text => ⟨_, rfl⟩
  have hintegers : ∀ text, textAt world.system "c.json" = .ok text →
      IntegersOnly (tokens text.toList) :=
    Sample.integersOnly hempty (by simp [lexemes])
  have hsame : SameFile world.system "./b.json" "b.json" := ⟨_, rfl, rfl⟩
  exact ⟨by decide, hintegers, output, after, hrun, resolve_ne_ok_of_sameFile hintegers hrun hsame⟩

end Command

end FabricConfig
