import FabricConfig.Proofs.Command.WriteBack
import FabricConfig.Proofs.Settings.Source

/-! What a command leaves alone when it writes settings back. -/

namespace FabricConfig.Command

open Json

open FileStore (textAt HasRegistry)

variable {σ : Type} [FileStore σ] [LawfulFileStore σ] {world after : World σ}
  {boards config path output text : String} {board : Option String} {inputs outputs : List String}

/-- If settings with no other numbers than 64-bit integers are resolved and written back, members
for other tools keep their values and the board stays the one that was given, whatever board the
command was told to use. A part that was given becomes the resolved one, and the section is the one
that was read or the fallback. -/
theorem resolve_writtenBack (htext : textAt world.system config = .ok text)
    (hintegers : IntegersOnly (tokens text.toList))
    (h : runIn (resolve boards config board inputs outputs (some path)) world =
      (.ok output, after)) :
    ∃ (registry : Registry) (settings : Settings) (resolution : Resolution)
      (source : List (Option String × Document)) (members : List (String × Json)),
      HasRegistry world.system boards registry ∧ Settings.ofText text = .ok settings ∧
      (resolver registry board).resolve settings (inputs.map Tensor.named)
        (outputs.map Tensor.named) = .ok resolution ∧
      output = resolution.toJson.pretty ∧
      Document.ofText text = .object source .closed ∧
      FileStore.content after.system path = some (Json.object members).pretty.toUTF8 ∧
      Document.ofText (Json.object members).pretty = .object (memberDocuments members) .closed ∧
      Settings.WrittenBack source resolution.config.part members := by
  obtain ⟨registry, settings, resolution, system, hregistry, ⟨found, hfound, hsettings⟩, hresolve,
    hwrite, rfl, rfl⟩ := runIn_resolve_eq_ok_iff.mp h
  rw [htext] at hfound
  obtain rfl := Except.ok.inj hfound
  obtain ⟨source, stop, hsource, hdecode⟩ := Settings.exists_of_ofText hsettings
  obtain rfl := Record.eq_closed_of_readObject hdecode
  have hcorrected := (Resolver.resolve_corrected hresolve).1
  have hintegral : (resolution.applyCorrections settings).toJson.Integral := by
    refine Settings.integral_toJson ?_
    rw [Settings.extra_applyCorrections]
    exact Settings.integral_extra_of_ofText hintegers hsettings
  refine ⟨registry, settings, resolution, source, _, hregistry, hsettings, hresolve, rfl, hsource,
    (LawfulFileStore.changesOnly_of_write hwrite).written,
    Document.ofText_letters Style.blank_pretty hintegral, ?_⟩
  have hnone : (resolver registry board).accelerator = none := rfl
  have hwritten := Settings.writtenBack_corrected hdecode (Settings.sound_of_ofText hsettings) hnone
    resolution.config.part
  rwa [← hcorrected] at hwritten

theorem resolve_writtenBack_repeated_keys :
    let value : Json := .object
      [("z", .nat 1), ("Board", .null), ("XilinxPart", .string "xc7z010"),
       ("HLSConfig", .object [("Reuse", .nat 1), ("Reuse", .nat 2)]), ("z", .null)]
    let world : World FileSystem := { system := Sample.system Sample.boards value }
    ∃ output after members,
      runIn (resolve "b.json" "c.json" (some "pynq-z2") ["x"] ["x"] (some "c.json")) world =
        (.ok output, after) ∧
      FileStore.content after.system "c.json" = some (Json.object members).pretty.toUTF8 ∧
      members.lookup "z" = some .null ∧
      members.lookup "HLSConfig" = some (.object [("Reuse", .nat 2)]) ∧
      (∀ name, members.lookup "Board" ≠ some name) ∧
      members.lookup "XilinxPart" = some (.string "xc7z020") ∧
      members.lookup "AcceleratorConfig" = some Section.fallback.toJson := by
  intro value world
  have hvalue : value.Integral := by simp [value, Json.nat]
  let settings : Settings :=
    { part := some "xc7z010"
      extra := Table.ofList [("HLSConfig", .object [("Reuse", .nat 2)]), ("z", .null)] }
  have hofSettings : Settings.ofText value.compact = .ok settings :=
    (Decoder.run_compact Settings.decoder hvalue).trans rfl
  have htext : textAt world.system "c.json" = .ok value.compact :=
    FileStore.textAt_eq_ok_iff.mpr rfl
  have hpart : ((resolver Sample.registry (some "pynq-z2")).resolve settings [Tensor.named "x"]
      [Tensor.named "x"]).map (·.config.part) = .ok "xc7z020" := rfl
  obtain ⟨output, after, hrun⟩ : ∃ output after, runIn
      (resolve "b.json" "c.json" (some "pynq-z2") ["x"] ["x"] (some "c.json")) world =
        (.ok output, after) :=
    Sample.exists_runIn_resolve ⟨_, htext, hofSettings⟩ rfl fun text => ⟨_, rfl⟩
  have hintegers : IntegersOnly (tokens value.compact.toList) :=
    Sample.integersOnly hvalue (by simp [value, Json.nat, lexemes, moreMemberLexemes]) _ htext
  obtain ⟨registry, settings', resolution, source, members, hregistry, hsettings, hresolved, -,
    hsource, hwritten, -, hback⟩ := resolve_writtenBack htext hintegers hrun
  -- the run used the registry and the settings that the files hold
  obtain rfl := hregistry.unique (Sample.hasRegistry_boards value)
  rw [hofSettings] at hsettings
  obtain rfl := Except.ok.inj hsettings
  have hpart' : resolution.config.part = "xc7z020" := by
    simp only [List.map_cons, List.map_nil] at hresolved
    rw [hresolved] at hpart
    exact Except.ok.inj hpart
  rw [hpart'] at hback
  obtain ⟨rfl, -⟩ :=
    Document.object.inj (hsource.symm.trans (Document.ofText_letters Style.blank_compact hvalue))
  refine ⟨output, after, members, hrun, hwritten, ?_, ?_, ?_, ?_, ?_⟩
  · exact (hback.other_iff "z" (by decide) _).mpr ⟨_, rfl, .null⟩
  · have hreuse : (Json.object [("Reuse", .nat 1), ("Reuse", .nat 2)]).document.value 1 =
        .ok (.object [("Reuse", .nat 2)]) := rfl
    exact (hback.other_iff "HLSConfig" (by decide) _).mpr
      ⟨_, rfl, Document.denotes_of_value hreuse⟩
  · intro name hname
    obtain ⟨hgiven, hnull⟩ := (hback.board_iff name).mp hname
    exact hnull (hgiven.unique ⟨_, rfl, .null⟩)
  · exact (hback.part_iff _).mpr ⟨rfl, _, ⟨_, rfl, .string "xc7z010"⟩, Json.noConfusion⟩
  · obtain ⟨accelerator, hread, hlookup⟩ := hback.accelerator
    have habsent : ReadAs Section.decoder none accelerator := hread
    cases habsent
    exact hlookup

end FabricConfig.Command
