import FabricConfig.Proofs.Registry

/-! The history of a registry. However it was built, a registry answers as a map from names to the
boards that were stored last under them. A replacement of all boards forgets what was stored before
it, and the boards that it brings count as stored in their order. -/

namespace FabricConfig

open Json
open Text (ByteLt)

namespace Registry

/-! ### Building a registry -/

/-- A step in building a registry. -/
inductive Step where
  /-- One more board. -/
  | store (name : String) (board : Board)
  /-- The boards of a list in place of all others. -/
  | replace (boards : List (String × Board))
  /-- The boards that a text lists in place of all others. -/
  | load (text : String)

/-- Takes a step. Only a text can fail to give a registry. -/
def step (registry : Registry) : Step → Except CatalogError Registry
  | .store name board => .ok (registry.insert name board)
  | .replace boards => .ok (ofBoards boards)
  | .load text => ofText text

/-- Takes steps one after the other. -/
def build (registry : Registry) (steps : List Step) : Except CatalogError Registry :=
  steps.foldlM step registry

/-! ### What was stored -/

/-- A text lists boards: its members, in their order, are read as these. -/
def Lists (text : String) (boards : List (String × Board)) : Prop :=
  ∃ members, Document.ofText text = .object members .closed ∧
    List.Forall₂ Board.decoder.IsEntry members boards

/-- What a step makes of the boards that were stored since the last replacement, in order. -/
inductive Step.Records : Step → List (String × Board) → List (String × Board) → Prop where
  | store (name : String) (board : Board) (stored : List (String × Board)) :
      Records (.store name board) stored (stored ++ [(name, board)])
  | replace (boards stored : List (String × Board)) : Records (.replace boards) stored boards
  | load {text : String} {boards : List (String × Board)} (h : Lists text boards)
      (stored : List (String × Board)) : Records (.load text) stored boards

/-- What steps make of the boards that were stored since the last replacement. -/
inductive Records : List Step → List (String × Board) → List (String × Board) → Prop where
  | nil (stored : List (String × Board)) : Records [] stored stored
  | cons {step : Step} {steps : List Step} {stored next last : List (String × Board)}
      (hstep : step.Records stored next) (hsteps : Records steps next last) :
      Records (step :: steps) stored last

/-- The board that was stored last under a name. -/
def StoredLast (stored : List (String × Board)) (name : String) (board : Board) : Prop :=
  ∃ before after, stored = before ++ (name, board) :: after ∧ ∀ entry ∈ after, entry.1 ≠ name

/-- A registry answers by what was stored last under each name. -/
structure Answers (registry : Registry) (stored : List (String × Board)) : Prop where
  board_eq_ok_iff : ∀ name board, registry.board name = .ok board ↔ StoredLast stored name board
  board_eq_error : ∀ name, (∀ entry ∈ stored, entry.1 ≠ name) →
    registry.board name = .error (.unknownBoard name)
  ascending_keys : registry.keys.Pairwise ByteLt
  mem_keys_iff : ∀ name, name ∈ registry.keys ↔ ∃ board, registry.board name = .ok board
  entries_eq : registry.entries.map (fun entry => (entry.1, Except.ok entry.2)) =
    registry.keys.map fun name => (name, registry.board name)
  size_eq : registry.size = {name | ∃ board, registry.board name = .ok board}.ncard
  size_eq_zero_iff : registry.size = 0 ↔ ∀ name board, registry.board name ≠ .ok board

/-! ### One step -/

/-- A text that is read lists the boards that are stored. -/
theorem exists_lists_of_ofText {text : String} {registry : Registry}
    (h : ofText text = .ok registry) : ∃ boards, Lists text boards ∧ registry = .ofList boards := by
  have hdecode := Decoder.of_run_eq_ok (mapError_eq_ok_iff.mp h)
  obtain ⟨members, boards, hdocument, hboards, rfl⟩ := Decoder.exists_entries_of_table hdecode
  exact ⟨boards, ⟨members, hdocument, hboards⟩, rfl⟩

/-- A text lists its boards in one way only. -/
theorem Lists.unique {text : String} {first second : List (String × Board)} (h : Lists text first)
    (h' : Lists text second) : first = second := by
  obtain ⟨members, hdocument, hfirst⟩ := h
  obtain ⟨members', hdocument', hsecond⟩ := h'
  obtain ⟨rfl, -⟩ := Document.object.inj (hdocument.symm.trans hdocument')
  exact List.right_unique_forall₂' (Decoder.isEntry_rightUnique Board.decoder) hfirst hsecond

/-- A listing lists the boards that it was made of. -/
theorem lists_listing (boards : List (String × Board)) : Lists (listing boards) boards := by
  refine ⟨memberDocuments (boards.map fun entry => (entry.1, entry.2.toJson)), ?_, ?_⟩
  · rw [listing_eq_compact]
    exact Document.ofText_letters Style.blank_compact (integral_boards boards)
  · rw [memberDocuments_eq_map, List.map_map, List.forall₂_map_left_iff, List.forall₂_same]
    exact fun entry _ => ⟨rfl, entry.2.decoder_document⟩

theorem Step.Records.unique {step : Step} {stored first second : List (String × Board)}
    (h : step.Records stored first) (h' : step.Records stored second) : first = second := by
  cases h with
  | store name board =>
      cases h'
      rfl
  | replace boards =>
      cases h'
      rfl
  | load hlists =>
      cases h' with
      | load hlists' => exact hlists.unique hlists'

/-- Before and after a step, the registry is the one in which what was stored is stored in order. -/
theorem exists_records_of_step {step : Step} {stored : List (String × Board)} {next : Registry}
    (h : Registry.step (.ofList stored) step = .ok next) :
    ∃ after, step.Records stored after ∧ next = .ofList after := by
  cases step with
  | store name board =>
      obtain rfl := Except.ok.inj h
      refine ⟨_, .store name board stored, ?_⟩
      rw [Table.ofList, Table.ofList, List.foldl_append]
      rfl
  | replace boards =>
      obtain rfl := Except.ok.inj h
      exact ⟨_, .replace boards stored, Table.collect_eq_ofList boards⟩
  | load text =>
      obtain ⟨boards, hboards, rfl⟩ := exists_lists_of_ofText h
      exact ⟨boards, .load hboards stored, rfl⟩

/-! ### All steps -/

theorem Records.unique {steps : List Step} {stored first second : List (String × Board)}
    (h : Records steps stored first) (h' : Records steps stored second) : first = second := by
  induction h with
  | nil stored =>
      cases h'
      rfl
  | cons hstep _ ih =>
      cases h' with
      | cons hstep' hsteps' =>
          obtain rfl := hstep.unique hstep'
          exact ih hsteps'

theorem exists_records_of_build {steps : List Step} {stored : List (String × Board)}
    {registry : Registry} (h : build (.ofList stored) steps = .ok registry) :
    ∃ after, Records steps stored after ∧ registry = .ofList after := by
  induction steps generalizing stored with
  | nil => exact ⟨stored, .nil stored, (Except.ok.inj h).symm⟩
  | cons step steps ih =>
      rw [build, List.foldlM_cons] at h
      obtain ⟨next, hstep, h⟩ := bind_eq_ok_iff.mp h
      obtain ⟨middle, hmiddle, rfl⟩ := exists_records_of_step hstep
      obtain ⟨after, hafter, rfl⟩ := ih h
      exact ⟨after, .cons hmiddle hafter, rfl⟩

/-! ### Answers -/

theorem lookup_reverse_eq_some_iff {stored : List (String × Board)} {name : String}
    {board : Board} : stored.reverse.lookup name = some board ↔ StoredLast stored name board := by
  rw [List.lookup_eq_some_iff]
  constructor
  · rintro ⟨after, before, hstored, hafter⟩
    refine ⟨before.reverse, after.reverse, ?_, ?_⟩
    · rw [← List.reverse_inj, hstored]
      simp
    · intro entry hentry
      exact (bne_iff_ne.mp (hafter entry (List.mem_reverse.mp hentry))).symm
  · rintro ⟨before, after, rfl, hafter⟩
    refine ⟨after.reverse, before.reverse, by simp, ?_⟩
    intro entry hentry
    exact bne_iff_ne.mpr (hafter entry (List.mem_reverse.mp hentry)).symm

theorem answers_ofList (stored : List (String × Board)) :
    Answers (.ofList stored) stored where
  board_eq_ok_iff name board := by
    rw [board_eq_ok_iff, Table.get?_ofList, lookup_reverse_eq_some_iff]
  board_eq_error name hnone := by
    have hlookup : stored.reverse.lookup name = none := by
      rw [List.lookup_eq_none_iff]
      intro entry hentry
      exact bne_iff_ne.mpr (hnone entry (List.mem_reverse.mp hentry)).symm
    rw [board, Table.get?_ofList, hlookup]
  ascending_keys := Table.pairwise_keys _
  mem_keys_iff name := by simp only [board_eq_ok_iff, Table.mem_keys_iff]
  entries_eq := by
    rw [Table.keys, List.map_map]
    refine List.map_congr_left fun entry hentry => ?_
    rw [Function.comp_apply, board_eq_ok_iff.mpr (Table.get?_of_mem _ hentry)]
  size_eq := by
    simp only [board_eq_ok_iff]
    exact Table.size_eq_ncard _
  size_eq_zero_iff := by
    simp only [ne_eq, board_eq_ok_iff]
    exact Table.size_eq_zero_iff _

/-- However a registry was built from nothing, it answers by what was stored last under each name
since the boards were last replaced. -/
theorem answers_of_build {steps : List Step} {registry : Registry}
    (h : build .empty steps = .ok registry) :
    ∃ stored, (∀ log, Records steps [] log ↔ log = stored) ∧ registry.Answers stored := by
  have hbuild : build (.ofList []) steps = .ok registry := h
  obtain ⟨stored, hstored, rfl⟩ := exists_records_of_build hbuild
  refine ⟨stored, fun log => ?_, answers_ofList stored⟩
  constructor
  · exact fun hlog => hlog.unique hstored
  · rintro rfl
    exact hstored

/-- The first board is forgotten when the others are loaded, the text has one name twice, and a board
that it lists is replaced later. -/
theorem answers_of_build_replaced_and_repeated :
    let listed : List (String × Board) :=
      [("zcu102", { part := "xczu9eg" }), ("pynq-z2", { part := "xc7z010" }),
       ("zcu102", { part := "xczu9eg-2" })]
    let steps : List Step :=
      [.store "zcu104" { part := "xczu7ev" }, .load (listing listed),
       .store "pynq-z2" { part := "xc7z020" }]
    ∃ registry, build .empty steps = .ok registry ∧ registry.keys = ["pynq-z2", "zcu102"] ∧
      registry.board "pynq-z2" = .ok { part := "xc7z020" } ∧
      registry.board "zcu102" = .ok { part := "xczu9eg-2" } ∧
      registry.board "zcu104" = .error (.unknownBoard "zcu104") := by
  intro listed steps
  have hbuild : build .empty steps =
      .ok ((Table.ofList listed).insert "pynq-z2" { part := "xc7z020" }) := by
    simp only [steps, build, List.foldlM_cons, List.foldlM_nil, step, ofText_listing, ok_bind,
      pure_eq_ok]
  obtain ⟨stored, hstored, hanswers⟩ := answers_of_build hbuild
  obtain rfl := (hstored _).mp (.cons (.store _ _ _) (.cons (.load (lists_listing listed) _)
    (.cons (.store _ _ _) (.nil _))))
  refine ⟨_, hbuild, rfl, ?_, ?_, ?_⟩
  · exact (hanswers.board_eq_ok_iff _ _).mpr ⟨listed, [], rfl, by simp⟩
  · exact (hanswers.board_eq_ok_iff _ _).mpr ⟨listed.take 2, [_], rfl, by simp⟩
  · exact hanswers.board_eq_error _ (by simp [listed])

end Registry

end FabricConfig
