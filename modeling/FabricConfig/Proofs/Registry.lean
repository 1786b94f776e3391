import FabricConfig.Catalog
import FabricConfig.Proofs.Json.Record
import FabricConfig.Proofs.Table
import FabricConfig.Text.Split

/-! Ways to build a registry. Its boards are stored all at once, stored one after the other, or read
from a text that lists them, and the registry is the same. -/

namespace FabricConfig

open Json

/-! ### Compact texts -/

namespace Json

/-- A member of an object in a text without blanks. -/
def memberLetters (member : String × Json) : List Char :=
  quoted member.1 ++ ':' :: member.2.compact.toList

@[simp] theorem Style.lineBreak_compact (depth : Nat) : Style.compact.lineBreak depth = [] :=
  rfl

@[simp] theorem Style.afterColon_compact : Style.compact.afterColon = [] :=
  rfl

theorem moreItems_compact {items : List Json}
    (h : ∀ item ∈ items, ∀ depth, item.letters .compact depth = item.letters .compact 0)
    (depth : Nat) : moreItems .compact depth items = moreItems .compact 0 items := by
  induction items with
  | nil => rfl
  | cons item items ih =>
      have hitems := ih fun other hother => h other (List.mem_cons_of_mem item hother)
      simp [moreItems, h item List.mem_cons_self (_ + 1), hitems]

theorem moreMembers_compact {members : List (String × Json)}
    (h : ∀ member ∈ members, ∀ depth,
      member.2.letters .compact depth = member.2.letters .compact 0) (depth : Nat) :
    moreMembers .compact depth members = moreMembers .compact 0 members := by
  induction members with
  | nil => rfl
  | cons member members ih =>
      have hmembers := ih fun other hother => h other (List.mem_cons_of_mem member hother)
      simp [moreMembers, h member List.mem_cons_self (_ + 1), hmembers]

/-- Without blanks a text does not depend on the depth that it starts at. -/
theorem letters_compact (value : Json) (depth : Nat) :
    value.letters .compact depth = value.letters .compact 0 := by
  induction value using Json.induction generalizing depth with
  | null => rfl
  | bool b => cases b <;> rfl
  | number n => rfl
  | string s => rfl
  | array items ih =>
      cases items with
      | nil => rfl
      | cons item items =>
          have hitems := moreItems_compact
            (fun other hother => ih other (List.mem_cons_of_mem item hother)) depth
          simp [letters, ih item List.mem_cons_self (_ + 1), hitems]
  | object members ih =>
      cases members with
      | nil => rfl
      | cons member members =>
          have hmembers := moreMembers_compact
            (fun other hother => ih other (List.mem_cons_of_mem member hother)) depth
          simp [letters, ih member List.mem_cons_self (_ + 1), hmembers]

theorem join_memberLetters (member : String × Json) (members : List (String × Json)) :
    Text.join ',' ((member :: members).map memberLetters) ++ ['\x7d'] =
      memberLetters member ++ moreMembers .compact 0 members := by
  induction members generalizing member with
  | nil => rfl
  | cons next members ih =>
      have hnext := ih next
      simp only [List.map_cons] at hnext ⊢
      rw [Text.join, List.append_assoc, List.cons_append, hnext]
      · simp [moreMembers, memberLetters, compact, letters_compact next.2 1]
      · simp

/-- The text of an object without blanks. -/
theorem compact_object (members : List (String × Json)) :
    (object members).compact =
      String.ofList ('\x7b' :: Text.join ',' (members.map memberLetters) ++ ['\x7d']) := by
  cases members with
  | nil => rfl
  | cons member members =>
      rw [List.cons_append, join_memberLetters, compact, letters]
      simp [memberLetters, compact, letters_compact member.2 1]

end Json

/-! ### Boards -/

theorem Scripts.decoder_document (scripts : Scripts) :
    Scripts.decoder scripts.toJson.document = .ok scripts := by
  obtain ⟨stream, master, lite⟩ := scripts
  cases stream <;> cases master <;> cases lite <;> rfl

theorem Board.decoder_document (board : Board) :
    Board.decoder board.toJson.document = .ok board := by
  obtain ⟨part, scripts⟩ := board
  cases scripts with
  | none => rfl
  | some scripts =>
      have hscripts : Decoder.optional Scripts.decoder scripts.toJson.document =
          .ok (some scripts) :=
        Decoder.optional_document Json.noConfusion scripts.decoder_document
      have hpart (rest : List (Option String × Document)) :
          record.readMembers (Record.ignoreOther .text) [] record.blank
            ((some "part", .string (some part)) :: rest) =
          record.readMembers (Record.ignoreOther .text) ["part"] { part } rest :=
        Record.readMembers_field rfl List.not_mem_nil rfl rest
      have hread : record.readMembers (Record.ignoreOther .text) ["part"] { part }
          [(some "tcl_scripts", scripts.toJson.document)] =
          .ok (["tcl_scripts", "part"], { part, scripts }) := by
        refine Record.readMembers_field rfl (by simp) ?_ []
        dsimp only
        rw [hscripts]
        rfl
      rw [toJson, document, decoder, Record.decoder, Record.readObject]
      simp only [member?, memberDocuments, document, hpart, hread]
      rfl

theorem Board.integral_toJson (board : Board) : board.toJson.Integral := by
  refine .object (List.forall_mem_cons.mpr ⟨.string board.part, integral_of_mem_member? ?_⟩)
  intro scripts
  refine .object fun member hmember => ?_
  obtain ⟨interface, -, hmember⟩ := List.mem_flatMap.mp hmember
  exact integral_of_mem_member? .string member hmember

/-! ### Registries -/

namespace Registry

theorem board_eq_ok_iff {registry : Registry} {name : String} {board : Board} :
    registry.board name = .ok board ↔ registry.get? name = some board := by
  unfold Registry.board
  cases registry.get? name <;> simp

/-- A text that lists boards under their names. -/
def listing (boards : List (String × Board)) : String :=
  String.ofList ('\x7b' :: Text.join ','
    (boards.map fun entry => quoted entry.1 ++ ':' :: entry.2.toJson.compact.toList) ++ ['\x7d'])

theorem listing_eq_compact (boards : List (String × Board)) :
    listing boards = (object (boards.map fun entry => (entry.1, entry.2.toJson))).compact := by
  rw [compact_object, List.map_map]
  rfl

theorem integral_boards (boards : List (String × Board)) :
    (object (boards.map fun entry => (entry.1, entry.2.toJson))).Integral := by
  refine .object (List.forall_mem_map.mpr ?_)
  exact fun entry _ => entry.2.integral_toJson

theorem ofText_listing (boards : List (String × Board)) :
    ofText (listing boards) = .ok (.ofList boards) := by
  rw [ofText, listing_eq_compact, Decoder.run_compact _ (integral_boards boards),
    Decoder.table_document Board.decoder_document, mapError_ok]

/-- Boards that are stored all at once, stored one after the other, or listed in a text that is read
come to one registry. A name may be repeated. -/
theorem constructions_agree (boards : List (String × Board)) :
    ofBoards boards =
        boards.foldl (fun registry entry => registry.insert entry.1 entry.2) Table.empty ∧
      ofText (listing boards) = .ok (ofBoards boards) := by
  have hcollect : ofBoards boards = .ofList boards := Table.collect_eq_ofList boards
  exact ⟨hcollect, by rw [hcollect, ofText_listing]⟩

end Registry

end FabricConfig
