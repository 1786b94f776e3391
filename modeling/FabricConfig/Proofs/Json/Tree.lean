import FabricConfig.Json.Decoder
import FabricConfig.Proofs.Json.Scanning

/-! The tree of a printed text is the tree of the value that was printed. What a decoder makes of the
text is therefore what it makes of that tree, and laws of decoders need not mention texts. -/

namespace FabricConfig.Json

/-- A property of all values that containers inherit from what they hold. -/
@[elab_as_elim]
theorem induction {motive : Json → Prop} (null : motive .null) (bool : ∀ b, motive (.bool b))
    (number : ∀ n, motive (.number n)) (string : ∀ s, motive (.string s))
    (array : ∀ items, (∀ item ∈ items, motive item) → motive (.array items))
    (object : ∀ members, (∀ member ∈ members, motive member.2) → motive (.object members))
    (value : Json) : motive value := by
  apply @Json.rec motive (fun items => ∀ item ∈ items, motive item)
    (fun members => ∀ member ∈ members, motive member.2) (fun member => motive member.2) null bool
    number string array object
  · exact fun item hitem => absurd hitem List.not_mem_nil
  · exact fun first rest hfirst hrest => List.forall_mem_cons.mpr ⟨hfirst, hrest⟩
  · exact fun member hmember => absurd hmember List.not_mem_nil
  · exact fun first rest hfirst hrest => List.forall_mem_cons.mpr ⟨hfirst, hrest⟩
  · exact fun key value hvalue => hvalue

mutual

/-- The tree of a value. -/
def document : Json → Document
  | .null => .null
  | .bool b => .bool b
  | .number n => .number (some n)
  | .string s => .string (some s)
  | .array items => .array (itemDocuments items) .closed
  | .object members => .object (memberDocuments members) .closed

/-- The trees of the items of an array. -/
def itemDocuments : List Json → List Document
  | [] => []
  | item :: rest => document item :: itemDocuments rest

/-- The trees of the members of an object. -/
def memberDocuments : List (String × Json) → List (Option String × Document)
  | [] => []
  | (key, value) :: rest => (some key, document value) :: memberDocuments rest

end

theorem memberDocuments_eq_map (members : List (String × Json)) :
    memberDocuments members = members.map fun member => (some member.1, member.2.document) := by
  induction members with
  | nil => rfl
  | cons member members ih => simp [memberDocuments, ih]

theorem memberDocuments_append (first second : List (String × Json)) :
    memberDocuments (first ++ second) = memberDocuments first ++ memberDocuments second := by
  simp [memberDocuments_eq_map]

/-! ### Trees tell values apart -/

theorem itemDocuments_eq_map (items : List Json) : itemDocuments items = items.map document := by
  induction items with
  | nil => rfl
  | cons item items ih => simp [itemDocuments, ih]

/-- Lists are told apart by what their items are told apart by. -/
theorem eq_of_map_eq_map {α β : Type} {f : α → β} {items others : List α}
    (hitem : ∀ item ∈ items, ∀ other, f item = f other → item = other)
    (h : items.map f = others.map f) : items = others := by
  induction items generalizing others with
  | nil => exact (List.map_eq_nil_iff.mp h.symm).symm
  | cons item items ih =>
      obtain ⟨other, rest, rfl, hother, hrest⟩ := List.map_eq_cons_iff.mp h.symm
      rw [hitem item List.mem_cons_self other hother.symm,
        ih (fun item hmem => hitem item (List.mem_cons_of_mem _ hmem)) hrest.symm]

theorem eq_of_document_eq {value other : Json} (h : value.document = other.document) :
    value = other := by
  induction value using Json.induction generalizing other with
  | array items ih =>
      cases other with
      | array others =>
          obtain ⟨hitems, -⟩ := Document.array.inj h
          rw [itemDocuments_eq_map, itemDocuments_eq_map] at hitems
          rw [eq_of_map_eq_map (fun item hitem other => ih item hitem) hitems]
      | _ => contradiction
  | object members ih =>
      cases other with
      | object others =>
          obtain ⟨hmembers, -⟩ := Document.object.inj h
          rw [memberDocuments_eq_map, memberDocuments_eq_map] at hmembers
          rw [eq_of_map_eq_map (fun member hmember other heq => ?_) hmembers]
          obtain ⟨hkey, hvalue⟩ := Prod.mk.inj heq
          exact Prod.ext (Option.some.inj hkey) (ih member hmember hvalue)
      | _ => contradiction
  | _ => cases other <;> simp_all [document]

namespace Document

/-! ### The tokens of a tree -/

/-- A tree in which nothing is wrong with the text. -/
inductive Complete : Document → Prop where
  | null : Complete .null
  | bool (value : Bool) : Complete (.bool value)
  | number (value : Option Number) : Complete (.number value)
  | string (content : Option String) : Complete (.string content)
  | array {items : List Document} (h : ∀ item ∈ items, Complete item) :
      Complete (.array items .closed)
  | object {members : List (Option String × Document)} (h : ∀ member ∈ members, Complete member.2) :
      Complete (.object members .closed)

mutual

/-- The tokens of a tree. -/
def lexemes : Document → List Token
  | .null => [.null]
  | .bool b => [.bool b]
  | .number n => [.number n]
  | .string s => [.string s]
  | .array items _ => .openBracket :: (itemLexemes items ++ [.closeBracket])
  | .object members _ => .openBrace :: (memberLexemes members ++ [.closeBrace])
  | .noValue _ => []
  | .noColon _ => []

/-- The tokens of the items of an array, with commas between them. -/
def itemLexemes : List Document → List Token
  | [] => []
  | [item] => lexemes item
  | item :: next :: rest => lexemes item ++ .comma :: itemLexemes (next :: rest)

/-- The tokens of the members of an object, with commas between them. -/
def memberLexemes : List (Option String × Document) → List Token
  | [] => []
  | [(key, value)] => .string key :: .colon :: lexemes value
  | (key, value) :: next :: rest =>
    .string key :: .colon :: (lexemes value ++ .comma :: memberLexemes (next :: rest))

end

/-! ### The tokens of a tree are read as the tree -/

/-- The tokens of a tree are read as the tree, wherever it stands. -/
def ReadBack (d : Document) : Prop :=
  ∀ frames rest, readValue frames (d.lexemes ++ rest) = readAfter frames d rest

theorem Complete.head?_lexemes_ne {d : Document} (h : d.Complete) (rest : List Token) :
    (d.lexemes ++ rest).head? ≠ some .closeBracket := by
  cases h <;> simp [lexemes]

theorem readValue_openBracket (frames : List Frame) {rest : List Token}
    (h : rest.head? ≠ some .closeBracket) :
    readValue frames (.openBracket :: rest) = readValue (.array [] :: frames) rest := by
  rw [readValue]
  rintro others rfl
  exact h rfl

theorem readValue_itemLexemes {items : List Document} (hne : items ≠ [])
    (h : ∀ item ∈ items, ReadBack item) (held : List Document) (frames : List Frame)
    (rest : List Token) :
    readValue (.array held :: frames) (itemLexemes items ++ .closeBracket :: rest) =
      readAfter frames (.array (held.reverse ++ items) .closed) rest := by
  induction items generalizing held with
  | nil => exact absurd rfl hne
  | cons item items ih =>
      have hitem := h item List.mem_cons_self
      cases items with
      | nil => rw [itemLexemes, hitem, readAfter, List.reverse_cons]
      | cons next items =>
          have hitems := ih (List.cons_ne_nil next items)
            (fun other hother => h other (List.mem_cons_of_mem item hother)) (item :: held)
          rw [itemLexemes, List.append_assoc, hitem, List.cons_append, readAfter, hitems]
          simp

theorem readAfter_memberLexemes {members : List (Option String × Document)} (hne : members ≠ [])
    (h : ∀ member ∈ members, ReadBack member.2) (held : List (Option String × Document))
    (key : Option String) (value : Document) (frames : List Frame) (rest : List Token) :
    readAfter (.object held key :: frames) value
        (.comma :: (memberLexemes members ++ .closeBrace :: rest)) =
      readAfter frames (.object (((key, value) :: held).reverse ++ members) .closed) rest := by
  induction members generalizing held key value with
  | nil => exact absurd rfl hne
  | cons member members ih =>
      obtain ⟨next, d⟩ := member
      have hd : ReadBack d := h (next, d) List.mem_cons_self
      cases members with
      | nil =>
          simp only [memberLexemes, List.cons_append, readAfter]
          rw [hd, readAfter]
          simp
      | cons other members =>
          have hmembers := ih (List.cons_ne_nil other members)
            (fun member hmember => h member (List.mem_cons_of_mem _ hmember))
            ((key, value) :: held) next d
          simp only [memberLexemes, List.cons_append, List.append_assoc, readAfter]
          rw [hd, hmembers]
          simp

theorem Complete.readBack {d : Document} (h : d.Complete) : ReadBack d := by
  induction h with
  | null | bool | number | string => exact fun _ _ => by simp [lexemes, readValue]
  | @array items hitems ih =>
      intro frames rest
      cases items with
      | nil => simp [lexemes, itemLexemes, readValue]
      | cons item items =>
          have hread := readValue_itemLexemes (List.cons_ne_nil item items) ih [] frames rest
          have hhead := (hitems item List.mem_cons_self).head?_lexemes_ne
          simp only [lexemes, List.cons_append, List.append_assoc, List.nil_append]
          rw [readValue_openBracket, hread]
          · simp
          · cases items with
            | nil => exact hhead _
            | cons next items =>
                rw [itemLexemes, List.append_assoc]
                exact hhead _
  | @object members hmembers ih =>
      intro frames rest
      cases members with
      | nil => simp [lexemes, memberLexemes, readValue]
      | cons member members =>
          obtain ⟨key, value⟩ := member
          have hvalue : ReadBack value := ih (key, value) List.mem_cons_self
          cases members with
          | nil =>
              simp only [lexemes, memberLexemes, List.cons_append, List.append_assoc,
                List.nil_append, readValue]
              rw [hvalue, readAfter]
              rfl
          | cons next members =>
              have hread := readAfter_memberLexemes (List.cons_ne_nil next members)
                (fun member hmember => ih member (List.mem_cons_of_mem _ hmember)) [] key value
                frames rest
              simp only [lexemes, memberLexemes, List.cons_append, List.append_assoc,
                List.nil_append, readValue]
              rw [hvalue, hread]
              simp

end Document

/-! ### Trees of values -/

theorem complete_document (value : Json) : value.document.Complete := by
  induction value using Json.induction with
  | null => exact .null
  | bool b => exact .bool b
  | number n => exact .number n
  | string s => exact .string s
  | array items ih =>
      refine .array ?_
      rw [itemDocuments_eq_map]
      exact List.forall_mem_map.mpr ih
  | object members ih =>
      refine .object ?_
      rw [memberDocuments_eq_map]
      exact List.forall_mem_map.mpr ih

theorem itemLexemes_itemDocuments {item : Json} {items : List Json}
    (h : ∀ other ∈ item :: items, other.document.lexemes = other.lexemes) :
    Document.itemLexemes (itemDocuments (item :: items)) ++ [.closeBracket] =
      item.lexemes ++ moreItemLexemes items := by
  induction items generalizing item with
  | nil => simp [itemDocuments, Document.itemLexemes, moreItemLexemes, h]
  | cons next items ih =>
      obtain ⟨hitem, hitems⟩ := List.forall_mem_cons.mp h
      rw [moreItemLexemes, ← ih hitems]
      simp [itemDocuments, Document.itemLexemes, hitem]

theorem memberLexemes_memberDocuments {key : String} {value : Json} {members : List (String × Json)}
    (h : ∀ member ∈ (key, value) :: members, member.2.document.lexemes = member.2.lexemes) :
    Document.memberLexemes (memberDocuments ((key, value) :: members)) ++ [.closeBrace] =
      .string (some key) :: .colon :: (value.lexemes ++ moreMemberLexemes members) := by
  induction members generalizing key value with
  | nil =>
      have hvalue := h (key, value) List.mem_cons_self
      simp [memberDocuments, Document.memberLexemes, moreMemberLexemes, hvalue]
  | cons next members ih =>
      obtain ⟨hvalue, hmembers⟩ := List.forall_mem_cons.mp h
      rw [moreMemberLexemes, ← ih hmembers]
      simp [memberDocuments, Document.memberLexemes, hvalue]

theorem lexemes_document (value : Json) : value.document.lexemes = value.lexemes := by
  induction value using Json.induction with
  | null | bool | number | string => simp [document, Document.lexemes, lexemes]
  | array items ih =>
      cases items with
      | nil => simp [document, itemDocuments, Document.lexemes, Document.itemLexemes, lexemes]
      | cons item items => rw [document, Document.lexemes, itemLexemes_itemDocuments ih, lexemes]
  | object members ih =>
      cases members with
      | nil => simp [document, memberDocuments, Document.lexemes, Document.memberLexemes, lexemes]
      | cons member members =>
          rw [document, Document.lexemes, memberLexemes_memberDocuments ih, lexemes]

namespace Document

/-- The tree of a text, as far as the text can be read. -/
def ofText (text : String) : Document :=
  (readValue [] (tokens text.toList)).1

theorem readValue_lexemes (value : Json) : readValue [] value.lexemes = (value.document, []) := by
  have h := (complete_document value).readBack [] []
  rwa [List.append_nil, readAfter, lexemes_document] at h

theorem ofText_letters {style : Style} (hstyle : style.Blank) {value : Json} (h : value.Integral) :
    ofText (String.ofList (value.letters style 0)) = value.document := by
  rw [ofText, String.toList_ofList, tokens_letters hstyle h, readValue_lexemes]

end Document

/-- No two values whose numbers are 64-bit integers are printed alike. -/
theorem Integral.eq_of_letters_eq {style : Style} (hstyle : style.Blank) {value other : Json}
    (hvalue : value.Integral) (hother : other.Integral)
    (h : value.letters style 0 = other.letters style 0) : value = other := by
  apply eq_of_document_eq
  rw [← Document.ofText_letters hstyle hvalue, h, Document.ofText_letters hstyle hother]

namespace Decoder

variable {α : Type} (decoder : Decoder α)

/-- A form that can be decoded tells values apart. -/
theorem injective_of_decodes {decoder : Decoder α} {toJson : α → Json}
    (h : ∀ a, decoder (toJson a).document = .ok a) : Function.Injective toJson := by
  intro a b hab
  have ha := h a
  rw [hab, h b] at ha
  exact (Except.ok.inj ha).symm

theorem of_run_eq_ok {decoder : Decoder α} {text : String} {a : α} (h : decoder.run text = .ok a) :
    decoder (Document.ofText text) = .ok a := by
  obtain ⟨b, hb, h⟩ := bind_eq_ok_iff.mp h
  split at h
  · rw [← Except.ok.inj h]
    exact hb
  · contradiction

/-- Decoding a printed value is decoding its tree. -/
theorem run_letters {style : Style} (hstyle : style.Blank) {value : Json} (h : value.Integral) :
    decoder.run (String.ofList (value.letters style 0)) = decoder value.document := by
  rw [run, String.toList_ofList, tokens_letters hstyle h, Document.readValue_lexemes]
  dsimp only
  cases decoder value.document <;> rfl

theorem run_compact {value : Json} (h : value.Integral) :
    decoder.run value.compact = decoder value.document :=
  run_letters decoder Style.blank_compact h

theorem run_pretty {value : Json} (h : value.Integral) :
    decoder.run value.pretty = decoder value.document :=
  run_letters decoder Style.blank_pretty h

end Decoder

end FabricConfig.Json
