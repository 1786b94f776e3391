import FabricConfig.Proofs.Json.Reading
import FabricConfig.Proofs.Json.Splicing

/-! The grammar of JSON texts. A text is written for a tree if it has the parts of the tree in their
order, with marks between them and blanks wherever they may stand. Reading finds the tree of a text
exactly if the text is written for it. -/

namespace FabricConfig.Json

/-- The tree that a token is on its own. -/
def Token.scalar? : Token → Option Document
  | .null => some .null
  | .bool b => some (.bool b)
  | .number n => some (.number n)
  | .string s => some (.string s)
  | _ => none

mutual

/-- The texts of a tree. -/
inductive Written : Document → List Char → Prop where
  | scalar {d : Document} {token : Token} {text : List Char} (hvalue : token.scalar? = some d)
      (htext : tokens text = [token]) : Written d text
  | emptyArray {lead gap trail : List Char} (hlead : ∀ c ∈ lead, isBlank c)
      (hgap : ∀ c ∈ gap, isBlank c) (htrail : ∀ c ∈ trail, isBlank c) :
      Written (.array [] .closed) (lead ++ '[' :: (gap ++ ']' :: trail))
  | array {items : List Document} {lead text trail : List Char} (hlead : ∀ c ∈ lead, isBlank c)
      (hitems : WrittenItems items text) (htrail : ∀ c ∈ trail, isBlank c) :
      Written (.array items .closed) (lead ++ '[' :: (text ++ ']' :: trail))
  | emptyObject {lead gap trail : List Char} (hlead : ∀ c ∈ lead, isBlank c)
      (hgap : ∀ c ∈ gap, isBlank c) (htrail : ∀ c ∈ trail, isBlank c) :
      Written (.object [] .closed) (lead ++ '\x7b' :: (gap ++ '\x7d' :: trail))
  | object {members : List (Option String × Document)} {lead text trail : List Char}
      (hlead : ∀ c ∈ lead, isBlank c) (hmembers : WrittenMembers members text)
      (htrail : ∀ c ∈ trail, isBlank c) :
      Written (.object members .closed) (lead ++ '\x7b' :: (text ++ '\x7d' :: trail))

/-- The texts of the items of an array, with commas between them. -/
inductive WrittenItems : List Document → List Char → Prop where
  | one {d : Document} {text : List Char} (h : Written d text) : WrittenItems [d] text
  | more {d : Document} {items : List Document} {text rest : List Char} (h : Written d text)
      (hitems : WrittenItems items rest) : WrittenItems (d :: items) (text ++ ',' :: rest)

/-- The texts of the members of an object, with commas between them. -/
inductive WrittenMembers : List (Option String × Document) → List Char → Prop where
  | one {key : Option String} {d : Document} {name text : List Char}
      (hname : tokens name = [.string key]) (h : Written d text) :
      WrittenMembers [(key, d)] (name ++ ':' :: text)
  | more {key : Option String} {d : Document} {members : List (Option String × Document)}
      {name text rest : List Char} (hname : tokens name = [.string key]) (h : Written d text)
      (hmembers : WrittenMembers members rest) :
      WrittenMembers ((key, d) :: members) (name ++ ':' :: (text ++ ',' :: rest))

end

namespace Document

theorem itemLexemes_cons {items : List Document} (h : items ≠ []) (item : Document) :
    itemLexemes (item :: items) = item.lexemes ++ .comma :: itemLexemes items := by
  cases items with
  | nil => exact absurd rfl h
  | cons next rest => rw [itemLexemes]

theorem memberLexemes_cons {members : List (Option String × Document)} (h : members ≠ [])
    (key : Option String) (value : Document) :
    memberLexemes ((key, value) :: members) =
      .string key :: .colon :: (value.lexemes ++ .comma :: memberLexemes members) := by
  cases members with
  | nil => exact absurd rfl h
  | cons next rest => rw [memberLexemes]

theorem itemLexemes_concat (items : List Document) (item : Document) :
    itemLexemes (items ++ [item]) =
      items.flatMap (fun other => other.lexemes ++ [.comma]) ++ item.lexemes := by
  induction items with
  | nil => simp [itemLexemes]
  | cons other items ih =>
      rw [List.cons_append, itemLexemes_cons (by simp), ih]
      simp

theorem memberLexemes_concat (members : List (Option String × Document)) (key : Option String)
    (value : Document) :
    memberLexemes (members ++ [(key, value)]) =
      members.flatMap
          (fun member => .string member.1 :: .colon :: (member.2.lexemes ++ [.comma])) ++
        .string key :: .colon :: value.lexemes := by
  induction members with
  | nil => simp [memberLexemes]
  | cons member members ih =>
      rw [List.cons_append, memberLexemes_cons (by simp), ih]
      simp

/-! ### Reading takes every token -/

/-- The tokens of the containers that are still open, as far as they were read. -/
def opened : List Frame → List Token
  | [] => []
  | .array items :: frames =>
    opened frames ++ .openBracket :: items.reverse.flatMap fun item => item.lexemes ++ [.comma]
  | .object members key :: frames =>
    opened frames ++ .openBrace :: (members.reverse.flatMap (fun member =>
      .string member.1 :: .colon :: (member.2.lexemes ++ [.comma])) ++ [.string key, .colon])

/-- What is read in the containers `frames` has all their tokens, and those taken from `given`. -/
def Keeps (frames : List Frame) (given : List Token) (result : Document × List Token) : Prop :=
  result.1.Complete → opened frames ++ given = result.1.lexemes ++ result.2

/-- Nothing is wrong with the text only if reading never broke off. -/
theorem eq_nil_of_complete_breakOff {frames : List Frame} {d : Document}
    (h : (breakOff frames d).Complete) : frames = [] ∧ d.Complete := by
  induction frames generalizing d with
  | nil => exact ⟨rfl, h⟩
  | cons frame frames ih =>
      cases frame with
      | array items =>
          obtain ⟨-, hd⟩ := ih h
          contradiction
      | object members key =>
          obtain ⟨-, hd⟩ := ih h
          contradiction

theorem keeps_breakOff {d : Document} (hd : ¬ d.Complete) {frames inner : List Frame}
    {given rest : List Token} : Keeps frames given (breakOff inner d, rest) :=
  fun h => absurd (eq_nil_of_complete_breakOff h).2 hd

theorem Keeps.of_eq {frames frames' : List Frame} {given given' : List Token}
    {result : Document × List Token} (h : Keeps frames given result)
    (heq : opened frames' ++ given' = opened frames ++ given) : Keeps frames' given' result :=
  fun hcomplete => heq.trans (h hcomplete)

theorem keeps_readValue :
    (∀ (frames : List Frame) (given : List Token), Keeps frames given (readValue frames given)) ∧
    (∀ (frames : List Frame) (d : Document) (given : List Token),
      Keeps frames (d.lexemes ++ given) (readAfter frames d given)) := by
  apply readValue.mutual_induct (fun frames given => Keeps frames given (readValue frames given))
    (fun frames d given => Keeps frames (d.lexemes ++ given) (readAfter frames d given))
  case case12 =>
    intro d rest _
    simp [opened, readAfter]
  -- where reading breaks off, something is wrong with the text
  case case9 | case10 | case11 =>
    intros
    rw [readValue]
    · apply keeps_breakOff
      rintro ⟨⟩
    all_goals assumption
  case case15 | case17 | case18 | case20 =>
    intros
    rw [readAfter]
    · apply keeps_breakOff
      rintro ⟨⟩
    all_goals assumption
  -- everywhere else the tokens taken are those of the document or the container that is read
  case case6 =>
    intro frames rest hclose ih
    rw [readValue]
    · exact ih.of_eq (by simp [opened])
    · exact hclose
  case case1 | case2 | case3 | case4 | case5 | case7 | case8 =>
    intros
    rename_i ih
    rw [readValue]
    exact ih.of_eq (by simp [opened, lexemes, itemLexemes, memberLexemes])
  all_goals
    intros
    rename_i ih
    rw [readAfter]
    exact ih.of_eq (by simp [opened, lexemes, itemLexemes_concat, memberLexemes_concat])

theorem lexemes_of_readValue {given : List Token} {d : Document}
    (h : readValue [] given = (d, [])) (hd : d.Complete) : given = d.lexemes := by
  have hkeeps := keeps_readValue.1 [] given
  rw [h] at hkeeps
  simpa [opened] using hkeeps hd

theorem readValue_eq_iff {given : List Token} {d : Document} (h : d.Complete) :
    readValue [] given = (d, []) ↔ given = d.lexemes := by
  refine ⟨fun hread => lexemes_of_readValue hread h, ?_⟩
  rintro rfl
  have hread := h.readBack [] []
  rwa [List.append_nil, readAfter] at hread

/-! ### Texts and tokens -/

theorem fault_not_mem_itemLexemes {fault : Fault} {items : List Document}
    (h : ∀ item ∈ items, Token.fault fault ∉ item.lexemes) :
    Token.fault fault ∉ itemLexemes items := by
  induction items with
  | nil => simp [itemLexemes]
  | cons item items ih =>
      obtain ⟨hitem, hitems⟩ := List.forall_mem_cons.mp h
      cases items with
      | nil => rwa [itemLexemes]
      | cons next items => simp [itemLexemes, hitem, ih hitems]

theorem fault_not_mem_memberLexemes {fault : Fault} {members : List (Option String × Document)}
    (h : ∀ member ∈ members, Token.fault fault ∉ member.2.lexemes) :
    Token.fault fault ∉ memberLexemes members := by
  induction members with
  | nil => simp [memberLexemes]
  | cons member members ih =>
      obtain ⟨hmember, hmembers⟩ := List.forall_mem_cons.mp h
      cases members with
      | nil => simp [memberLexemes, hmember]
      | cons next members => simp [memberLexemes, hmember, ih hmembers]

theorem fault_not_mem_lexemes (fault : Fault) (d : Document) : Token.fault fault ∉ d.lexemes := by
  induction d using Document.induction with
  | array items stop ih => simp [lexemes, fault_not_mem_itemLexemes ih]
  | object members stop ih => simp [lexemes, fault_not_mem_memberLexemes ih]
  | _ => simp [lexemes]

end Document

theorem tokens_eq_nil {text : List Char} (h : ∀ c ∈ text, isBlank c) : tokens text = [] := by
  simpa using tokens_blanks h []

/-- The tokens of a text between two brackets. -/
theorem tokens_bracketed {opening closing : Char} {first last : Token} {lead text trail : List Char}
    (hopening : mark? opening = some first) (hclosing : mark? closing = some last)
    (hlead : ∀ c ∈ lead, isBlank c) (htext : ∀ fault, Token.fault fault ∉ tokens text)
    (htrail : ∀ c ∈ trail, isBlank c) :
    tokens (lead ++ opening :: (text ++ closing :: trail)) = first :: (tokens text ++ [last]) := by
  have hapart : Apart (closing :: trail) := apart_mark (by simp [hclosing]) trail
  rw [tokens_blanks hlead, tokens_mark hopening, tokens_append htext hapart, tokens_mark hclosing,
    tokens_eq_nil htrail]

/-- The tokens of two texts with a mark between them. -/
theorem tokens_append_mark {c : Char} {token : Token} {text : List Char}
    (hmark : mark? c = some token) (htext : ∀ fault, Token.fault fault ∉ tokens text) (rest : List Char) :
    tokens (text ++ c :: rest) = tokens text ++ token :: tokens rest := by
  rw [tokens_append htext (apart_mark (by simp [hmark]) rest), tokens_mark hmark]

mutual

theorem Written.complete_and_tokens {d : Document} {text : List Char} (h : Written d text) :
    d.Complete ∧ tokens text = d.lexemes := by
  cases h with
  | @scalar d token text hvalue htext =>
      cases token <;> cases hvalue <;> exact ⟨by constructor, htext⟩
  | emptyArray hlead hgap htrail =>
      have hnone := tokens_eq_nil hgap
      refine ⟨.array (by simp), ?_⟩
      rw [tokens_bracketed rfl rfl hlead (by simp [hnone]) htrail, hnone]
      rfl
  | array hlead hitems htrail =>
      obtain ⟨hcomplete, htokens⟩ := hitems.complete_and_tokens
      refine ⟨.array hcomplete, ?_⟩
      rw [tokens_bracketed rfl rfl hlead (htokens ▸ fun fault =>
        Document.fault_not_mem_itemLexemes fun item _ => item.fault_not_mem_lexemes fault) htrail,
        htokens]
      rfl
  | emptyObject hlead hgap htrail =>
      have hnone := tokens_eq_nil hgap
      refine ⟨.object (by simp), ?_⟩
      rw [tokens_bracketed rfl rfl hlead (by simp [hnone]) htrail, hnone]
      rfl
  | object hlead hmembers htrail =>
      obtain ⟨hcomplete, htokens⟩ := hmembers.complete_and_tokens
      refine ⟨.object hcomplete, ?_⟩
      rw [tokens_bracketed rfl rfl hlead (htokens ▸ fun fault =>
        Document.fault_not_mem_memberLexemes fun member _ => member.2.fault_not_mem_lexemes fault)
        htrail, htokens]
      rfl

theorem WrittenItems.complete_and_tokens {items : List Document} {text : List Char}
    (h : WrittenItems items text) :
    (∀ item ∈ items, item.Complete) ∧ tokens text = Document.itemLexemes items := by
  cases h with
  | one h =>
      obtain ⟨hcomplete, htokens⟩ := h.complete_and_tokens
      exact ⟨List.forall_mem_singleton.mpr hcomplete, htokens⟩
  | @more d items text rest h hitems =>
      obtain ⟨hcomplete, htokens⟩ := h.complete_and_tokens
      obtain ⟨hrest, hmore⟩ := hitems.complete_and_tokens
      have hne : items ≠ [] := by rintro rfl; cases hitems
      refine ⟨List.forall_mem_cons.mpr ⟨hcomplete, hrest⟩, ?_⟩
      rw [tokens_append_mark rfl (htokens ▸ fun fault => d.fault_not_mem_lexemes fault), htokens,
        hmore, Document.itemLexemes_cons hne]

theorem WrittenMembers.complete_and_tokens {members : List (Option String × Document)}
    {text : List Char} (h : WrittenMembers members text) :
    (∀ member ∈ members, member.2.Complete) ∧ tokens text = Document.memberLexemes members := by
  cases h with
  | one hname h =>
      obtain ⟨hcomplete, htokens⟩ := h.complete_and_tokens
      refine ⟨List.forall_mem_singleton.mpr hcomplete, ?_⟩
      rw [tokens_append_mark rfl (by simp [hname]), hname, htokens]
      rfl
  | @more key d members name text rest hname h hmembers =>
      obtain ⟨hcomplete, htokens⟩ := h.complete_and_tokens
      obtain ⟨hrest, hmore⟩ := hmembers.complete_and_tokens
      have hne : members ≠ [] := by rintro rfl; cases hmembers
      refine ⟨List.forall_mem_cons.mpr ⟨hcomplete, hrest⟩, ?_⟩
      rw [tokens_append_mark rfl (by simp [hname]), hname,
        tokens_append_mark rfl (htokens ▸ fun fault => d.fault_not_mem_lexemes fault), htokens,
        hmore, Document.memberLexemes_cons hne]
      rfl

end

/-! ### Texts with the tokens of a tree -/

theorem mark?_comma : mark? ',' = some .comma := rfl

theorem mark?_colon : mark? ':' = some .colon := rfl

/-- A text can be taken out of its brackets. -/
theorem exists_of_tokens_bracketed {opening closing : Char} {first last : Token}
    (hopening : mark? opening = some first) (hclosing : mark? closing = some last)
    {text : List Char} {inner : List Token} (h : tokens text = first :: (inner ++ [last])) :
    ∃ lead body trail, text = lead ++ opening :: (body ++ closing :: trail) ∧
      (∀ c ∈ lead, isBlank c) ∧ tokens body = inner ∧ ∀ c ∈ trail, isBlank c := by
  rw [← List.nil_append (first :: _)] at h
  obtain ⟨lead, rest, rfl, hlead, hrest⟩ := exists_of_tokens_mark hopening h
  obtain ⟨body, trail, rfl, hbody, htrail⟩ := exists_of_tokens_mark hclosing hrest
  exact ⟨lead, body, trail, rfl, blank_of_tokens_eq_nil hlead, hbody, blank_of_tokens_eq_nil htrail⟩

theorem exists_of_tokens_name {key : Option String} {text : List Char} {after : List Token}
    (h : tokens text = .string key :: .colon :: after) :
    ∃ name rest, text = name ++ ':' :: rest ∧ tokens name = [.string key] ∧ tokens rest = after :=
  exists_of_tokens_mark mark?_colon (List.singleton_append ▸ h)

theorem writtenItems_of_tokens {items : List Document} (hne : items ≠ [])
    (h : ∀ item ∈ items, ∀ text, tokens text = item.lexemes → Written item text)
    {text : List Char} (htext : tokens text = Document.itemLexemes items) :
    WrittenItems items text := by
  induction items generalizing text with
  | nil => exact absurd rfl hne
  | cons item items ih =>
      obtain ⟨hitem, hitems⟩ := List.forall_mem_cons.mp h
      cases items with
      | nil => exact .one (hitem text htext)
      | cons next items =>
          rw [Document.itemLexemes_cons (List.cons_ne_nil _ _)] at htext
          obtain ⟨first, rest, rfl, hfirst, hrest⟩ := exists_of_tokens_mark mark?_comma htext
          exact .more (hitem first hfirst) (ih (List.cons_ne_nil _ _) hitems hrest)

theorem writtenMembers_of_tokens {members : List (Option String × Document)} (hne : members ≠ [])
    (h : ∀ member ∈ members, ∀ text, tokens text = member.2.lexemes → Written member.2 text)
    {text : List Char} (htext : tokens text = Document.memberLexemes members) :
    WrittenMembers members text := by
  induction members generalizing text with
  | nil => exact absurd rfl hne
  | cons member members ih =>
      obtain ⟨key, value⟩ := member
      obtain ⟨hvalue, hmembers⟩ := List.forall_mem_cons.mp h
      cases members with
      | nil =>
          obtain ⟨name, rest, rfl, hname, hrest⟩ := exists_of_tokens_name htext
          exact .one hname (hvalue rest hrest)
      | cons next members =>
          rw [Document.memberLexemes_cons (List.cons_ne_nil _ _)] at htext
          obtain ⟨name, rest, rfl, hname, hrest⟩ := exists_of_tokens_name htext
          obtain ⟨first, rest, rfl, hfirst, hrest⟩ := exists_of_tokens_mark mark?_comma hrest
          exact .more hname (hvalue first hfirst) (ih (List.cons_ne_nil _ _) hmembers hrest)

theorem Document.Complete.written {d : Document} (h : d.Complete) {text : List Char}
    (htext : tokens text = d.lexemes) : Written d text := by
  induction h generalizing text with
  | null | bool | number | string => exact .scalar rfl htext
  | @array items _ ih =>
      obtain ⟨lead, body, trail, rfl, hlead, hbody, htrail⟩ :=
        exists_of_tokens_bracketed (show mark? '[' = _ from rfl) (show mark? ']' = _ from rfl) htext
      cases items with
      | nil => exact .emptyArray hlead (blank_of_tokens_eq_nil hbody) htrail
      | cons item items =>
          exact .array hlead (writtenItems_of_tokens (List.cons_ne_nil _ _)
            (fun item hitem text => ih item hitem) hbody) htrail
  | @object members _ ih =>
      obtain ⟨lead, body, trail, rfl, hlead, hbody, htrail⟩ :=
        exists_of_tokens_bracketed (show mark? '\x7b' = _ from rfl)
          (show mark? '\x7d' = _ from rfl) htext
      cases members with
      | nil => exact .emptyObject hlead (blank_of_tokens_eq_nil hbody) htrail
      | cons member members =>
          exact .object hlead (writtenMembers_of_tokens (List.cons_ne_nil _ _)
            (fun member hmember text => ih member hmember) hbody) htrail

/-- Reading a text finds a tree, with nothing wrong and nothing left over, exactly if the text is
written for that tree. -/
theorem written_iff {d : Document} {text : List Char} :
    Written d text ↔ d.Complete ∧ Document.readValue [] (tokens text) = (d, []) := by
  constructor
  · intro h
    obtain ⟨hcomplete, htokens⟩ := h.complete_and_tokens
    exact ⟨hcomplete, (Document.readValue_eq_iff hcomplete).mpr htokens⟩
  · rintro ⟨hcomplete, hread⟩
    exact hcomplete.written ((Document.readValue_eq_iff hcomplete).mp hread)

/-- The grammar is unambiguous. -/
theorem Written.unique {d d' : Document} {text : List Char} (h : Written d text)
    (h' : Written d' text) : d = d' :=
  (Prod.mk.inj ((written_iff.mp h).2.symm.trans (written_iff.mp h').2)).1

/-- A printed value is written for the tree of the value. -/
theorem Integral.written {style : Style} (hstyle : style.Blank) {value : Json}
    (h : value.Integral) : Written value.document (value.letters style 0) := by
  refine written_iff.mpr ⟨complete_document value, ?_⟩
  rw [tokens_letters hstyle h, Document.readValue_lexemes]

theorem Integral.written_compact {value : Json} (h : value.Integral) :
    Written value.document value.compact.toList := by
  rw [compact, String.toList_ofList]
  exact h.written Style.blank_compact

namespace Decoder

variable {α : Type} {decoder : Decoder α} {text : String}

/-- Decoding a text is decoding the tree that it is written for. -/
theorem run_of_written {d : Document} (h : Written d text.toList) :
    decoder.run text = decoder d := by
  rw [run, (written_iff.mp h).2]
  dsimp only
  cases decoder d <;> rfl

/-- A decoder that accepts no tree with something wrong accepts only texts of the grammar. -/
theorem exists_written_of_run {a : α} (hdecoder : ∀ d, decoder d = .ok a → d.Complete)
    (h : decoder.run text = .ok a) : ∃ d, Written d text.toList ∧ decoder d = .ok a := by
  obtain ⟨b, hb, h⟩ := bind_eq_ok_iff.mp h
  split at h
  · rename_i hrest
    obtain rfl := Except.ok.inj h
    refine ⟨_, written_iff.mpr ⟨hdecoder _ hb, ?_⟩, hb⟩
    exact Prod.ext rfl (List.isEmpty_iff.mp hrest)
  · contradiction

end Decoder

end FabricConfig.Json
