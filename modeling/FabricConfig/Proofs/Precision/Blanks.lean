import FabricConfig.Proofs.Precision.Grammar
import Mathlib.Data.List.Basic

/-! White space around the parts of a spec means nothing, whether the spec is read or refused. It is
taken away in three places, which agree on what it is: around the whole, before the opening bracket
and around each parameter. -/

namespace FabricConfig

namespace Text

/-! ### Texts with white space around them -/

/-- A text and the same text with white space around it. -/
def Padding (text padded : List Char) : Prop :=
  ∃ before after, AllBlank before ∧ AllBlank after ∧ padded = before ++ text ++ after

theorem allBlank_nil : AllBlank [] :=
  fun _ hc => absurd hc List.not_mem_nil

theorem AllBlank.append {first second : List Char} (hfirst : AllBlank first)
    (hsecond : AllBlank second) : AllBlank (first ++ second) := by
  intro c hc
  rcases List.mem_append.mp hc with hc | hc
  · exact hfirst c hc
  · exact hsecond c hc

theorem AllBlank.not_mem {text : List Char} (h : AllBlank text) {c : Char} (hc : ¬ isBlank c) :
    c ∉ text :=
  fun hmem => hc (h c hmem)

theorem Padding.trim_eq {text padded : List Char} (h : Padding text padded) :
    trim padded = trim text := by
  obtain ⟨before, after, hbefore, hafter, rfl⟩ := h
  obtain ⟨before', after', hbefore', hafter', hcore, htext⟩ := surrounds_trim text
  refine trim_eq_iff.mpr ⟨before ++ before', after' ++ after, hbefore.append hbefore',
    hafter'.append hafter, hcore, ?_⟩
  nth_rewrite 1 [htext]
  simp only [List.append_assoc]

theorem Padding.mem_iff {text padded : List Char} (h : Padding text padded) {c : Char}
    (hc : ¬ isBlank c) : c ∈ padded ↔ c ∈ text := by
  obtain ⟨before, after, hbefore, hafter, rfl⟩ := h
  simp [hbefore.not_mem hc, hafter.not_mem hc]

/-- What is not white space stops the trimming. -/
theorem trimStart_append_cons {c : Char} (hc : ¬ isBlank c) (text rest : List Char) :
    trimStart (text ++ c :: rest) = trimStart text ++ c :: rest := by
  induction text with
  | nil => exact List.dropWhile_cons_of_neg hc
  | cons d text ih =>
      by_cases hd : isBlank d
      · simpa [trimStart, hd] using ih
      · simp [trimStart, hd]

/-! ### Pieces with white space around them -/

theorem join_cons_cons (sep : Char) (first second : List Char) (rest : List (List Char)) :
    join sep (first :: second :: rest) = first ++ sep :: join sep (second :: rest) :=
  rfl

theorem split_append_sep (sep : Char) (first second : List Char) :
    split sep (first ++ sep :: second) = split sep first ++ split sep second := by
  simp only [split_eq_splitOn, List.splitOn_append_cons_self]

theorem split_append_of_not_mem {sep : Char} {before : List Char} (h : sep ∉ before)
    (text : List Char) :
    split sep (before ++ text) = (split sep text).modifyHead (before ++ ·) := by
  induction before with
  | nil =>
      rw [List.nil_append]
      cases split sep text <;> rfl
  | cons c before ih =>
      obtain ⟨hc, hbefore⟩ := not_or.mp (mt List.mem_cons.mpr h)
      rw [List.cons_append, split, if_neg (Ne.symm hc), ih hbefore, List.modifyHead_modifyHead]
      rfl

/-- White space at the end of a text goes to its last piece. -/
theorem forall₂_split_append {sep : Char} (hsep : ¬ isBlank sep) {after : List Char}
    (hafter : AllBlank after) (text : List Char) :
    List.Forall₂ (fun piece padded => ∃ tail, AllBlank tail ∧ padded = piece ++ tail)
      (split sep text) (split sep (text ++ after)) := by
  induction text with
  | nil =>
      have hafterPiece : split sep after = [after] :=
        split_eq_iff.mpr ⟨by simp, by simpa using hafter.not_mem hsep, rfl⟩
      rw [List.nil_append, hafterPiece]
      exact .cons ⟨after, hafter, rfl⟩ .nil
  | cons c text ih =>
      rw [List.cons_append, split, split]
      split
      · exact .cons ⟨[], allBlank_nil, rfl⟩ ih
      · revert ih
        generalize split sep text = pieces, split sep (text ++ after) = padded
        rintro (_ | ⟨⟨tail, htail, rfl⟩, hrest⟩)
        · exact .nil
        · exact .cons ⟨tail, htail, rfl⟩ hrest

theorem Padding.forall₂_split {sep : Char} (hsep : ¬ isBlank sep) {text padded : List Char}
    (h : Padding text padded) : List.Forall₂ Padding (split sep text) (split sep padded) := by
  obtain ⟨before, after, hbefore, hafter, rfl⟩ := h
  rw [List.append_assoc, split_append_of_not_mem (hbefore.not_mem hsep)]
  have hsplit := forall₂_split_append hsep hafter text
  revert hsplit
  generalize split sep text = pieces, split sep (text ++ after) = padded
  rintro (_ | ⟨⟨tail, htail, rfl⟩, hrest⟩)
  · exact .nil
  · refine .cons ⟨before, tail, hbefore, htail, by simp⟩ (hrest.imp ?_)
    rintro piece _ ⟨tail', htail', rfl⟩
    exact ⟨[], tail', allBlank_nil, htail', rfl⟩

theorem map_trim_of_padding {pieces padded : List (List Char)}
    (h : List.Forall₂ Padding pieces padded) : padded.map trim = pieces.map trim := by
  induction h with
  | nil => rfl
  | cons hfirst hrest ih => rw [List.map_cons, List.map_cons, hfirst.trim_eq, ih]

/-- The pieces of a text may have separators inside, so that they are cut further. -/
theorem map_trim_split_join {sep : Char} (hsep : ¬ isBlank sep) {pieces padded : List (List Char)}
    (h : List.Forall₂ Padding pieces padded) :
    (split sep (join sep padded)).map trim = (split sep (join sep pieces)).map trim := by
  induction h with
  | nil => rfl
  | cons hfirst hrest ih =>
      have hpieces := map_trim_of_padding (hfirst.forall₂_split hsep)
      cases hrest with
      | nil => exact hpieces
      | cons hsecond hrest =>
          rw [join_cons_cons, join_cons_cons, split_append_sep, split_append_sep, List.map_append,
            List.map_append, hpieces, ih]

theorem mem_join_iff {sep c : Char} (hc : ¬ isBlank c) {pieces padded : List (List Char)}
    (h : List.Forall₂ Padding pieces padded) : c ∈ join sep padded ↔ c ∈ join sep pieces := by
  induction h with
  | nil => rfl
  | cons hfirst hrest ih =>
      cases hrest with
      | nil => exact hfirst.mem_iff hc
      | cons hsecond hrest =>
          rw [join_cons_cons, join_cons_cons, List.mem_append, List.mem_append, List.mem_cons,
            List.mem_cons, hfirst.mem_iff hc, ih]

end Text

open Text

namespace Precision

/-! ### What stands before the brackets -/

/-- The text before the brackets, without the white space after it. -/
def Heading (text : List Char) (signed : Bool) (family : Family) : Prop :=
  ∃ start, (start = [] ∨ start = "ap_".toList) ∧
    text = start ++ ((if signed then [] else ['u']) ++ family.keyword)

theorem Heading.not_mem {text : List Char} {signed : Bool} {family : Family}
    (h : Heading text signed family) : '<' ∉ text := by
  obtain ⟨start, rfl | rfl, rfl⟩ := h <;> cases signed <;> cases family <;> decide

theorem Heading.trimEnd_eq {text : List Char} {signed : Bool} {family : Family}
    (h : Heading text signed family) : trimEnd text = text := by
  obtain ⟨start, rfl | rfl, rfl⟩ := h <;> cases signed <;> cases family <;> decide

theorem bracketed_iff {front body inner : List Char} {signed : Bool} {family : Family} :
    Bracketed (front ++ ('<' :: body ++ ['>'])) signed family inner ↔
      inner = body ∧ '<' ∉ body ∧ '>' ∉ body ∧ Heading (trimEnd front) signed family := by
  constructor
  · rintro ⟨start, blanks, hstart, hblanks, hopen, hclose, htext⟩
    have hheading : Heading (start ++ ((if signed then [] else ['u']) ++ family.keyword)) signed
        family := ⟨start, hstart, rfl⟩
    generalize hword : start ++ ((if signed then [] else ['u']) ++ family.keyword) = word at hheading
    have hfront : '<' ∉ word ++ blanks := by
      simpa using ⟨hheading.not_mem, hblanks.not_mem (by decide)⟩
    have hinner : '<' ∉ inner ++ ['>'] := by simpa using hopen
    have hparts : word ++ blanks ++ '<' :: (inner ++ ['>']) = front ++ '<' :: (body ++ ['>']) := by
      rw [← hword]
      simpa using htext.symm
    obtain ⟨rfl, -, hbody⟩ := (List.append_cons_inj_of_notMem hfront hinner).mp hparts
    obtain rfl := List.append_cancel_right hbody
    refine ⟨rfl, hopen, hclose, ?_⟩
    rwa [trimEnd_append_of_allBlank hblanks, hheading.trimEnd_eq]
  · rintro ⟨rfl, hopen, hclose, start, hstart, hfront⟩
    refine ⟨start, front.rtakeWhile isBlank, hstart, fun c hc => List.mem_rtakeWhile_imp hc, hopen,
      hclose, ?_⟩
    nth_rewrite 1 [← trimEnd_append_rtakeWhile front]
    rw [hfront]
    simp only [List.append_assoc]

/-- A text with brackets is taken apart by what stands before them and by its trimmed parameters. -/
theorem Form.ofText?_congr {front front' body body' : List Char}
    (hfront : trimEnd front' = trimEnd front) (hopen : '<' ∈ body' ↔ '<' ∈ body)
    (hclose : '>' ∈ body' ↔ '>' ∈ body)
    (hparams : (split ',' body').map trim = (split ',' body).map trim) :
    ofText? (front' ++ ('<' :: body' ++ ['>'])) = ofText? (front ++ ('<' :: body ++ ['>'])) := by
  ext form
  simp only [ofText?_eq_some_iff, bracketed_iff, and_assoc, exists_eq_left, hfront, hopen, hclose,
    hparams]

/-! ### The reader -/

theorem ofName?_of_mem {text : List Char} (h : '<' ∈ text) :
    (Named.ofName? (String.ofList text) : Option FloatKind) = none := by
  rw [Named.ofName?_eq_none_iff]
  rintro kind hname
  rw [← String.toList_ofList (l := text), ← hname] at h
  cases kind <;> revert h <;> decide

theorem ofTrimmed_congr {text text' : List Char} (h : '<' ∈ text) (h' : '<' ∈ text')
    (hform : Form.ofText? text' = Form.ofText? text) : ofTrimmed text' = ofTrimmed text := by
  rw [ofTrimmed, ofTrimmed, ofName?_of_mem h, ofName?_of_mem h', hform]

theorem trim_brackets (head body : List Char) :
    trim (head ++ ('<' :: body ++ ['>'])) = trimStart head ++ ('<' :: body ++ ['>']) := by
  rw [trim, List.cons_append, trimStart_append_cons (by decide)]
  apply trimEnd_eq_self
  intro c hc
  obtain rfl : '>' = c := by simpa [List.getLast?_cons] using hc
  decide

theorem parse_padded (head : List Char) {before blanks after : List Char}
    {pieces padded : List (List Char)} (hpieces : List.Forall₂ Padding pieces padded)
    (hbefore : AllBlank before) (hblanks : AllBlank blanks) (hafter : AllBlank after) :
    parse (String.ofList
        (before ++ (head ++ blanks ++ ('<' :: join ',' padded ++ ['>'])) ++ after)) =
      parse (String.ofList (head ++ ('<' :: join ',' pieces ++ ['>']))) := by
  have houter : Padding (head ++ blanks ++ ('<' :: join ',' padded ++ ['>'])) _ :=
    ⟨before, after, hbefore, hafter, rfl⟩
  have hhead : Padding head (head ++ blanks) := ⟨[], blanks, allBlank_nil, hblanks, rfl⟩
  have hform := Form.ofText?_congr hhead.trim_eq (mem_join_iff (by decide) hpieces)
    (mem_join_iff (by decide) hpieces) (map_trim_split_join (by decide) hpieces)
  rw [parse, parse, String.toList_ofList, String.toList_ofList, houter.trim_eq, trim_brackets,
    trim_brackets]
  exact ofTrimmed_congr (by simp) (by simp) hform

end Precision

/-- White space before and after a spec, before its opening bracket and around its parameters does
not matter: the spec is read as the same precision or refused for the same reason. -/
theorem readPrecision_padded (head : List Char) {before blanks after : List Char}
    {pieces padded : List (List Char)} (hpieces : List.Forall₂ Padding pieces padded)
    (hbefore : AllBlank before) (hblanks : AllBlank blanks) (hafter : AllBlank after) :
    let spec := String.ofList (head ++ ('<' :: join ',' pieces ++ ['>']))
    let spaced := String.ofList
      (before ++ (head ++ blanks ++ ('<' :: join ',' padded ++ ['>'])) ++ after)
    (∃ p, readPrecision spaced = .ok p ∧ readPrecision spec = .ok p) ∨
      ∃ reason, readPrecision spaced = .error (.invalidPrecision spaced reason) ∧
        readPrecision spec = .error (.invalidPrecision spec reason) := by
  intro spec spaced
  have hparse : Precision.parse spaced = Precision.parse spec :=
    Precision.parse_padded head hpieces hbefore hblanks hafter
  simp only [readPrecision_eq_ok_iff, readPrecision_eq_error_iff, hparse]
  cases Precision.parse spec with
  | ok p => exact .inl ⟨p, rfl, rfl⟩
  | error fault => exact .inr ⟨fault.message, ⟨fault, rfl, rfl⟩, ⟨fault, rfl, rfl⟩⟩

/-- A parameter that holds a comma is two, and each of them has its own white space. What a refusal
quotes has none. -/
theorem readPrecision_padded_inner_comma :
    let pieces := ["16", "6 , RND", "x"].map String.toList
    let padded := ["\u3000" ++ "16", "6 , RND\n", "\u00a0x\t"].map String.toList
    let spec := String.ofList ("ufixed".toList ++ ('<' :: join ',' pieces ++ ['>']))
    let spaced := String.ofList
      ([' '] ++ ("ufixed".toList ++ ['\t'] ++ ('<' :: join ',' padded ++ ['>'])) ++ ['\u2003'])
    let reason := "unknown saturation mode 'x'"
    List.Forall₂ Padding pieces padded ∧ AllBlank [' '] ∧ AllBlank ['\t'] ∧ AllBlank ['\u2003'] ∧
      readPrecision spec = .error (.invalidPrecision spec reason) ∧
      readPrecision spaced = .error (.invalidPrecision spaced reason) := by
  intro pieces padded spec spaced reason
  have hpieces : List.Forall₂ Padding pieces padded :=
    .cons ⟨['\u3000'], [], by decide, by decide, rfl⟩
      (.cons ⟨[], ['\n'], by decide, by decide, rfl⟩
        (.cons ⟨['\u00a0'], ['\t'], by decide, by decide, rfl⟩ .nil))
  have hbefore : AllBlank [' '] := by decide
  have hblanks : AllBlank ['\t'] := by decide
  have hafter : AllBlank ['\u2003'] := by decide
  have hrefused : readPrecision spec = .error (.invalidPrecision spec reason) := by decide
  refine ⟨hpieces, hbefore, hblanks, hafter, hrefused, ?_⟩
  obtain ⟨p, -, hread⟩ | ⟨found, hspaced, hfound⟩ :=
    readPrecision_padded "ufixed".toList hpieces hbefore hblanks hafter
  · cases hread.symm.trans hrefused
  · have hsame := Except.error.inj (hfound.symm.trans hrefused)
    rw [← (CatalogError.invalidPrecision.inj hsame).2]
    exact hspaced

end FabricConfig
