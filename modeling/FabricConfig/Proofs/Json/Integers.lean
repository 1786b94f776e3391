import FabricConfig.Proofs.Json.Reading

/-! A text whose numbers are all 64-bit integers is read as a value of which the same is true. -/

namespace FabricConfig.Json

/-- Tokens among which all numbers are 64-bit integers. -/
def IntegersOnly (tokens : List Token) : Prop :=
  ∀ n, Token.number n ∈ tokens → ∃ m : Number, n = some m ∧ m.Integral

@[simp] theorem integersOnly_nil : IntegersOnly [] :=
  fun _ hn => absurd hn List.not_mem_nil

@[simp] theorem integersOnly_cons_iff {token : Token} {rest : List Token} :
    IntegersOnly (token :: rest) ↔
      (∀ n, token = .number n → ∃ m : Number, n = some m ∧ m.Integral) ∧ IntegersOnly rest := by
  simp only [IntegersOnly, List.mem_cons]
  constructor
  · exact fun h => ⟨fun n hn => h n (.inl hn.symm), fun n hn => h n (.inr hn)⟩
  · rintro ⟨hfirst, hrest⟩ n (hn | hn)
    · exact hfirst n hn.symm
    · exact hrest n hn

namespace Document

/-- A tree in which all numbers are 64-bit integers. -/
inductive Integral : Document → Prop where
  | null : Integral .null
  | bool (b : Bool) : Integral (.bool b)
  | number {n : Number} (h : n.Integral) : Integral (.number (some n))
  | string (s : Option String) : Integral (.string s)
  | array {items : List Document} {stop : Stop} (h : ∀ item ∈ items, Integral item) :
      Integral (.array items stop)
  | object {members : List (Option String × Document)} {stop : Stop}
      (h : ∀ member ∈ members, Integral member.2) : Integral (.object members stop)
  | noValue (found : Option Token) : Integral (.noValue found)
  | noColon (found : Option Token) : Integral (.noColon found)

attribute [simp] Integral.null Integral.bool Integral.string Integral.noValue Integral.noColon

@[simp] theorem integral_number_iff {n : Option Number} :
    (Document.number n).Integral ↔ ∃ m : Number, n = some m ∧ m.Integral :=
  ⟨fun | .number h => ⟨_, rfl, h⟩, fun ⟨_, hn, hm⟩ => hn ▸ .number hm⟩

@[simp] theorem integral_array_iff {items : List Document} {stop : Stop} :
    (Document.array items stop).Integral ↔ ∀ item ∈ items, item.Integral :=
  ⟨fun | .array h => h, .array⟩

@[simp] theorem integral_object_iff {members : List (Option String × Document)} {stop : Stop} :
    (Document.object members stop).Integral ↔ ∀ member ∈ members, member.2.Integral :=
  ⟨fun | .object h => h, .object⟩

/-- An open container in which all numbers so far are 64-bit integers. -/
def Frame.Integral : Frame → Prop
  | .array items => ∀ item ∈ items, item.Integral
  | .object members _ => ∀ member ∈ members, member.2.Integral

@[simp] theorem Frame.integral_array_iff {items : List Document} :
    (Frame.array items).Integral ↔ ∀ item ∈ items, item.Integral :=
  Iff.rfl

@[simp] theorem Frame.integral_object_iff {members : List (Option String × Document)}
    {key : Option String} :
    (Frame.object members key).Integral ↔ ∀ member ∈ members, member.2.Integral :=
  Iff.rfl

theorem integral_breakOff {frames : List Frame} {d : Document}
    (hframes : ∀ frame ∈ frames, frame.Integral) (hd : d.Integral) :
    (breakOff frames d).Integral := by
  induction frames generalizing d with
  | nil => exact hd
  | cons frame frames ih =>
      obtain ⟨hframe, hrest⟩ := List.forall_mem_cons.mp hframes
      cases frame with
      | array items => exact ih hrest (by simpa [or_imp, forall_and, hd] using hframe)
      | object members key => exact ih hrest (by simpa [or_imp, forall_and, hd] using hframe)

theorem integral_readValue :
    (∀ (frames : List Frame) (tokens : List Token), (∀ frame ∈ frames, frame.Integral) →
      IntegersOnly tokens → (readValue frames tokens).1.Integral) ∧
    (∀ (frames : List Frame) (d : Document) (tokens : List Token),
      (∀ frame ∈ frames, frame.Integral) → d.Integral → IntegersOnly tokens →
        (readAfter frames d tokens).1.Integral) := by
  apply readValue.mutual_induct
    (fun frames tokens => (∀ frame ∈ frames, frame.Integral) →
      IntegersOnly tokens → (readValue frames tokens).1.Integral)
    (fun frames d tokens => (∀ frame ∈ frames, frame.Integral) → d.Integral →
      IntegersOnly tokens → (readAfter frames d tokens).1.Integral)
  case case3 =>
    intro frames n rest ih hframes htokens
    obtain ⟨hn, hrest⟩ := integersOnly_cons_iff.mp htokens
    rw [readValue]
    exact ih hframes (integral_number_iff.mpr (hn n rfl)) hrest
  -- no other token brings a number: reading goes on with what was there, or breaks off
  all_goals
    intros
    simp_all [readValue, readAfter, integral_breakOff, or_imp, forall_and, -Prod.forall]

theorem integral_ofText {text : String} (h : IntegersOnly (tokens text.toList)) :
    (ofText text).Integral :=
  integral_readValue.1 [] _ (fun _ hframe => absurd hframe List.not_mem_nil) h

theorem integral_of_value {room : Nat} {d : Document} {value : Json} (hd : d.Integral)
    (h : d.value room = .ok value) : value.Integral := by
  induction hd generalizing room value with
  | null =>
      obtain rfl := Except.ok.inj h
      exact .null
  | bool b =>
      obtain rfl := Except.ok.inj h
      exact .bool b
  | number hn =>
      obtain rfl := Except.ok.inj h
      exact .number hn
  | string s =>
      cases s with
      | none => contradiction
      | some s =>
          obtain rfl := Except.ok.inj h
          exact .string s
  | array _ ih =>
      obtain ⟨inner, values, rfl, rfl, hvalues⟩ := exists_of_value_array h
      refine .array fun v hv => ?_
      obtain ⟨item, hitem, hread⟩ := hvalues v hv
      exact ih item hitem hread
  | object _ ih =>
      obtain ⟨inner, entries, rfl, rfl, -, hentries⟩ := exists_of_value_object h
      refine .object fun entry hentry => ?_
      obtain ⟨member, hmember, hread⟩ := hentries entry hentry
      exact ih member hmember hread
  | noValue found => contradiction
  | noColon found => contradiction

end Document

end FabricConfig.Json
