import ContactSheet.Options
import ContactSheet.Proofs.Json.Members
import ContactSheet.Proofs.Json.Writing

/-!
# What a mapping says of its options

A mapping comes as a text or as members that have been read already, and either way its options are made of the values given for
them under their two spellings (`OptionName.given`): each option is the only value given for it, read as the option's kind
(`OptionName.said?`), and the mapping is refused when one cannot be had (`ofNamed?_eq_some_iff`, `ofNamed?_eq_none_iff`). So the
order of the members, their spelling and the members of other names do not matter, which `Mapping.given_decides` says of both forms.
-/

namespace ContactSheet

/-! ## Kinds of options -/

/-- The kinds of values that options take. -/
inductive OptionKind where
  | flag | integer | seconds | text | compile

/-- The values of a kind. -/
def OptionKind.Value : OptionKind → Type
  | .flag => Bool
  | .integer => Int
  | .seconds => Float
  | .text => String
  | .compile => CompileChoice

/-- The kind of an option. -/
def OptionName.kind : OptionName → OptionKind
  | .enabled => .flag
  | .maxSize => .integer
  | .maxWidth => .integer
  | .maxHeight => .integer
  | .maxBatch => .integer
  | .maxBatchCols => .integer
  | .throttleSecs => .seconds
  | .maxedBatchStepMode => .flag
  | .previewDevice => .text
  | .skipUpscaleLayers => .integer
  | .compilePreviewer => .compile
  | .oomFallback => .text
  | .oomRetry => .flag

/-- Reads a value as one of the kind. `room` bounds the nesting of a compile choice. -/
def OptionKind.read? (room : Option Nat) : (kind : OptionKind) → Json → Option kind.Value
  | .flag => Json.bool?
  | .integer => Json.int?
  | .seconds => Json.float?
  | .text => Json.string?
  | .compile => CompileChoice.ofJson? room

/-- The value of an option, if it has one. -/
def RawOptions.value (raw : RawOptions) : (o : OptionName) → Option o.kind.Value
  | .enabled => raw.enabled
  | .maxSize => raw.maxSize
  | .maxWidth => raw.maxWidth
  | .maxHeight => raw.maxHeight
  | .maxBatch => raw.maxBatch
  | .maxBatchCols => raw.maxBatchCols
  | .throttleSecs => raw.throttleSecs
  | .maxedBatchStepMode => raw.maxedBatchStepMode
  | .previewDevice => raw.previewDevice
  | .skipUpscaleLayers => raw.skipUpscaleLayers
  | .compilePreviewer => raw.compilePreviewer
  | .oomFallback => raw.oomFallback
  | .oomRetry => raw.oomRetry

/-- The options of these values. -/
def RawOptions.ofValues (value : (o : OptionName) → Option o.kind.Value) : RawOptions where
  enabled := value .enabled
  maxSize := value .maxSize
  maxWidth := value .maxWidth
  maxHeight := value .maxHeight
  maxBatch := value .maxBatch
  maxBatchCols := value .maxBatchCols
  throttleSecs := value .throttleSecs
  maxedBatchStepMode := value .maxedBatchStepMode
  previewDevice := value .previewDevice
  skipUpscaleLayers := value .skipUpscaleLayers
  compilePreviewer := value .compilePreviewer
  oomFallback := value .oomFallback
  oomRetry := value .oomRetry

theorem RawOptions.value_ofValues (value : (o : OptionName) → Option o.kind.Value) (o : OptionName) :
    (RawOptions.ofValues value).value o = value o := by
  cases o <;> rfl

theorem OptionName.mem_all (o : OptionName) : o ∈ OptionName.all := by
  cases o <;> decide

/-- Options are made of the values given for them, each read as its kind. -/
theorem RawOptions.ofFields?_map_iff {room : Option Nat} {given : OptionName → Option Json} {raw : RawOptions} :
    RawOptions.ofFields? room (OptionName.all.map given) = some raw ↔
      ∀ o, Json.optional? (o.kind.read? room) (given o) = some (raw.value o) := by
  -- The fields are read one after the other, in the order of the options.
  constructor
  · intro h o
    obtain ⟨_, h1, h⟩ := Option.bind_eq_some_iff.1 h
    obtain ⟨_, h2, h⟩ := Option.bind_eq_some_iff.1 h
    obtain ⟨_, h3, h⟩ := Option.bind_eq_some_iff.1 h
    obtain ⟨_, h4, h⟩ := Option.bind_eq_some_iff.1 h
    obtain ⟨_, h5, h⟩ := Option.bind_eq_some_iff.1 h
    obtain ⟨_, h6, h⟩ := Option.bind_eq_some_iff.1 h
    obtain ⟨_, h7, h⟩ := Option.bind_eq_some_iff.1 h
    obtain ⟨_, h8, h⟩ := Option.bind_eq_some_iff.1 h
    obtain ⟨_, h9, h⟩ := Option.bind_eq_some_iff.1 h
    obtain ⟨_, h10, h⟩ := Option.bind_eq_some_iff.1 h
    obtain ⟨_, h11, h⟩ := Option.bind_eq_some_iff.1 h
    obtain ⟨_, h12, h⟩ := Option.bind_eq_some_iff.1 h
    obtain ⟨_, h13, h⟩ := Option.bind_eq_some_iff.1 h
    cases h
    cases o <;> assumption
  · intro h
    refine Option.bind_eq_some_iff.2 ⟨_, h .enabled, ?_⟩
    refine Option.bind_eq_some_iff.2 ⟨_, h .maxSize, ?_⟩
    refine Option.bind_eq_some_iff.2 ⟨_, h .maxWidth, ?_⟩
    refine Option.bind_eq_some_iff.2 ⟨_, h .maxHeight, ?_⟩
    refine Option.bind_eq_some_iff.2 ⟨_, h .maxBatch, ?_⟩
    refine Option.bind_eq_some_iff.2 ⟨_, h .maxBatchCols, ?_⟩
    refine Option.bind_eq_some_iff.2 ⟨_, h .throttleSecs, ?_⟩
    refine Option.bind_eq_some_iff.2 ⟨_, h .maxedBatchStepMode, ?_⟩
    refine Option.bind_eq_some_iff.2 ⟨_, h .previewDevice, ?_⟩
    refine Option.bind_eq_some_iff.2 ⟨_, h .skipUpscaleLayers, ?_⟩
    refine Option.bind_eq_some_iff.2 ⟨_, h .compilePreviewer, ?_⟩
    refine Option.bind_eq_some_iff.2 ⟨_, h .oomFallback, ?_⟩
    refine Option.bind_eq_some_iff.2 ⟨_, h .oomRetry, ?_⟩
    rfl

/-! ## Options by their names -/

/-- The values given for an option, in the order of the members. -/
def OptionName.given (o : OptionName) (members : List (String × Json)) : List Json := Json.valuesUnder o.spellings members

/-- What the members say of an option: its only value, read as its kind, or nothing when it is left out or null. -/
def OptionName.said? (room : Option Nat) (members : List (String × Json)) (o : OptionName) : Option (Option o.kind.Value) :=
  (Json.sole? (o.given members)).bind (Json.optional? (o.kind.read? room))

/-- The options of members by their names. -/
def RawOptions.ofNamed? (room : Option Nat) (members : List (String × Json)) : Option RawOptions :=
  (Json.memberFields? RawOptions.fieldNames members).bind (RawOptions.ofFields? room)

/-- The members make options up that have the values said of them. -/
theorem RawOptions.ofNamed?_eq_some_iff {room : Option Nat} {members : List (String × Json)} {raw : RawOptions} :
    RawOptions.ofNamed? room members = some raw ↔ ∀ o : OptionName, o.said? room members = some (raw.value o) := by
  constructor
  · intro h o
    obtain ⟨values, hvalues, hraw⟩ := Option.bind_eq_some_iff.1 h
    obtain ⟨given, hgiven, rfl⟩ := Json.memberFields?_iff.1 hvalues
    have hsole : Json.sole? (o.given members) = some (given o) := hgiven o o.mem_all
    rw [OptionName.said?, hsole, Option.bind_some]
    exact RawOptions.ofFields?_map_iff.1 hraw o
  · intro h
    have hsaid : ∀ o : OptionName, ∃ given, Json.sole? (o.given members) = some given ∧
        Json.optional? (o.kind.read? room) given = some (raw.value o) := fun o => Option.bind_eq_some_iff.1 (h o)
    choose given hsole hread using hsaid
    exact Option.bind_eq_some_iff.2
      ⟨_, Json.memberFields?_iff.2 ⟨given, fun o _ => hsole o, rfl⟩, RawOptions.ofFields?_map_iff.2 hread⟩

/-- The members are refused when what they say of some option cannot be had. -/
theorem RawOptions.ofNamed?_eq_none_iff {room : Option Nat} {members : List (String × Json)} :
    RawOptions.ofNamed? room members = none ↔ ∃ o : OptionName, o.said? room members = none := by
  constructor
  · intro h
    by_contra hno
    have hsaid : ∀ o : OptionName, ∃ value, o.said? room members = some value := by
      intro o
      exact Option.ne_none_iff_exists'.1 fun hnone => hno ⟨o, hnone⟩
    choose value hvalue using hsaid
    have hraw : RawOptions.ofNamed? room members = some (.ofValues value) := by
      refine RawOptions.ofNamed?_eq_some_iff.2 fun o => ?_
      rw [hvalue, RawOptions.value_ofValues]
    rw [h] at hraw
    cases hraw
  · rintro ⟨o, ho⟩
    rw [Option.eq_none_iff_forall_ne_some]
    intro raw hraw
    rw [RawOptions.ofNamed?_eq_some_iff.1 hraw o] at ho
    cases ho

/-- Members that say the same of every option make the same options up. -/
theorem RawOptions.ofNamed?_congr {room room' : Option Nat} {members members' : List (String × Json)}
    (h : ∀ o : OptionName, o.said? room members = o.said? room' members') :
    RawOptions.ofNamed? room members = RawOptions.ofNamed? room' members' := by
  refine Option.ext fun raw => ?_
  rw [RawOptions.ofNamed?_eq_some_iff, RawOptions.ofNamed?_eq_some_iff]
  exact forall_congr' fun o => by rw [h]

/-- What is said of an option that is given no two values: nothing, when it is given none or null, and else what is read. -/
theorem OptionName.said?_cases {members : List (String × Json)} {o : OptionName} (h : (o.given members).length ≤ 1) :
    ((∀ v ∈ o.given members, v = .null) ∧ ∀ room, o.said? room members = some none) ∨
      ∃ v, o.given members = [v] ∧ v ≠ .null ∧ ∀ room, o.said? room members = (o.kind.read? room v).map some := by
  simp only [OptionName.said?]
  match hgiven : o.given members with
  | [] => exact .inl ⟨fun v hv => absurd hv List.not_mem_nil, fun _ => rfl⟩
  | [v] =>
    by_cases hv : v = .null
    · subst hv
      exact .inl ⟨fun v hv => List.mem_singleton.1 hv, fun _ => rfl⟩
    · exact .inr ⟨v, rfl, hv, fun _ => Json.optional?_some hv⟩
  | v :: w :: rest =>
    rw [hgiven] at h
    simp at h

/-- Nothing can be said of an option that is given two values. -/
theorem OptionName.said?_twice {members : List (String × Json)} {o : OptionName} (h : 2 ≤ (o.given members).length)
    (room : Option Nat) : o.said? room members = none := by
  rw [OptionName.said?, Json.sole?_eq_none_iff.2 h, Option.bind_none]

/-- Nothing can be said of an option that is given no two values exactly when it is given one that cannot be read. -/
theorem OptionName.said?_eq_none_iff {members : List (String × Json)} {o : OptionName} (h : (o.given members).length ≤ 1)
    {room : Option Nat} :
    o.said? room members = none ↔ ∃ v ∈ o.given members, v ≠ .null ∧ o.kind.read? room v = none := by
  rcases OptionName.said?_cases h with ⟨hnull, hsaid⟩ | ⟨v, hgiven, hv, hsaid⟩
  · rw [hsaid]
    constructor
    · intro hnone
      cases hnone
    · rintro ⟨v, hmem, hv, -⟩
      exact absurd (hnull v hmem) hv
  · rw [hsaid, hgiven, Option.map_eq_none_iff]
    constructor
    · intro hnone
      exact ⟨v, List.mem_singleton_self v, hv, hnone⟩
    · rintro ⟨w, hmem, -, hnone⟩
      rwa [List.mem_singleton.1 hmem] at hnone

/-- What is said of an option is nothing where it is given nothing but null, and else what is read of the value. -/
theorem OptionName.value_of_said? {members : List (String × Json)} {o : OptionName} {room : Option Nat}
    {value : Option o.kind.Value} (h : o.said? room members = some value) :
    ((∀ v ∈ o.given members, v = .null) → value = none) ∧
      ∀ v ∈ o.given members, v ≠ .null → value = o.kind.read? room v := by
  have hlen : (o.given members).length ≤ 1 := by
    by_contra hmany
    rw [OptionName.said?_twice (by omega)] at h
    cases h
  rcases OptionName.said?_cases hlen with ⟨hnull, hsaid⟩ | ⟨v, hgiven, hv, hsaid⟩
  · rw [hsaid, Option.some.injEq] at h
    exact ⟨fun _ => h.symm, fun v hmem hv => absurd (hnull v hmem) hv⟩
  · rw [hsaid, Option.map_eq_some_iff] at h
    obtain ⟨read, hread, rfl⟩ := h
    rw [hgiven]
    refine ⟨fun hnull => absurd (hnull v (List.mem_singleton_self v)) hv, fun w hmem _ => ?_⟩
    rw [List.mem_singleton.1 hmem, hread]

/-! ## Values that nest too deep -/

/-- Within its bound a compile choice is read as if there were none. -/
theorem CompileChoice.ofJson?_of_depth {room : Nat} {v : Json} (h : v.depth ≤ room) :
    CompileChoice.ofJson? (some room) v = CompileChoice.ofJson? none v := by
  simp only [CompileChoice.ofJson?, Option.all_some, Option.all_none, decide_eq_true h]

/-- The compile choice that is given nests fewer than a hundred levels deep. -/
def Shallow (members : List (String × Json)) : Prop := ∀ v ∈ OptionName.compilePreviewer.given members, v.depth < 100

/-- What shallow members say does not depend on how deep they might be. -/
theorem OptionName.said?_of_shallow {members : List (String × Json)} (h : Shallow members) {room : Nat} (hroom : 100 ≤ room)
    (o : OptionName) : o.said? (some room) members = o.said? none members := by
  by_cases hlen : (o.given members).length ≤ 1
  · rcases OptionName.said?_cases hlen with ⟨-, hsaid⟩ | ⟨v, hgiven, -, hsaid⟩
    · rw [hsaid, hsaid]
    · rw [hsaid, hsaid]
      cases o with
      | compilePreviewer =>
        have hdepth : v.depth < 100 := h v (hgiven ▸ List.mem_singleton_self v)
        exact congrArg _ (CompileChoice.ofJson?_of_depth (by omega))
      | _ => rfl
  · rw [OptionName.said?_twice (by omega), OptionName.said?_twice (by omega)]

/-! ## Members that say the same -/

/-- The name of an option is a spelling of it. -/
theorem OptionName.text_mem_spellings (o : OptionName) : o.text ∈ o.spellings := List.mem_cons_self

/-- No spelling is shared. -/
theorem OptionName.eq_of_mem_spellings {o o' : OptionName} {name : String} (h : name ∈ o.spellings) (h' : name ∈ o'.spellings) :
    o = o' := by
  have hall : ∀ o ∈ OptionName.all, ∀ o' ∈ OptionName.all, ∀ name ∈ o.spellings, name ∈ o'.spellings → o = o' := by
    decide +kernel
  exact hall o o.mem_all o' o'.mem_all name h h'

/-- Changes of members that change nothing in what is given for the options: another order, a member more of a name that is no
option's, another spelling of an option. -/
inductive Reworded : List (String × Json) → List (String × Json) → Prop
  | reordered {members members' : List (String × Json)} (h : members.Perm members') : Reworded members members'
  | unknown {name : String} (h : ∀ o : OptionName, name ∉ o.spellings) (v : Json) (members : List (String × Json)) :
      Reworded members ((name, v) :: members)
  | respelled {o : OptionName} {name name' : String} (h : name ∈ o.spellings) (h' : name' ∈ o.spellings) (v : Json)
      (members : List (String × Json)) : Reworded ((name, v) :: members) ((name', v) :: members)
  | symm {members members' : List (String × Json)} (h : Reworded members members') : Reworded members' members
  | trans {members members' members'' : List (String × Json)} (h : Reworded members members') (h' : Reworded members' members'') :
      Reworded members members''

/-- What is given for an option by one member more. -/
theorem OptionName.given_cons (o : OptionName) (name : String) (v : Json) (members : List (String × Json)) :
    o.given ((name, v) :: members) = if name ∈ o.spellings then v :: o.given members else o.given members := by
  unfold OptionName.given Json.valuesUnder
  rw [List.filter_cons]
  simp only [List.contains_iff_mem]
  split <;> rfl

/-- Reworded members give the same values for each option. -/
theorem Reworded.given_perm {members members' : List (String × Json)} (h : Reworded members members') (o : OptionName) :
    (o.given members).Perm (o.given members') := by
  induction h with
  | reordered h => exact (h.filter _).map _
  | unknown h v members =>
    rw [OptionName.given_cons, if_neg (h o)]
  | @respelled o' name name' h h' v members =>
    have hiff : name ∈ o.spellings ↔ name' ∈ o.spellings :=
      ⟨fun hn => OptionName.eq_of_mem_spellings h hn ▸ h', fun hn => OptionName.eq_of_mem_spellings h' hn ▸ h⟩
    simp only [OptionName.given_cons, hiff]
    exact .refl _
  | symm _ ih => exact ih.symm
  | trans _ _ ih ih' => exact ih.trans ih'

/-- The same is said of an option that is given the same values. -/
theorem OptionName.said?_perm {o : OptionName} {members members' : List (String × Json)}
    (h : (o.given members).Perm (o.given members')) (room : Option Nat) : o.said? room members = o.said? room members' := by
  rw [OptionName.said?, Json.sole?_perm h, OptionName.said?]

/-! ## Mappings in either form -/

/-- A mapping: members that have been read already, or a text. -/
inductive Mapping where
  | listed (members : List (String × Json))
  | written (text : String)

/-- The options of a mapping. -/
def Mapping.options? : Mapping → Option RawOptions
  | .listed members => RawOptions.ofMembers? members
  | .written text => RawOptions.ofText? text

/-- The members of an object by their names; other values have none, nor an object with a name that is no string. -/
def Json.members? : Json → Option (List (String × Json))
  | .object members => Json.named? members
  | _ => none

/-- The members of a mapping, if it is one. -/
def Mapping.members? : Mapping → Option (List (String × Json))
  | .listed members => some members
  | .written text => (Json.ofText? text).bind Json.members?

/-- How deep a compile choice may nest in a mapping of this form. -/
def Mapping.room : Mapping → Option Nat
  | .listed _ => none
  | .written _ => some (nestingLimit - 1)

/-- The options of a mapping are those of its members. -/
theorem Mapping.options?_eq {m : Mapping} {members : List (String × Json)} (h : m.members? = some members) :
    m.options? = RawOptions.ofNamed? m.room members := by
  cases m with
  | listed given =>
    cases h
    rfl
  | written text =>
    obtain ⟨v, hv, hmembers⟩ := Option.bind_eq_some_iff.1 h
    cases v with
    | object given =>
      have hnamed : Json.named? given = some members := hmembers
      rw [Mapping.options?, RawOptions.ofText?, hv, Option.bind_some, RawOptions.ofJson?, Json.fields?, hnamed]
      rfl
    | _ => cases hmembers

/-- The options of a mapping with a shallow compile choice do not depend on its form. -/
theorem Mapping.options?_eq_of_shallow {m : Mapping} {members : List (String × Json)} (h : m.members? = some members)
    (hshallow : Shallow members) : m.options? = RawOptions.ofNamed? none members := by
  rw [Mapping.options?_eq h]
  cases m with
  | listed => rfl
  | written => exact RawOptions.ofNamed?_congr fun o => OptionName.said?_of_shallow hshallow (by decide) o

/-- Mappings that give the same values for each option make the same options up, in the same form or when the compile choice is
shallow. -/
theorem Mapping.options?_congr {m m' : Mapping} {members members' : List (String × Json)} (h : m.members? = some members)
    (h' : m'.members? = some members') (hform : m'.room = m.room ∨ Shallow members)
    (hgiven : ∀ o : OptionName, (o.given members').Perm (o.given members)) : m'.options? = m.options? := by
  have hsame : ∀ room, RawOptions.ofNamed? room members' = RawOptions.ofNamed? room members := fun room =>
    RawOptions.ofNamed?_congr fun o => OptionName.said?_perm (hgiven o) room
  rcases hform with hroom | hshallow
  · rw [Mapping.options?_eq h, Mapping.options?_eq h', hroom, hsame]
  · -- The other mapping gives the same compile choice.
    have hshallow' : Shallow members' := fun v hv => hshallow v ((hgiven .compilePreviewer).mem_iff.1 hv)
    rw [Mapping.options?_eq_of_shallow h hshallow, Mapping.options?_eq_of_shallow h' hshallow', hsame]

/-- The values given for the options decide what a mapping makes up, whatever the order of its members, their spelling and the
members of other names. An option that is given two values refuses the mapping. Else each option is the value given for it, read as
its kind, and nothing where it is left out or null; and the mapping is refused exactly when some value cannot be read as the kind
of its option. -/
theorem Mapping.given_decides {m : Mapping} {members : List (String × Json)} (h : m.members? = some members) :
    (∀ (m' : Mapping) (members' : List (String × Json)), m'.members? = some members' → m'.room = m.room ∨ Shallow members →
      ((∀ o : OptionName, (o.given members').Perm (o.given members)) → m'.options? = m.options?) ∧
        (Reworded members members' → m'.options? = m.options?)) ∧
    ((∃ o : OptionName, 2 ≤ (o.given members).length) → m.options? = none) ∧
    ((∀ o : OptionName, (o.given members).length ≤ 1) → Shallow members →
      (m.options? = none ↔ ∃ o : OptionName, ∃ v ∈ o.given members, v ≠ .null ∧ o.kind.read? none v = none) ∧
        ∀ raw, m.options? = some raw → ∀ o : OptionName,
          ((∀ v ∈ o.given members, v = .null) → raw.value o = none) ∧
            ∀ v ∈ o.given members, v ≠ .null → raw.value o = o.kind.read? none v) := by
  refine ⟨fun m' members' h' hform => ⟨?_, ?_⟩, ?_, fun hone hshallow => ⟨?_, ?_⟩⟩
  · exact Mapping.options?_congr h h' hform
  · intro hreworded
    exact Mapping.options?_congr h h' hform fun o => (hreworded.given_perm o).symm
  · rintro ⟨o, ho⟩
    rw [Mapping.options?_eq h]
    exact RawOptions.ofNamed?_eq_none_iff.2 ⟨o, OptionName.said?_twice ho m.room⟩
  · rw [Mapping.options?_eq_of_shallow h hshallow, RawOptions.ofNamed?_eq_none_iff]
    exact exists_congr fun o => OptionName.said?_eq_none_iff (hone o)
  · intro raw hraw o
    rw [Mapping.options?_eq_of_shallow h hshallow] at hraw
    exact OptionName.value_of_said? (RawOptions.ofNamed?_eq_some_iff.1 hraw o)

/-! A text that spells an option with `btp_` and holds a number beyond all doubles under a name of its own says what two members say
without either; with the same option under its other name it is refused. -/

namespace Sample

/-- A number of three digits. -/
def size512 : Json := .number ⟨false, ['5', '1', '2'], none, none⟩

/-- A number beyond all doubles. -/
def boundless : Json := .number ⟨false, ['1'], none, some (false, ['9', '9', '9'])⟩

/-- The members of a text with an option in its longer spelling, a name of no option, and an option that is null. -/
def prefixed : List (String × Json) := [("btp_max_size", size512), ("note", .array [boundless]), ("enabled", .null)]

/-- The text. -/
def prefixedText : String := (Json.ofFields prefixed).toText

theorem prefixed_written : (Mapping.written prefixedText).members? = some prefixed := by
  have hsize : size512.Writable := by
    refine ⟨⟨nofun, List.all_eq_true.1 rfl⟩, ?_, nofun, nofun⟩
    intro d ds h
    cases h
  have hboundless : boundless.Writable := by
    refine ⟨⟨nofun, List.all_eq_true.1 rfl⟩, ?_, nofun, ?_⟩
    · intro d ds h
      cases h
    · rintro e ⟨⟩
      exact ⟨nofun, List.all_eq_true.1 rfl⟩
  have hwritable : (Json.ofFields prefixed).Writable := by
    refine Json.writable_ofFields ?_
    simp only [prefixed, List.forall_mem_cons]
    exact ⟨hsize, ⟨hboundless, trivial⟩, trivial, nofun⟩
  rw [Mapping.members?, prefixedText, Json.ofText?_toText hwritable]
  exact Json.named?_ofString prefixed

/-- Members that say the same. -/
def unprefixed : List (String × Json) := [("max_size", size512), ("enabled", .null)]

theorem prefixed_reworded : Reworded prefixed unprefixed := by
  have hmoved : Reworded prefixed (("note", .array [boundless]) :: ("btp_max_size", size512) :: [("enabled", .null)]) :=
    .reordered (.swap _ _ _)
  have hnote : ∀ o : OptionName, "note" ∉ o.spellings := by
    intro o
    cases o <;> decide
  have hdropped : Reworded (("note", .array [boundless]) :: ("btp_max_size", size512) :: [("enabled", .null)]) _ :=
    .symm (.unknown hnote _ _)
  exact (hmoved.trans hdropped).trans (.respelled (o := .maxSize) (by decide) (by decide) size512 _)

/-- What the members give, option by option. -/
theorem given_prefixed (o : OptionName) :
    o.given prefixed = if o = .maxSize then [size512] else if o = .enabled then [.null] else [] := by
  cases o <;> rfl

theorem prefixed_given :
    (Mapping.written prefixedText).members? = some prefixed ∧ Shallow prefixed ∧ Reworded prefixed unprefixed ∧
      (Mapping.listed unprefixed).options? = (Mapping.written prefixedText).options? ∧
      (∃ raw, (Mapping.written prefixedText).options? = some raw ∧ raw.enabled = none ∧ raw.maxSize = some 512) ∧
      (Mapping.listed (("max_size", .null) :: prefixed)).options? = none := by
  have hshallow : Shallow prefixed := by
    intro v hv
    rw [given_prefixed] at hv
    cases hv
  have hone : ∀ o : OptionName, (o.given prefixed).length ≤ 1 := by
    intro o
    rw [given_prefixed]
    cases o <;> decide
  obtain ⟨hsame, -, hrest⟩ := Mapping.given_decides prefixed_written
  obtain ⟨hrefused, hvalues⟩ := hrest hone hshallow
  have htwice : ∃ o : OptionName, 2 ≤ (o.given (("max_size", .null) :: prefixed)).length := by
    refine ⟨.maxSize, ?_⟩
    rw [OptionName.given_cons, if_pos (by decide), given_prefixed]
    exact Nat.le_refl 2
  refine ⟨prefixed_written, hshallow, prefixed_reworded, (hsame (.listed unprefixed) _ rfl (.inr hshallow)).2 prefixed_reworded, ?_,
    (Mapping.given_decides (m := .listed (("max_size", .null) :: prefixed)) rfl).2.1 htwice⟩
  have hread : Json.int? size512 = some 512 := by decide +kernel
  have hreadable : ¬∃ o : OptionName, ∃ v ∈ o.given prefixed, v ≠ .null ∧ o.kind.read? none v = none := by
    rintro ⟨o, v, hv, hne, hnone⟩
    rw [given_prefixed] at hv
    cases o with
    | enabled => exact hne (List.mem_singleton.1 hv)
    | maxSize =>
      rw [List.mem_singleton.1 hv] at hnone
      exact absurd (hread.symm.trans hnone) (Option.some_ne_none _)
    | _ => cases hv
  obtain ⟨raw, hraw⟩ := Option.ne_none_iff_exists'.1 (mt hrefused.1 hreadable)
  have hsize : raw.value .maxSize = OptionKind.read? none .integer size512 := by
    refine (hvalues raw hraw .maxSize).2 size512 (List.mem_singleton_self size512) ?_
    intro hnull
    cases hnull
  refine ⟨raw, hraw, (hvalues raw hraw .enabled).1 ?_, hsize.trans hread⟩
  intro v hv
  exact List.mem_singleton.1 hv

end Sample

end ContactSheet
