import ContactSheet.Json.Numeral

/-!
# Records, options and variants in JSON

A record is an object with a member for each field, in any order, or an array of its fields in their order. In an object a member
of another name is passed over and a field given twice refuses the whole; in an array the last fields may be missing and one too
many refuses the whole (`fields?`). A variant is its name, or an object whose only member is that name with what the variant
carries (`variant?`). A value that nobody asks for may hold anything that the grammar allows; `isSound` says that a value would
be readable whatever were asked for.
-/

namespace ContactSheet

namespace Json

/-! ## Single values -/

/-- A truth value. -/
def bool? : Json → Option Bool
  | .bool b => some b
  | _ => none

/-- A string. -/
def string? : Json → Option String
  | .text t => t.string?
  | _ => none

/-- A double; an integer is one too. -/
def float? : Json → Option Float
  | .number n => n.float?
  | _ => none

/-- A signed integer of 64 bits. -/
def int? : Json → Option Int
  | .number n => n.integer?.filter (· < 0x8000000000000000)
  | _ => none

/-- A natural number below the limit. -/
def nat? (limit : Nat) : Json → Option Nat
  | .number n => n.integer?.bind fun v => if 0 ≤ v ∧ v < limit then some v.toNat else none
  | _ => none

/-- A list of values of one kind. -/
def list? {α : Type} (read : Json → Option α) : Json → Option (List α)
  | .array items => items.mapM read
  | _ => none

/-- A field that may be missing or null. -/
def optional? {α : Type} (read : Json → Option α) : Option Json → Option (Option α)
  | none => some none
  | some .null => some none
  | some v => (read v).map some

/-- A field that must be there. -/
def required? {α : Type} (read : Json → Option α) (given : Option Json) : Option α := given.bind read

mutual

/-- Every number of the value is a double and every text and name a string. -/
def isSound : Json → Bool
  | .number n => n.float?.isSome
  | .text t => t.string?.isSome
  | .array items => areSound items
  | .object members => membersSound members
  | _ => true

/-- Every item is sound. -/
def areSound : List Json → Bool
  | [] => true
  | item :: rest => item.isSound && areSound rest

/-- Every member is sound, its name included. -/
def membersSound : List (Text × Json) → Bool
  | [] => true
  | (key, value) :: rest => key.string?.isSome && value.isSound && membersSound rest

end

/-! ## Records -/

/-- The members of an object by their names, none when a name is no string. -/
def named? (members : List (Text × Json)) : Option (List (String × Json)) :=
  members.mapM fun m => m.1.string?.map fun name => (name, m.2)

/-- The value given under one of the names of a field, if any; two given values refuse. -/
def given? (names : List String) (members : List (String × Json)) : Option (Option Json) :=
  match members.filter fun m => names.contains m.1 with
  | [] => some none
  | [m] => some (some m.2)
  | _ => none

/-- The values that an object's members give for the fields of a record, in the order of the fields. -/
def memberFields? (fields : List (List String)) (members : List (String × Json)) : Option (List (Option Json)) :=
  fields.mapM fun names => given? names members

/-- The values that an array's items give for `n` fields, in order. -/
def itemFields? (n : Nat) (items : List Json) : Option (List (Option Json)) :=
  if items.length ≤ n then some (items.map some ++ List.replicate (n - items.length) none) else none

/-- The values given for the fields of a record, in the order of the fields. -/
def fields? (fields : List (List String)) : Json → Option (List (Option Json))
  | .object members => (named? members).bind (memberFields? fields)
  | .array items => itemFields? fields.length items
  | _ => none

/-- A record as an object, from the names and values of its fields. -/
def ofFields (fields : List (String × Json)) : Json := .object (fields.map fun f => (Text.ofString f.1, f.2))

/-! ## Variants -/

/-- The name of a variant, and what it carries if that is written. -/
def variant? : Json → Option (String × Option Json)
  | .text t => t.string?.map fun name => (name, none)
  | .object [(key, value)] => key.string?.map fun name => (name, some value)
  | _ => none

/-- What a variant carries that carries nothing: it is left out, or null. -/
def isNothing : Option Json → Bool
  | none => true
  | some .null => true
  | _ => false

/-! ## Values as JSON -/

/-- A string as a JSON value. -/
def ofString (s : String) : Json := .text (Text.ofString s)

/-- A value or null. -/
def ofOption {α : Type} (write : α → Json) : Option α → Json
  | none => .null
  | some a => write a

end Json

end ContactSheet
