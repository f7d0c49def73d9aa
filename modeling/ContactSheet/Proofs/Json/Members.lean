import ContactSheet.Json.Record
import Mathlib.Data.List.Nodup
import Mathlib.Data.Option.Basic

/-!
# What the members of an object give

A field of a record takes its value from the members under one of its names (`valuesUnder`), and refuses two of them: what it is
given depends on these values alone, in any order (`given?_eq`, `sole?_perm`). A record takes its fields one by one
(`memberFields?_iff`). An object that has one member for each field gives back the values of its members (`memberFields?_map`,
`fields?_ofFields`).
-/

namespace ContactSheet.Json

/-! ## One field -/

/-- The values of the members under some names, in the order of the members. -/
def valuesUnder (names : List String) (members : List (String × Json)) : List Json :=
  (members.filter fun m => names.contains m.1).map (·.2)

/-- The only value of a list, if there is any; a list of two or more has none to give. -/
def sole? : List Json → Option (Option Json)
  | [] => some none
  | [v] => some (some v)
  | _ => none

/-- A field is given the only value under its names. -/
theorem given?_eq (names : List String) (members : List (String × Json)) :
    given? names members = sole? (valuesUnder names members) := by
  unfold given? valuesUnder
  split
  · next h => rw [h]; rfl
  · next h => rw [h]; rfl
  · next hnil hone =>
    generalize members.filter _ = found at hnil hone
    match found with
    | [] => exact absurd rfl hnil
    | [m] => exact absurd rfl (hone m)
    | _ :: _ :: _ => rfl

/-- Two values are too many. -/
theorem sole?_eq_none_iff {vs : List Json} : sole? vs = none ↔ 2 ≤ vs.length := by
  match vs with
  | [] => simp [sole?]
  | [v] => simp [sole?]
  | v :: w :: rest => simp [sole?]

/-- The order of the values does not matter: where it could, there are too many. -/
theorem sole?_perm {vs ws : List Json} (h : vs.Perm ws) : sole? vs = sole? ws := by
  match vs with
  | [] => rw [h.nil_eq]
  | [v] => rw [h.singleton_eq]
  | v :: w :: rest =>
    have hlen : 2 ≤ ws.length := by simp [← h.length_eq]
    rw [sole?_eq_none_iff.2 hlen]
    rfl

/-- A field that is given a value other than null takes what is read of it. -/
theorem optional?_some {α : Type} {read : Json → Option α} {v : Json} (hv : v ≠ .null) :
    optional? read (some v) = (read v).map some := by
  cases v with
  | null => exact absurd rfl hv
  | _ => rfl

/-! ## The fields of a record -/

/-- A list is mapped to a result exactly when each of its elements is. -/
theorem mapM_eq_some_iff {α β : Type} {f : α → Option β} {xs : List α} {ys : List β} :
    xs.mapM f = some ys ↔ xs.map f = ys.map some := by
  induction xs generalizing ys with
  | nil => cases ys <;> simp
  | cons x xs ih =>
    cases ys with
    | nil => simp [Option.bind_eq_some_iff]
    | cons y ys => simp [Option.bind_eq_some_iff, ih]

variable {ι : Type}

/-- The fields of a record are given the only values under their names, and refused where a field has none to give. -/
theorem memberFields?_iff {keys : List ι} {names : ι → List String} {members : List (String × Json)}
    {values : List (Option Json)} :
    memberFields? (keys.map names) members = some values ↔
      ∃ given : ι → Option Json,
        (∀ i ∈ keys, sole? (valuesUnder (names i) members) = some (given i)) ∧ values = keys.map given := by
  simp only [memberFields?, mapM_eq_some_iff, given?_eq, List.map_map]
  constructor
  · intro h
    have hgiven : ∀ i ∈ keys, sole? (valuesUnder (names i) members) =
        some ((sole? (valuesUnder (names i) members)).getD none) := by
      intro i hi
      obtain ⟨v, -, hv⟩ : ∃ v ∈ values, some v = sole? (valuesUnder (names i) members) :=
        List.mem_map.1 (h ▸ List.mem_map_of_mem hi)
      rw [← hv, Option.getD_some]
    refine ⟨_, hgiven, List.map_injective_iff.2 (Option.some_injective _) ?_⟩
    rw [← h, List.map_map]
    exact List.map_congr_left hgiven
  · rintro ⟨given, hgiven, rfl⟩
    rw [List.map_map]
    exact List.map_congr_left hgiven

/-- Where the names of each key hold the name of that key and of no other, the members under them are the member of that key. -/
theorem valuesUnder_map {keys : List ι} (hkeys : keys.Nodup) {name : ι → String} {names : ι → List String}
    (hnames : ∀ i ∈ keys, ∀ j ∈ keys, name j ∈ names i ↔ j = i) (value : ι → Json) {i : ι} (hi : i ∈ keys) :
    valuesUnder (names i) (keys.map fun j => (name j, value j)) = [value i] := by
  have hfilter : keys.filter (fun j => (names i).contains (name j)) = [i] := by
    have hmem : ∀ j ∈ keys, (names i).contains (name j) = true ↔ j = i := by
      intro j hj
      rw [List.contains_iff_mem]
      exact hnames i hi j hj
    obtain ⟨before, after, rfl⟩ := List.append_of_mem hi
    obtain ⟨hbefore, hafter⟩ : i ∉ before ∧ i ∉ after := by
      rw [List.nodup_middle, List.nodup_cons, List.mem_append, not_or] at hkeys
      exact hkeys.1
    have hnone : ∀ part : List ι, i ∉ part → (∀ j ∈ part, j ∈ before ++ i :: after) →
        part.filter (fun j => (names i).contains (name j)) = [] := by
      intro part hi hpart
      refine List.filter_eq_nil_iff.2 fun j hj hnamed => hi ?_
      rwa [← (hmem j (hpart j hj)).1 hnamed]
    rw [List.filter_append, List.filter_cons, if_pos ((hmem i hi).2 rfl), hnone before hbefore (by simp +contextual),
      hnone after hafter (by simp +contextual), List.nil_append]
  rw [valuesUnder, List.filter_map, List.map_map]
  show (keys.filter fun j => (names i).contains (name j)).map _ = _
  rw [hfilter]
  rfl

/-- An object with one member for each key gives the fields the values of the keys. -/
theorem memberFields?_map {keys : List ι} (hkeys : keys.Nodup) {name : ι → String} {names : ι → List String}
    (hnames : ∀ i ∈ keys, ∀ j ∈ keys, name j ∈ names i ↔ j = i) (value : ι → Json) :
    memberFields? (keys.map names) (keys.map fun j => (name j, value j)) = some (keys.map fun j => some (value j)) := by
  refine memberFields?_iff.2 ⟨fun j => some (value j), ?_, rfl⟩
  intro i hi
  rw [valuesUnder_map hkeys hnames value hi]
  rfl

/-! ## Objects that hold a record -/

/-- The names of a record's fields are strings. -/
theorem named?_ofString (fields : List (String × Json)) :
    named? (fields.map fun f => (Text.ofString f.1, f.2)) = some fields := by
  rw [named?, mapM_eq_some_iff, List.map_map]
  refine List.map_congr_left fun f _ => ?_
  simp only [Function.comp_apply, Text.string?_ofString, Option.map_some]

/-- A record that is written with one name for each key gives the values of the keys. -/
theorem fields?_ofFields_map {keys : List ι} (hkeys : keys.Nodup) {name : ι → String} {names : ι → List String}
    (hnames : ∀ i ∈ keys, ∀ j ∈ keys, name j ∈ names i ↔ j = i) (value : ι → Json) :
    (ofFields (keys.map fun j => (name j, value j))).fields? (keys.map names) = some (keys.map fun j => some (value j)) := by
  rw [ofFields, fields?, named?_ofString, Option.bind_some, memberFields?_map hkeys hnames]

/-- A record that is written under the names of its fields, no two alike, gives its values. -/
theorem fields?_ofFields {fields : List (String × Json)} (hnames : (fields.map (·.1)).Nodup) :
    (ofFields fields).fields? (fields.map fun f => [f.1]) = some (fields.map fun f => some f.2) := by
  have hself : fields.map (fun f => (f.1, f.2)) = fields := List.map_id fields
  have hkeys : ∀ f ∈ fields, ∀ g ∈ fields, g.1 ∈ [f.1] ↔ g = f := by
    intro f hf g hg
    rw [List.mem_singleton]
    exact ⟨fun h => List.inj_on_of_nodup_map hnames hg hf h, fun h => h ▸ rfl⟩
  have hfields := fields?_ofFields_map (List.Nodup.of_map _ hnames) hkeys Prod.snd
  rwa [hself] at hfields

end ContactSheet.Json
