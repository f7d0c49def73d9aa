import ContactSheet.Proofs.Json.Steps
import ContactSheet.Settings

/-!
# Two ways to read settings

Settings come out of a text by decoding it (`Settings.decode`), which checks the options at its head before it looks at what follows
them, or by reading its options and resolving them (`Settings.ofText`). Both come to the same settings (`decode_eq_ok_iff`,
`ofText_eq_ok_iff`). A refusal is where they differ: decoding refuses the options at the head of a text whatever follows them
(`decode_eq_refused_iff`), since what a mapping says does not depend on that (`RawOptions.heads_iff`).
-/

namespace ContactSheet

/-- The options stand at the head of a text: a front of it is a mapping that holds them. -/
def RawOptions.Heads (raw : RawOptions) (text : String) : Prop :=
  ∃ front rest : String, text = front ++ rest ∧ RawOptions.ofText? front = some raw

/-- A text that is one mapping holds the options at its head. -/
theorem RawOptions.heads_of_ofText? {raw : RawOptions} {text : String} (h : RawOptions.ofText? text = some raw) : raw.Heads text :=
  ⟨text, "", String.append_empty.symm, h⟩

/-- A text of options is a value with nothing but a gap after it. -/
theorem RawOptions.ofText?_iff {raw : RawOptions} {text : String} :
    RawOptions.ofText? text = some raw ↔
      ∃ v left, Json.read? text.toList = some (v, left) ∧ (Json.skipGap left).isEmpty ∧ RawOptions.ofJson? v = some raw := by
  unfold RawOptions.ofText? Json.ofText?
  constructor
  · intro h
    obtain ⟨v, hv, hraw⟩ := Option.bind_eq_some_iff.1 h
    split at hv
    · next u left hread =>
      split at hv
      · next hempty =>
        cases hv
        exact ⟨v, left, hread, hempty, hraw⟩
      · nomatch hv
    · nomatch hv
  · rintro ⟨v, left, hread, hempty, hraw⟩
    simp only [hread, hempty, if_true, Option.bind_some, hraw]

/-- Options are held by an array or an object, and any text may follow that. -/
theorem RawOptions.apart_of_ofJson? {raw : RawOptions} {v : Json} (h : RawOptions.ofJson? v = some raw) (s : List Char) :
    Json.Apart v s := by
  cases v with
  | number n => nomatch h
  | _ => trivial

/-- The options at the head of a text are those of the value that is read there. -/
theorem RawOptions.heads_iff {raw : RawOptions} {text : String} :
    raw.Heads text ↔ ∃ v left, Json.read? text.toList = some (v, left) ∧ RawOptions.ofJson? v = some raw := by
  constructor
  · rintro ⟨front, rest, rfl, hfront⟩
    obtain ⟨v, left, hread, -, hraw⟩ := RawOptions.ofText?_iff.1 hfront
    obtain ⟨pre, hpre, htakes⟩ := Json.read?_takes hread
    refine ⟨v, left ++ rest.toList, ?_, hraw⟩
    rw [String.toList_append, hpre, List.append_assoc]
    exact htakes _ (RawOptions.apart_of_ofJson? hraw _)
  · rintro ⟨v, left, hread, hraw⟩
    obtain ⟨pre, hpre, htakes⟩ := Json.read?_takes hread
    refine ⟨String.ofList pre, String.ofList left, ?_, ?_⟩
    · rw [← String.ofList_append, ← hpre, String.ofList_toList]
    · have hfront : Json.read? pre = some (v, []) := by
        rw [← List.append_nil pre]
        exact htakes [] (RawOptions.apart_of_ofJson? hraw [])
      refine RawOptions.ofText?_iff.2 ⟨v, [], ?_, rfl, hraw⟩
      rw [String.toList_ofList]
      exact hfront

/-! ## Reading options and resolving them -/

theorem Settings.ofText_eq_ok_iff {text : String} {s : Settings} :
    Settings.ofText text = .ok s ↔ ∃ raw, RawOptions.ofText? text = some raw ∧ Settings.resolve raw = .ok s := by
  unfold Settings.ofText
  cases RawOptions.ofText? text with
  | none => simp
  | some raw => simp

/-- An error other than that of a text that cannot be read is one of its options. -/
theorem Settings.ofText_eq_error {text : String} {e : PreviewError} (h : Settings.ofText text = .error e) (he : e ≠ .json) :
    ∃ raw, RawOptions.ofText? text = some raw ∧ Settings.resolve raw = .error e := by
  unfold Settings.ofText at h
  split at h
  · next raw hraw => exact ⟨raw, hraw, h⟩
  · cases h
    exact absurd rfl he

/-! ## Decoding -/

/-- A text that decodes to settings, or to a refusal, has options at its head. -/
theorem Settings.decode_cases {text : String} (h : Settings.decode text ≠ .error .malformed) :
    ∃ v left raw, Json.read? text.toList = some (v, left) ∧ RawOptions.ofJson? v = some raw := by
  unfold Settings.decode at h
  split at h
  · exact absurd rfl h
  · next v left hread =>
    split at h
    · exact absurd rfl h
    · next raw hraw => exact ⟨v, left, raw, hread, hraw⟩

/-- What decoding comes to with options at the head: they are checked first, and then what is left of the text. -/
theorem Settings.decode_of_read {text : String} {v : Json} {left : List Char} {raw : RawOptions}
    (hread : Json.read? text.toList = some (v, left)) (hraw : RawOptions.ofJson? v = some raw) :
    Settings.decode text =
      match Settings.resolve raw with
      | .error e => .error (.refused e)
      | .ok s => if (Json.skipGap left).isEmpty then .ok s else .error .malformed := by
  cases hr : Settings.resolve raw with
  | error e => simp only [Settings.decode, hread, hraw, hr]
  | ok s => simp only [Settings.decode, hread, hraw, hr]

theorem Settings.decode_eq_ok_iff {text : String} {s : Settings} :
    Settings.decode text = .ok s ↔ ∃ raw, RawOptions.ofText? text = some raw ∧ Settings.resolve raw = .ok s := by
  constructor
  · intro h
    have hread : Settings.decode text ≠ .error .malformed := by
      rw [h]
      nofun
    obtain ⟨v, left, raw, hread, hraw⟩ := Settings.decode_cases hread
    rw [Settings.decode_of_read hread hraw] at h
    split at h
    · nomatch h
    · next s' hs =>
      split at h
      · next hempty =>
        cases h
        exact ⟨raw, RawOptions.ofText?_iff.2 ⟨v, left, hread, hempty, hraw⟩, hs⟩
      · nomatch h
  · rintro ⟨raw, htext, hs⟩
    obtain ⟨v, left, hread, hempty, hraw⟩ := RawOptions.ofText?_iff.1 htext
    rw [Settings.decode_of_read hread hraw, hs]
    simp only [hempty, if_true]

theorem Settings.decode_eq_refused_iff {text : String} {e : PreviewError} :
    Settings.decode text = .error (.refused e) ↔ ∃ raw : RawOptions, raw.Heads text ∧ Settings.resolve raw = .error e := by
  constructor
  · intro h
    have hread : Settings.decode text ≠ .error .malformed := by
      rw [h]
      nofun
    obtain ⟨v, left, raw, hread, hraw⟩ := Settings.decode_cases hread
    refine ⟨raw, RawOptions.heads_iff.2 ⟨v, left, hread, hraw⟩, ?_⟩
    rw [Settings.decode_of_read hread hraw] at h
    split at h
    · next e' he =>
      cases h
      exact he
    · split at h
      · nomatch h
      · nomatch h
  · rintro ⟨raw, hheads, he⟩
    obtain ⟨v, left, hread, hraw⟩ := RawOptions.heads_iff.1 hheads
    rw [Settings.decode_of_read hread hraw, he]

/-- Decoding a text and reading its options come to the same settings, and these are always options that were resolved. What the
second refuses for an option the first refuses in the same words. The first refuses in the words of an error exactly the texts with
options at their head that resolving refuses in these words, whatever follows the options. -/
theorem Settings.decode_agrees (text : String) :
    (∀ s, Settings.decode text = .ok s ↔ Settings.ofText text = .ok s) ∧
    (∀ key reason, Settings.ofText text = .error (.config key reason) →
      Settings.decode text = .error (.refused (.config key reason))) ∧
    (∀ message, (∃ e, Settings.decode text = .error (.refused e) ∧ e.message = message) ↔
      ∃ (raw : RawOptions) (e : PreviewError), raw.Heads text ∧ Settings.resolve raw = .error e ∧ e.message = message) ∧
    ∀ s, Settings.decode text = .ok s ∨ Settings.ofText text = .ok s →
      ∃ raw, RawOptions.ofText? text = some raw ∧ Settings.resolve raw = .ok s := by
  refine ⟨?_, ?_, ?_, ?_⟩
  · intro s
    rw [Settings.decode_eq_ok_iff, Settings.ofText_eq_ok_iff]
  · intro key reason h
    obtain ⟨raw, htext, he⟩ := Settings.ofText_eq_error h nofun
    exact Settings.decode_eq_refused_iff.2 ⟨raw, RawOptions.heads_of_ofText? htext, he⟩
  · intro message
    constructor
    · rintro ⟨e, hdecode, hmessage⟩
      obtain ⟨raw, hheads, he⟩ := Settings.decode_eq_refused_iff.1 hdecode
      exact ⟨raw, e, hheads, he, hmessage⟩
    · rintro ⟨raw, e, hheads, he, hmessage⟩
      exact ⟨e, Settings.decode_eq_refused_iff.2 ⟨raw, hheads, he⟩, hmessage⟩
  · intro s h
    rcases h with h | h
    · exact Settings.decode_eq_ok_iff.1 h
    · exact Settings.ofText_eq_ok_iff.1 h

/-- Where more stands behind refused options, only decoding says what is wrong with them. -/
example : Settings.decode "[true, 0] more" = .error (.refused (.config "max_size" "must be > 0, got 0")) ∧
    Settings.ofText "[true, 0] more" = .error .json := by
  constructor
  · cbv
  · cbv

end ContactSheet
