import ContactSheet.Proofs.Json.Scan
import Mathlib.Logic.Relation

/-!
# Reading in steps

`Json.read?` wants a value or has one, inside the containers that are open (`Stage`), and each step takes a front of the text
(`ReadStep`). Its runs are the results of reading (`readWithin?_iff`). A step takes the same front whatever follows it that may follow
there (`ReadStep.takes`), and so does a run (`ReadSteps.takes`): an array or an object at the head of a text is read the same whatever
stands behind it (`read?_takes`).
-/

namespace ContactSheet.Json

/-! ## The equations of reading -/

theorem readWithin?_eq (frames : List Frame) (s : List Char) :
    readWithin? frames s =
      match skipGap s with
      | '[' :: rest =>
        match skipGap rest with
        | ']' :: left => place? frames (.array []) left
        | _ => readWithin? (.items [] :: frames) rest
      | '{' :: rest =>
        match skipGap rest with
        | '}' :: left => place? frames (.object []) left
        | _ => (readKey? rest).bind fun (key, left) => readWithin? (.members [] key :: frames) left
      | t => (readAtom? t).bind fun (v, left) => place? frames v left := by
  rw [readWithin?]
  generalize skipGap s = t
  split
  · next rest =>
    simp only
    generalize skipGap rest = u
    split
    · rfl
    · simp only
  · next rest =>
    simp only
    generalize skipGap rest = u
    split
    · rfl
    · simp only
      split
      · next hk => simp only [hk, Option.bind_some]
      · next hk => simp only [hk, Option.bind_none]
  · simp only
    split
    · next ha => simp only [ha, Option.bind_some]
    · next ha => simp only [ha, Option.bind_none]

theorem place?_items (done : List Json) (outer : List Frame) (v : Json) (s : List Char) :
    place? (.items done :: outer) v s =
      match skipGap s with
      | ',' :: rest => readWithin? (.items (v :: done) :: outer) rest
      | ']' :: rest => place? outer (.array (v :: done).reverse) rest
      | _ => none := by
  rw [place?]
  generalize skipGap s = t
  split
  · rfl
  · rfl
  · simp only

theorem place?_members (done : List (Text × Json)) (key : Text) (outer : List Frame) (v : Json) (s : List Char) :
    place? (.members done key :: outer) v s =
      match skipGap s with
      | ',' :: rest => (readKey? rest).bind fun (next, left) => readWithin? (.members ((key, v) :: done) next :: outer) left
      | '}' :: rest => place? outer (.object ((key, v) :: done).reverse) rest
      | _ => none := by
  rw [place?]
  generalize skipGap s = t
  split
  · next rest =>
    simp only
    split
    · next hk => simp only [hk, Option.bind_some]
    · next hk => simp only [hk, Option.bind_none]
  · rfl
  · simp only

/-! ## Steps -/

/-- What reading is about inside the open containers: it wants a value, or has one to put into the innermost. -/
inductive Stage where
  | wants (frames : List Frame)
  | has (frames : List Frame) (v : Json)

/-- One step of reading, with the text before it and what is left. -/
inductive ReadStep : Stage × List Char → Stage × List Char → Prop
  | emptyArray {frames : List Frame} {s rest left : List Char} (h : skipGap s = '[' :: rest) (hclose : skipGap rest = ']' :: left) :
      ReadStep (.wants frames, s) (.has frames (.array []), left)
  | array {frames : List Frame} {s rest : List Char} (h : skipGap s = '[' :: rest) (hopen : ∀ left, skipGap rest ≠ ']' :: left) :
      ReadStep (.wants frames, s) (.wants (.items [] :: frames), rest)
  | emptyObject {frames : List Frame} {s rest left : List Char} (h : skipGap s = '{' :: rest) (hclose : skipGap rest = '}' :: left) :
      ReadStep (.wants frames, s) (.has frames (.object []), left)
  | object {frames : List Frame} {s rest left : List Char} {key : Text} (h : skipGap s = '{' :: rest)
      (hkey : readKey? rest = some (key, left)) : ReadStep (.wants frames, s) (.wants (.members [] key :: frames), left)
  | atom {frames : List Frame} {s left : List Char} {v : Json} (h : readAtom? (skipGap s) = some (v, left)) :
      ReadStep (.wants frames, s) (.has frames v, left)
  | nextItem {done : List Json} {outer : List Frame} {v : Json} {s rest : List Char} (h : skipGap s = ',' :: rest) :
      ReadStep (.has (.items done :: outer) v, s) (.wants (.items (v :: done) :: outer), rest)
  | lastItem {done : List Json} {outer : List Frame} {v : Json} {s rest : List Char} (h : skipGap s = ']' :: rest) :
      ReadStep (.has (.items done :: outer) v, s) (.has outer (.array (v :: done).reverse), rest)
  | nextMember {done : List (Text × Json)} {key next : Text} {outer : List Frame} {v : Json} {s rest left : List Char}
      (h : skipGap s = ',' :: rest) (hkey : readKey? rest = some (next, left)) :
      ReadStep (.has (.members done key :: outer) v, s) (.wants (.members ((key, v) :: done) next :: outer), left)
  | lastMember {done : List (Text × Json)} {key : Text} {outer : List Frame} {v : Json} {s rest : List Char}
      (h : skipGap s = '}' :: rest) :
      ReadStep (.has (.members done key :: outer) v, s) (.has outer (.object ((key, v) :: done).reverse), rest)

/-- Some steps of reading. -/
abbrev ReadSteps : Stage × List Char → Stage × List Char → Prop := Relation.ReflTransGen ReadStep

/-- What reading comes to from a stage on. -/
def Stage.finish? : Stage × List Char → Option (Json × List Char)
  | (.wants frames, s) => readWithin? frames s
  | (.has frames v, s) => place? frames v s

/-- A name starts with its quote. -/
theorem quote_of_readKey? {s left : List Char} {key : Text} (h : readKey? s = some (key, left)) :
    ∃ rest, skipGap s = '"' :: rest := by
  unfold readKey? at h
  split at h
  · next rest hs => exact ⟨rest, hs⟩
  · nomatch h

/-- A step does not change what reading comes to. -/
theorem ReadStep.finish?_eq {a b : Stage × List Char} (h : ReadStep a b) : Stage.finish? a = Stage.finish? b := by
  cases h with
  | emptyArray h hclose => simp only [Stage.finish?, readWithin?_eq, h, hclose]
  | array h hopen =>
    simp only [Stage.finish?]
    rw [readWithin?_eq, h]
    simp only
  | emptyObject h hclose => simp only [Stage.finish?, readWithin?_eq, h, hclose]
  | object h hkey =>
    obtain ⟨more, hquote⟩ := quote_of_readKey? hkey
    simp only [Stage.finish?]
    rw [readWithin?_eq, h]
    simp only [hquote, hkey, Option.bind_some]
    rfl
  | atom h =>
    simp only [Stage.finish?]
    rw [readWithin?_eq]
    split
    · next hs =>
      rw [hs, readAtom?_bracket (by decide)] at h
      nomatch h
    · next hs =>
      rw [hs, readAtom?_bracket (by decide)] at h
      nomatch h
    · rw [h, Option.bind_some]
  | nextItem h => simp only [Stage.finish?, place?_items, h]
  | lastItem h => simp only [Stage.finish?, place?_items, h]
  | nextMember h hkey => simp only [Stage.finish?, place?_members, h, hkey, Option.bind_some]
  | lastMember h => simp only [Stage.finish?, place?_members, h]

/-- Reading that comes to something has ended, or takes a step. -/
theorem exists_step {a : Stage × List Char} {v : Json} {left : List Char} (h : Stage.finish? a = some (v, left)) :
    a = (.has [] v, left) ∨ ∃ b, ReadStep a b := by
  obtain ⟨stage, s⟩ := a
  cases stage with
  | wants frames =>
    right
    simp only [Stage.finish?] at h
    rw [readWithin?_eq] at h
    split at h
    · next rest hs =>
      split at h
      · next left' hclose => exact ⟨_, .emptyArray hs hclose⟩
      · next hopen => exact ⟨_, .array hs hopen⟩
    · next rest hs =>
      split at h
      · next left' hclose => exact ⟨_, .emptyObject hs hclose⟩
      · obtain ⟨⟨key, left'⟩, hkey, -⟩ := Option.bind_eq_some_iff.1 h
        exact ⟨_, .object hs hkey⟩
    · obtain ⟨⟨u, left'⟩, hatom, -⟩ := Option.bind_eq_some_iff.1 h
      exact ⟨_, .atom hatom⟩
  | has frames u =>
    rcases frames with - | ⟨⟨done⟩ | ⟨done, key⟩, outer⟩
    · left
      simp only [Stage.finish?] at h
      rw [place?] at h
      cases h
      rfl
    · right
      simp only [Stage.finish?, place?_items] at h
      split at h
      · next rest hs => exact ⟨_, .nextItem hs⟩
      · next rest hs => exact ⟨_, .lastItem hs⟩
      · cases h
    · right
      simp only [Stage.finish?, place?_members] at h
      split at h
      · next rest hs =>
        obtain ⟨⟨next, left'⟩, hkey, -⟩ := Option.bind_eq_some_iff.1 h
        exact ⟨_, .nextMember hs hkey⟩
      · next rest hs => exact ⟨_, .lastMember hs⟩
      · cases h

/-- A step takes a character at least. -/
theorem ReadStep.length_lt {a b : Stage × List Char} (h : ReadStep a b) : b.2.length < a.2.length := by
  have hgap : ∀ {s rest : List Char} {c : Char}, skipGap s = c :: rest → rest.length < s.length := by
    intro s rest c hs
    have hle := length_skipGap_le s
    rw [hs] at hle
    exact hle
  cases h with
  | emptyArray h hclose => exact (hgap hclose).trans (hgap h)
  | array h hopen => exact hgap h
  | emptyObject h hclose => exact (hgap hclose).trans (hgap h)
  | object h hkey => exact (length_readKey?_lt hkey).trans (hgap h)
  | atom h => exact (length_readAtom?_lt h).trans_le (length_skipGap_le _)
  | nextItem h => exact hgap h
  | lastItem h => exact hgap h
  | nextMember h hkey => exact (length_readKey?_lt hkey).trans (hgap h)
  | lastMember h => exact hgap h

/-- Reading comes to a value exactly when steps lead to it with every container closed. -/
theorem finish?_iff {a : Stage × List Char} {v : Json} {left : List Char} :
    Stage.finish? a = some (v, left) ↔ ReadSteps a (.has [] v, left) := by
  constructor
  · intro h
    -- Every step leaves less of the text.
    induction hn : a.2.length using Nat.strong_induction_on generalizing a with
    | _ n ih =>
      rcases exists_step h with rfl | ⟨b, hstep⟩
      · exact .refl
      · rw [hstep.finish?_eq] at h
        exact .head hstep (ih _ (hn ▸ hstep.length_lt) h rfl)
  · intro h
    induction h using Relation.ReflTransGen.head_induction_on with
    | refl => rw [Stage.finish?, place?]
    | head hstep _ ih => rw [hstep.finish?_eq, ih]

/-! ## What steps take -/

/-- The text may stand at a stage: it does not go on with a number that has just been read, nor close an array where an item is to
come. -/
def Ready : Stage × List Char → Prop
  | (.wants _, s) => ∀ rest, skipGap s ≠ ']' :: rest
  | (.has _ v, s) => Apart v s

/-- A gap, or a character after it, does not go on with a number. -/
theorem outside_of_skipGap {s rest : List Char} {c : Char} (h : skipGap s = c :: rest) (hc : isNumeral c = false) :
    Outside isNumeral s := by
  intro d hd
  obtain ⟨more, rfl⟩ : ∃ more, s = d :: more := by
    cases s with
    | nil => nomatch hd
    | cons e more =>
      cases hd
      exact ⟨more, rfl⟩
  by_cases hgap : isGap d = true
  · simp only [isGap, Bool.or_eq_true, beq_iff_eq] at hgap
    rcases hgap with ((rfl | rfl) | rfl) | rfl <;> decide
  · rw [skipGap, List.dropWhile_cons_of_neg hgap] at h
    cases h
    exact hc

theorem apart_of_skipGap {s rest : List Char} {c : Char} (h : skipGap s = c :: rest) (hc : isNumeral c = false) (v : Json) :
    Apart v s := by
  cases v with
  | number n => exact outside_of_skipGap h hc
  | _ => trivial

/-- The text of a step stood where it may. -/
theorem ReadStep.ready {a b : Stage × List Char} (h : ReadStep a b) : Ready a := by
  have hwants : ∀ {s rest : List Char} {c : Char}, skipGap s = c :: rest → c ≠ ']' → ∀ rest, skipGap s ≠ ']' :: rest := by
    intro s rest c hs hc rest' hs'
    rw [hs] at hs'
    cases hs'
    exact hc rfl
  cases h with
  | emptyArray h _ => exact hwants h (by decide)
  | array h _ => exact hwants h (by decide)
  | emptyObject h _ => exact hwants h (by decide)
  | object h _ => exact hwants h (by decide)
  | atom h =>
    intro rest hs
    rw [hs, readAtom?_bracket (by decide)] at h
    nomatch h
  | nextItem h => exact apart_of_skipGap h (by decide) _
  | lastItem h => exact apart_of_skipGap h (by decide) _
  | nextMember h _ => exact apart_of_skipGap h (by decide) _
  | lastMember h => exact apart_of_skipGap h (by decide) _

/-- A step takes a front of the text, and the same front before any text that may stand where it leads. -/
theorem ReadStep.takes {a b : Stage × List Char} (h : ReadStep a b) :
    ∃ pre, a.2 = pre ++ b.2 ∧ ∀ x, Ready (b.1, x) → ReadStep (a.1, pre ++ x) (b.1, x) := by
  cases h with
  | emptyArray h hclose =>
    obtain ⟨pre, rfl, hpre⟩ := skipGap_takes h
    obtain ⟨last, rfl, hlast⟩ := skipGap_takes hclose
    refine ⟨pre ++ last, by rw [List.append_assoc], fun x _ => ?_⟩
    rw [List.append_assoc]
    exact .emptyArray (hpre _) (hlast x)
  | array h hopen =>
    obtain ⟨pre, rfl, hpre⟩ := skipGap_takes h
    exact ⟨pre, rfl, fun x hx => .array (hpre x) hx⟩
  | emptyObject h hclose =>
    obtain ⟨pre, rfl, hpre⟩ := skipGap_takes h
    obtain ⟨last, rfl, hlast⟩ := skipGap_takes hclose
    refine ⟨pre ++ last, by rw [List.append_assoc], fun x _ => ?_⟩
    rw [List.append_assoc]
    exact .emptyObject (hpre _) (hlast x)
  | object h hkey =>
    obtain ⟨pre, rfl, hpre⟩ := skipGap_takes h
    obtain ⟨last, rfl, hlast⟩ := readKey?_takes hkey
    refine ⟨pre ++ last, by rw [List.append_assoc], fun x _ => ?_⟩
    rw [List.append_assoc]
    exact .object (hpre _) (hlast x)
  | atom h =>
    obtain ⟨c, more, hmore, htake⟩ := readAtom?_takes h
    obtain ⟨pre, rfl, hpre⟩ := skipGap_takes hmore
    refine ⟨pre ++ more, by simp, fun x hx => ?_⟩
    rw [List.append_assoc]
    refine .atom ?_
    rw [hpre]
    exact htake x hx
  | nextItem h =>
    obtain ⟨pre, rfl, hpre⟩ := skipGap_takes h
    exact ⟨pre, rfl, fun x _ => .nextItem (hpre x)⟩
  | lastItem h =>
    obtain ⟨pre, rfl, hpre⟩ := skipGap_takes h
    exact ⟨pre, rfl, fun x _ => .lastItem (hpre x)⟩
  | nextMember h hkey =>
    obtain ⟨pre, rfl, hpre⟩ := skipGap_takes h
    obtain ⟨last, rfl, hlast⟩ := readKey?_takes hkey
    refine ⟨pre ++ last, by rw [List.append_assoc], fun x _ => ?_⟩
    rw [List.append_assoc]
    exact .nextMember (hpre _) (hlast x)
  | lastMember h =>
    obtain ⟨pre, rfl, hpre⟩ := skipGap_takes h
    exact ⟨pre, rfl, fun x _ => .lastMember (hpre x)⟩

/-- Steps take a front of the text, and the same front before any text that may stand where they lead. -/
theorem ReadSteps.takes {a b : Stage × List Char} (h : ReadSteps a b) :
    ∃ pre, a.2 = pre ++ b.2 ∧ ∀ x, Ready (b.1, x) → ReadSteps (a.1, pre ++ x) (b.1, x) ∧ Ready (a.1, pre ++ x) := by
  induction h using Relation.ReflTransGen.head_induction_on with
  | refl => exact ⟨[], rfl, fun x hx => ⟨.refl, hx⟩⟩
  | head hstep _ ih =>
    obtain ⟨last, hlast, htakes⟩ := ih
    obtain ⟨pre, hpre, htake⟩ := hstep.takes
    refine ⟨pre ++ last, by rw [hpre, hlast, List.append_assoc], ?_⟩
    intro x hx
    obtain ⟨hsteps, hready⟩ := htakes x hx
    have hfirst := htake (last ++ x) hready
    rw [List.append_assoc]
    exact ⟨.head hfirst hsteps, hfirst.ready⟩

/-- A value is read off a front of the text, and off the same front before any text that does not go on with it. -/
theorem read?_takes {s left : List Char} {v : Json} (h : read? s = some (v, left)) :
    ∃ pre, s = pre ++ left ∧ ∀ x, Apart v x → read? (pre ++ x) = some (v, x) := by
  have hrun : ReadSteps (.wants [], s) (.has [] v, left) := finish?_iff.1 h
  obtain ⟨pre, hpre, htakes⟩ := hrun.takes
  exact ⟨pre, hpre, fun x hx => finish?_iff.2 (htakes x hx).1⟩

end ContactSheet.Json
