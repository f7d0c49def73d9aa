import ContactSheet.Json.Reader
import Mathlib.Data.List.TakeWhile

/-!
# What a scanner takes

A scanner takes a front of a text and leaves the rest (`..._takes`): it takes the same front, for the same result, whatever follows
in place of that rest. Only the parts of a number look one character ahead, so what follows a number must not start with a character
that could go on with it (`Outside`).
-/

namespace ContactSheet.Json

/-- The text does not start with a character of the class. -/
def Outside (p : Char → Bool) (s : List Char) : Prop := ∀ c ∈ s.head?, p c = false

theorem Outside.cons {p : Char → Bool} {c : Char} {s : List Char} (h : p c = false) : Outside p (c :: s) := by
  intro d hd
  cases hd
  exact h

theorem Outside.mono {p q : Char → Bool} {s : List Char} (h : Outside q s) (hpq : ∀ c, q c = false → p c = false) :
    Outside p s := fun c hc => hpq c (h c hc)

/-! ## Gaps -/

/-- A scanner of gaps stops at the first character that is none, whatever follows it. -/
theorem skipGap_takes {s rest : List Char} {c : Char} (h : skipGap s = c :: rest) :
    ∃ pre, s = pre ++ rest ∧ ∀ x, skipGap (pre ++ x) = c :: x := by
  have hc : isGap c = false := by
    have hnot := List.head?_dropWhile_not isGap s
    rw [← skipGap, h] at hnot
    simpa using hnot
  refine ⟨s.takeWhile isGap ++ [c], ?_, ?_⟩
  · have hsplit := List.takeWhile_append_dropWhile (p := isGap) (l := s)
    rw [← skipGap, h] at hsplit
    rw [List.append_assoc, List.singleton_append, hsplit]
  · intro x
    have hgap : ∀ d ∈ s.takeWhile isGap, isGap d = true := fun d hd => List.mem_takeWhile_imp hd
    rw [List.append_assoc, List.singleton_append, skipGap, List.dropWhile_append_of_pos hgap,
      List.dropWhile_cons_of_neg (by simp [hc])]

/-! ## Texts and names -/

/-- A one-letter escape stands for its character. -/
theorem readText?_escape {c e : Char} (he : escaped? c = some e) {rest left : List Char} {t : Text}
    (hr : readText? rest = some (t, left)) : readText? ('\\' :: c :: rest) = some (.char e :: t, left) := by
  have hu : c ≠ 'u' := by
    rintro rfl
    nomatch he
  rw [readText?]
  · simp only [he, hr]
  · intro _ _ _ _ _ hc _
    exact hu hc

/-- A character that needs no escape stands for itself. -/
theorem readText?_plain {c : Char} (hq : c ≠ '"') (hplain : ¬(c.toNat < 0x20 ∨ c = '\\')) {rest left : List Char} {t : Text}
    (hr : readText? rest = some (t, left)) : readText? (c :: rest) = some (.char c :: t, left) := by
  have hb : c ≠ '\\' := fun h => hplain (.inr h)
  rw [readText?]
  · simp only [if_neg hplain, hr]
  · exact hq
  · intro _ _ _ _ _ hc _
    exact hb hc
  · intro _ _ hc _
    exact hb hc

theorem readText?_takes {s left : List Char} {t : Text} (h : readText? s = some (t, left)) :
    ∃ pre, s = pre ++ left ∧ ∀ x, readText? (pre ++ x) = some (t, x) := by
  fun_induction readText? s generalizing t left with
  | case1 => cases h
  | case2 rest =>
    cases h
    exact ⟨['"'], rfl, fun x => by simp [readText?]⟩
  | case3 a b c d rest unit t' left' hr hu ih =>
    cases h
    obtain ⟨pre, rfl, hpre⟩ := ih hr
    exact ⟨'\\' :: 'u' :: a :: b :: c :: d :: pre, rfl, fun x => by simp [readText?, hu, hpre]⟩
  | case4 => cases h
  | case5 c rest hnot e t' left' hr he ih =>
    cases h
    obtain ⟨pre, rfl, hpre⟩ := ih hr
    exact ⟨'\\' :: c :: pre, rfl, fun x => readText?_escape he (hpre x)⟩
  | case6 => cases h
  | case7 => cases h
  | case8 c rest hq hu hb hplain t' left' hr ih =>
    cases h
    obtain ⟨pre, rfl, hpre⟩ := ih hr
    exact ⟨c :: pre, rfl, fun x => readText?_plain hq hplain (hpre x)⟩
  | case9 => cases h

/-- A name is taken with the colon after it. -/
theorem readKey?_takes {s left : List Char} {key : Text} (h : readKey? s = some (key, left)) :
    ∃ pre, s = pre ++ left ∧ ∀ x, readKey? (pre ++ x) = some (key, x) := by
  unfold readKey? at h
  split at h
  · next rest hquote =>
    split at h
    · nomatch h
    · next key' rest' htext =>
      split at h
      · next left' hcolon =>
        cases h
        obtain ⟨pre, rfl, hpre⟩ := skipGap_takes hquote
        obtain ⟨mid, rfl, hmid⟩ := readText?_takes htext
        obtain ⟨last, rfl, hlast⟩ := skipGap_takes hcolon
        refine ⟨pre ++ (mid ++ last), by simp, ?_⟩
        intro x
        simp only [readKey?, List.append_assoc, hpre, hmid, hlast]
      · nomatch h
  · nomatch h

/-! ## Numbers -/

/-- A character that could go on with the digits of a number or bring in its fraction. -/
def isDecimal (c : Char) : Bool := c.isDigit || c == '.'

/-- A character that could go on with a number. -/
def isNumeral (c : Char) : Bool := isDecimal c || c == 'e' || c == 'E'

theorem isDigit_of_isDecimal {c : Char} (h : isDecimal c = false) : c.isDigit = false := by
  unfold isDecimal at h
  exact (Bool.or_eq_false_iff.1 h).1

theorem isDecimal_of_isNumeral {c : Char} (h : isNumeral c = false) : isDecimal c = false := by
  unfold isNumeral at h
  exact (Bool.or_eq_false_iff.1 (Bool.or_eq_false_iff.1 h).1).1

/-- Digits are taken as far as they go. -/
theorem digits_append {ds x : List Char} (hds : ∀ d ∈ ds, d.isDigit = true) (hx : Outside Char.isDigit x) :
    digits (ds ++ x) = (ds, x) := by
  have hfirst : x.takeWhile Char.isDigit = [] ∧ x.dropWhile Char.isDigit = x := by
    cases x with
    | nil => exact ⟨rfl, rfl⟩
    | cons c x =>
      have hc := hx c rfl
      exact ⟨List.takeWhile_cons_of_neg (by simp [hc]), List.dropWhile_cons_of_neg (by simp [hc])⟩
  rw [digits, List.takeWhile_append_of_pos hds, List.dropWhile_append_of_pos hds, hfirst.1, hfirst.2, List.append_nil]

theorem digits_takes {s ds left : List Char} (h : digits s = (ds, left)) :
    s = ds ++ left ∧ ∀ x, Outside Char.isDigit x → digits (ds ++ x) = (ds, x) := by
  cases h
  refine ⟨(List.takeWhile_append_dropWhile).symm, ?_⟩
  intro x hx
  exact digits_append (fun d hd => List.mem_takeWhile_imp hd) hx

/-- The first of some digits. -/
theorem isDigit_of_digits {s ds left : List Char} {d : Char} (h : digits s = (d :: ds, left)) : d.isDigit = true := by
  have hd : d ∈ s.takeWhile Char.isDigit := by
    rw [digits, Prod.mk.injEq] at h
    rw [h.1]
    exact List.mem_cons_self
  exact List.mem_takeWhile_imp hd

/-- Where no point stands there is no fraction. -/
theorem readFraction?_none {x : List Char} (hx : Outside isDecimal x) : readFraction? x = some (none, x) := by
  rw [readFraction?]
  rintro rest rfl
  nomatch hx '.' rfl

theorem readFraction?_takes {s left : List Char} {f : Option (List Char)} (h : readFraction? s = some (f, left)) :
    ∃ pre, s = pre ++ left ∧
      ∀ x, Outside isDecimal x → readFraction? (pre ++ x) = some (f, x) ∧ Outside Char.isDigit (pre ++ x) := by
  unfold readFraction? at h
  split at h
  · next rest =>
    split at h
    · nomatch h
    · next ds left' hne hds =>
      cases h
      obtain ⟨rfl, htake⟩ := digits_takes hds
      refine ⟨'.' :: ds, rfl, ?_⟩
      intro x hx
      refine ⟨?_, Outside.cons (by decide)⟩
      have hx' : digits (ds ++ x) = (ds, x) := htake x (hx.mono fun c hc => isDigit_of_isDecimal hc)
      simp only [readFraction?, List.cons_append, hx']
  · next hdot =>
    cases h
    refine ⟨[], rfl, ?_⟩
    intro x hx
    exact ⟨readFraction?_none hx, hx.mono fun c hc => isDigit_of_isDecimal hc⟩

/-- A sign is taken if there is one, and the digit after it is left. -/
theorem exponentSign_takes (s : List Char) :
    ∃ pre, s = pre ++ (exponentSign s).2 ∧
      ∀ d x, d.isDigit = true → exponentSign (pre ++ d :: x) = ((exponentSign s).1, d :: x) := by
  unfold exponentSign
  split
  · exact ⟨['-'], rfl, fun d x _ => rfl⟩
  · exact ⟨['+'], rfl, fun d x _ => rfl⟩
  · refine ⟨[], rfl, ?_⟩
    intro d x hd
    rw [List.nil_append]
    split
    · next heq =>
      cases heq
      nomatch hd
    · next heq =>
      cases heq
      nomatch hd
    · rfl

/-- Where no letter of an exponent stands there is none. -/
theorem readExponent?_none {x : List Char} (hx : Outside isNumeral x) : readExponent? x = some (none, x) := by
  cases x with
  | nil => rfl
  | cons c x =>
    have hc : ¬(c = 'e' ∨ c = 'E') := by
      rintro (rfl | rfl)
      · nomatch hx 'e' rfl
      · nomatch hx 'E' rfl
    simp only [readExponent?, if_neg hc]

theorem readExponent?_takes {s left : List Char} {e : Option (Bool × List Char)} (h : readExponent? s = some (e, left)) :
    ∃ pre, s = pre ++ left ∧
      ∀ x, Outside isNumeral x → readExponent? (pre ++ x) = some (e, x) ∧ Outside isDecimal (pre ++ x) := by
  have hnone : ∀ x, Outside isNumeral x → readExponent? ([] ++ x) = some (none, x) ∧ Outside isDecimal ([] ++ x) :=
    fun x hx => ⟨readExponent?_none hx, hx.mono fun c hc => isDecimal_of_isNumeral hc⟩
  unfold readExponent? at h
  split at h
  · cases h
    exact ⟨[], rfl, hnone⟩
  · next c rest =>
    split at h
    · next hc =>
      split at h
      · nomatch h
      · next ds left' hne hds =>
        cases h
        obtain ⟨sign, hsign, htakeSign⟩ := exponentSign_takes rest
        obtain ⟨hbody, htakeDigits⟩ := digits_takes hds
        obtain ⟨d, more, rfl⟩ := List.exists_cons_of_ne_nil hne
        have hd : d.isDigit = true := isDigit_of_digits hds
        refine ⟨c :: (sign ++ d :: more), ?_, ?_⟩
        · rw [List.cons_append, List.append_assoc, ← hbody, ← hsign]
        · intro x hx
          have hx' : Outside Char.isDigit x := hx.mono fun c hc => isDigit_of_isDecimal (isDecimal_of_isNumeral hc)
          have hrest : exponentSign (sign ++ d :: (more ++ x)) = ((exponentSign rest).1, d :: (more ++ x)) :=
            htakeSign d (more ++ x) hd
          have hdigits : digits (d :: (more ++ x)) = (d :: more, x) := htakeDigits x hx'
          have hsplit : c :: (sign ++ d :: more) ++ x = c :: (sign ++ d :: (more ++ x)) := by simp
          rw [hsplit]
          refine ⟨?_, Outside.cons ?_⟩
          · simp only [readExponent?, if_pos hc, hrest, hdigits]
          · rcases hc with rfl | rfl
            · decide
            · decide
    · cases h
      exact ⟨[], rfl, hnone⟩

theorem readUnsigned?_takes {negative : Bool} {s left : List Char} {n : Number} (h : readUnsigned? negative s = some (n, left)) :
    ∃ d pre, d.isDigit = true ∧ s = d :: pre ++ left ∧
      ∀ x, Outside isNumeral x → readUnsigned? negative (d :: pre ++ x) = some (n, x) := by
  unfold readUnsigned? at h
  split at h
  · nomatch h
  · nomatch h
  · next whole rest hne hzero hwhole =>
    split at h
    · nomatch h
    · next fraction rest' hfraction =>
      split at h
      · nomatch h
      · next exponent left' hexponent =>
        cases h
        obtain ⟨d, more, rfl⟩ := List.exists_cons_of_ne_nil hne
        obtain ⟨rfl, htakeWhole⟩ := digits_takes hwhole
        obtain ⟨mid, rfl, htakeFraction⟩ := readFraction?_takes hfraction
        obtain ⟨last, rfl, htakeExponent⟩ := readExponent?_takes hexponent
        refine ⟨d, more ++ (mid ++ last), isDigit_of_digits hwhole, by simp, ?_⟩
        intro x hx
        obtain ⟨hexp, hdecimal⟩ := htakeExponent x hx
        obtain ⟨hfrac, hdigit⟩ := htakeFraction (last ++ x) hdecimal
        have hdigits := htakeWhole (mid ++ (last ++ x)) hdigit
        have hsplit : d :: (more ++ (mid ++ last)) ++ x = d :: more ++ (mid ++ (last ++ x)) := by simp
        rw [hsplit]
        unfold readUnsigned?
        rw [hdigits]
        simp only [hfrac, hexp]

/-- A number starts with its sign or a digit. -/
theorem readNumber?_takes {s left : List Char} {n : Number} (h : readNumber? s = some (n, left)) :
    ∃ c pre, (c = '-' ∨ c.isDigit = true) ∧ s = c :: pre ++ left ∧
      ∀ x, Outside isNumeral x → readNumber? (c :: pre ++ x) = some (n, x) := by
  unfold readNumber? at h
  split at h
  · obtain ⟨d, pre, -, rfl, htake⟩ := readUnsigned?_takes h
    exact ⟨'-', d :: pre, .inl rfl, rfl, htake⟩
  · obtain ⟨d, pre, hd, rfl, htake⟩ := readUnsigned?_takes h
    refine ⟨d, pre, .inr hd, rfl, ?_⟩
    intro x hx
    rw [List.cons_append, readNumber?]
    · exact htake x hx
    · rintro rest heq
      cases heq
      nomatch hd

/-! ## Values that hold no other -/

/-- The text may follow the value: it does not go on with it, when that is a number. -/
def Apart (v : Json) (s : List Char) : Prop :=
  match v with
  | .number _ => Outside isNumeral s
  | _ => True

/-- What starts as a number is read as one. -/
theorem readAtom?_number {c : Char} (hc : c = '-' ∨ c.isDigit = true) (s : List Char) :
    readAtom? (c :: s) = (readNumber? (c :: s)).map fun (n, left) => (.number n, left) := by
  have hletter : ∀ d : Char, d ≠ '-' → d.isDigit = false → c ≠ d := by
    rintro d hd hd' rfl
    rcases hc with hc | hc
    · exact hd hc
    · rw [hd'] at hc
      nomatch hc
  rw [readAtom?]
  · intro _ heq
    exact hletter 'n' (by decide) (by decide) (List.cons.inj heq).1
  · intro _ heq
    exact hletter 't' (by decide) (by decide) (List.cons.inj heq).1
  · intro _ heq
    exact hletter 'f' (by decide) (by decide) (List.cons.inj heq).1
  · intro _ heq
    exact hletter '"' (by decide) (by decide) (List.cons.inj heq).1

theorem readAtom?_takes {s left : List Char} {v : Json} (h : readAtom? s = some (v, left)) :
    ∃ c pre, s = c :: pre ++ left ∧ ∀ x, Apart v x → readAtom? (c :: pre ++ x) = some (v, x) := by
  unfold readAtom? at h
  split at h
  · cases h
    exact ⟨'n', ['u', 'l', 'l'], rfl, fun x _ => rfl⟩
  · cases h
    exact ⟨'t', ['r', 'u', 'e'], rfl, fun x _ => rfl⟩
  · cases h
    exact ⟨'f', ['a', 'l', 's', 'e'], rfl, fun x _ => rfl⟩
  · obtain ⟨⟨t, left'⟩, ht, heq⟩ := Option.map_eq_some_iff.1 h
    cases heq
    obtain ⟨pre, rfl, htake⟩ := readText?_takes ht
    refine ⟨'"', pre, rfl, ?_⟩
    intro x _
    simp only [List.cons_append, readAtom?, htake, Option.map_some]
  · obtain ⟨⟨n, left'⟩, hn, heq⟩ := Option.map_eq_some_iff.1 h
    cases heq
    obtain ⟨c, pre, hc, rfl, htake⟩ := readNumber?_takes hn
    refine ⟨c, pre, rfl, ?_⟩
    intro x hx
    have hx' : readNumber? (c :: pre ++ x) = some (n, x) := htake x hx
    rw [List.cons_append] at hx' ⊢
    rw [readAtom?_number hc, hx', Option.map_some]

/-- A value that holds no other does not start with a bracket or a brace. -/
theorem readAtom?_bracket {c : Char} (hc : c ∈ ['[', ']', '{', '}']) (s : List Char) : readAtom? (c :: s) = none := by
  simp only [List.mem_cons, List.not_mem_nil, or_false] at hc
  rcases hc with rfl | rfl | rfl | rfl <;> rfl

end ContactSheet.Json
