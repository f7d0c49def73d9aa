import ContactSheet.Json.Record
import ContactSheet.Json.Writer
import ContactSheet.Proofs.Json.Steps
import Mathlib.Tactic.Common

/-!
# Reading undoes writing

A value whose parts can stand in a text (`Writable`) is read back from the text that is written for it, whatever follows that does
not go on with it: `read?_write`. Each scanner reads back what is written for its part; for arrays and objects the steps of reading
follow the recursion of writing, with the items or members so far in the innermost frame. `ofText?_toText` says so of a whole text.
-/

namespace ContactSheet.Json

/-! ## What can be written -/

/-- A row of digits, at least one. -/
def Digits (ds : List Char) : Prop := ds ≠ [] ∧ ∀ d ∈ ds, d.isDigit = true

/-- A number that a text can hold: digits before the point, of which a zero stands alone, and digits wherever a point or an exponent
asks for them. -/
structure Number.Writable (n : Number) : Prop where
  whole : Digits n.whole
  zero_alone : ∀ d ds, n.whole ≠ '0' :: d :: ds
  fraction : ∀ ds ∈ n.fraction, Digits ds
  exponent : ∀ e ∈ n.exponent, Digits e.2

/-- A piece that a text can hold: a character, or what is indeed a surrogate half. -/
def Piece.Writable : Piece → Prop
  | .char _ => True
  | .half unit => (isHighHalf unit || isLowHalf unit) = true

/-- A text whose pieces can stand there. -/
def Text.Writable (t : Text) : Prop := ∀ p ∈ t, p.Writable

mutual

/-- A value whose parts can stand in a text. -/
def Writable : Json → Prop
  | .number n => n.Writable
  | .text t => Text.Writable t
  | .array items => ItemsWritable items
  | .object members => MembersWritable members
  | _ => True

/-- Items whose parts can stand in a text. -/
def ItemsWritable : List Json → Prop
  | [] => True
  | item :: rest => item.Writable ∧ ItemsWritable rest

/-- Members whose parts can stand in a text. -/
def MembersWritable : List (Text × Json) → Prop
  | [] => True
  | (key, value) :: rest => Text.Writable key ∧ value.Writable ∧ MembersWritable rest

end

/-- A string makes a text. -/
theorem writable_ofString (s : String) : Text.Writable (Text.ofString s) := by
  intro p hp
  obtain ⟨c, -, rfl⟩ := List.mem_map.1 hp
  trivial

/-- A record can stand in a text when its values can. -/
theorem writable_ofFields {fields : List (String × Json)} (h : ∀ f ∈ fields, f.2.Writable) : (ofFields fields).Writable := by
  show MembersWritable _
  induction fields with
  | nil => trivial
  | cons f fields ih =>
    exact ⟨writable_ofString f.1, h f List.mem_cons_self, ih fun g hg => h g (List.mem_cons_of_mem f hg)⟩

/-! ## Texts -/

/-- A hexadecimal digit reads back. -/
theorem hexDigit?_hexDigit (n : Nat) : hexDigit? (hexDigit n) = some (n % 16) := by
  have hall : ∀ d < 16, hexDigit? (Nat.digitChar d) = some d := by decide
  exact hall (n % 16) (Nat.mod_lt n (by decide))

/-- An escaped code unit reads back. -/
theorem readText?_escapeUnit {unit : Nat} (hu : unit < 0x10000) {s left : List Char} {t : Text} (h : readText? s = some (t, left)) :
    readText? (escapeUnit unit ++ s) = some (Piece.ofUnit unit :: t, left) := by
  have hunit : hexUnit? (hexDigit (unit / 4096)) (hexDigit (unit / 256)) (hexDigit (unit / 16)) (hexDigit unit) = some unit := by
    simp only [hexUnit?, hexDigit?_hexDigit, Option.pure_def, Option.bind_eq_bind, Option.bind_some, Option.some.injEq]
    omega
  simp only [escapeUnit, List.cons_append, List.nil_append, readText?, hunit, h]

/-- A piece reads back. -/
theorem readText?_piece {p : Piece} (hp : p.Writable) {s left : List Char} {t : Text} (h : readText? s = some (t, left)) :
    readText? (p.write ++ s) = some (p :: t, left) := by
  cases p with
  | half unit =>
    have hhalf : (isHighHalf unit || isLowHalf unit) = true := hp
    have hlt : unit < 0x10000 := by
      simp only [isHighHalf, isLowHalf, Bool.or_eq_true, Bool.and_eq_true, decide_eq_true_eq] at hhalf
      omega
    have hread := readText?_escapeUnit hlt h
    rwa [Piece.ofUnit, if_pos hhalf] at hread
  | char c =>
    simp only [Piece.write, writeChar]
    split
    · next hc =>
      subst hc
      exact readText?_escape rfl h
    split
    · next hc =>
      subst hc
      exact readText?_escape rfl h
    split
    · next hc =>
      subst hc
      exact readText?_escape rfl h
    split
    · next hc =>
      subst hc
      exact readText?_escape rfl h
    split
    · next hc =>
      subst hc
      exact readText?_escape rfl h
    split
    · next hc =>
      subst hc
      exact readText?_escape rfl h
    split
    · next hc =>
      subst hc
      exact readText?_escape rfl h
    split
    · next hcontrol =>
      have hread := readText?_escapeUnit (hcontrol.trans (by decide)) h
      have hno : (isHighHalf c.toNat || isLowHalf c.toNat) = false := by
        simp only [isHighHalf, isLowHalf, Bool.or_eq_false_iff, Bool.and_eq_false_iff, decide_eq_false_iff_not]
        omega
      rwa [Piece.ofUnit, hno, if_neg Bool.false_ne_true, Char.ofNat_toNat] at hread
    · next hquote hslash _ _ _ _ _ hcontrol =>
      refine readText?_plain hquote ?_ h
      rintro (hc | hc)
      · exact hcontrol hc
      · exact hslash hc

/-- A text reads back, up to its closing quote. -/
theorem readText?_write {t : Text} (ht : Text.Writable t) (rest : List Char) :
    readText? (t.flatMap Piece.write ++ '"' :: rest) = some (t, rest) := by
  induction t with
  | nil => rfl
  | cons p t ih =>
    rw [List.flatMap_cons, List.append_assoc]
    exact readText?_piece (ht p List.mem_cons_self) (ih fun q hq => ht q (List.mem_cons_of_mem p hq))

/-- A name reads back, with the colon after it. -/
theorem readKey?_write {key : Text} (hkey : Text.Writable key) (rest : List Char) :
    readKey? (Text.write key ++ ':' :: rest) = some (key, rest) := by
  have htext := readText?_write hkey (':' :: rest)
  have hquote : skipGap (Text.write key ++ ':' :: rest) = '"' :: (key.flatMap Piece.write ++ '"' :: ':' :: rest) := by
    simp only [Text.write, List.cons_append, List.append_assoc, List.nil_append]
    rfl
  have hcolon : skipGap (':' :: rest) = ':' :: rest := rfl
  simp only [readKey?, hquote, htext, hcolon]

/-! ## Numbers -/

/-- A fraction as written. -/
def writeFraction (fraction : Option (List Char)) : List Char := fraction.elim [] ('.' :: ·)

/-- An exponent as written. -/
def writeExponent (exponent : Option (Bool × List Char)) : List Char :=
  exponent.elim [] fun e => 'e' :: (if e.1 then '-' else '+') :: e.2

/-- A number is written part by part. -/
theorem Number.write_eq (n : Number) :
    n.write = (if n.negative then ['-'] else []) ++ (n.whole ++ (writeFraction n.fraction ++ writeExponent n.exponent)) := by
  obtain ⟨negative, whole, fraction, exponent⟩ := n
  cases fraction <;> cases exponent <;> simp [Number.write, writeFraction, writeExponent]

/-- Digits are no sign. -/
theorem exponentSign_write (down : Bool) (ds : List Char) : exponentSign ((if down then '-' else '+') :: ds) = (down, ds) := by
  cases down <;> rfl

/-- An exponent reads back, and does not go on with what stands before it. -/
theorem readExponent?_write {e : Option (Bool × List Char)} (he : ∀ p ∈ e, Digits p.2) {x : List Char} (hx : Outside isNumeral x) :
    readExponent? (writeExponent e ++ x) = some (e, x) ∧ Outside isDecimal (writeExponent e ++ x) := by
  cases e with
  | none => exact ⟨readExponent?_none hx, hx.mono fun c hc => isDecimal_of_isNumeral hc⟩
  | some p =>
    obtain ⟨down, ds⟩ := p
    obtain ⟨hne, hds⟩ := he (down, ds) rfl
    obtain ⟨d, more, rfl⟩ := List.exists_cons_of_ne_nil hne
    have hdigits : digits (d :: more ++ x) = (d :: more, x) :=
      digits_append hds (hx.mono fun c hc => isDigit_of_isDecimal (isDecimal_of_isNumeral hc))
    refine ⟨?_, Outside.cons (by decide)⟩
    show readExponent? ('e' :: (if down then '-' else '+') :: (d :: more ++ x)) = _
    simp only [readExponent?, exponentSign_write, hdigits, true_or, if_true]

/-- A fraction reads back, and does not go on with the digits before it. -/
theorem readFraction?_write {f : Option (List Char)} (hf : ∀ ds ∈ f, Digits ds) {x : List Char} (hx : Outside isDecimal x) :
    readFraction? (writeFraction f ++ x) = some (f, x) ∧ Outside Char.isDigit (writeFraction f ++ x) := by
  have hx' : Outside Char.isDigit x := hx.mono fun c hc => isDigit_of_isDecimal hc
  cases f with
  | none => exact ⟨readFraction?_none hx, hx'⟩
  | some ds =>
    obtain ⟨hne, hds⟩ := hf ds rfl
    obtain ⟨d, more, rfl⟩ := List.exists_cons_of_ne_nil hne
    refine ⟨?_, Outside.cons (by decide)⟩
    show readFraction? ('.' :: (d :: more ++ x)) = _
    simp only [readFraction?, digits_append hds hx']

/-- A number without its sign reads back. -/
theorem readUnsigned?_write {n : Number} (hn : n.Writable) {x : List Char} (hx : Outside isNumeral x) :
    readUnsigned? n.negative (n.whole ++ (writeFraction n.fraction ++ (writeExponent n.exponent ++ x))) = some (n, x) := by
  obtain ⟨hexponent, hdecimal⟩ := readExponent?_write hn.exponent hx
  obtain ⟨hfraction, hdigit⟩ := readFraction?_write hn.fraction hdecimal
  have hwhole := digits_append hn.whole.2 hdigit
  unfold readUnsigned?
  rw [hwhole]
  split
  · next heq => exact absurd (Prod.mk.inj heq).1 hn.whole.1
  · next heq => exact absurd (Prod.mk.inj heq).1 (hn.zero_alone _ _)
  · next heq =>
    obtain ⟨rfl, rfl⟩ := Prod.mk.inj heq
    simp only [hfraction, hexponent]

/-- What is written for a number starts with a sign or a digit. -/
theorem Number.exists_cons_write {n : Number} (hn : n.Writable) : ∃ c more, (c = '-' ∨ c.isDigit = true) ∧ n.write = c :: more := by
  obtain ⟨d, ds, hd⟩ := List.exists_cons_of_ne_nil hn.whole.1
  rw [n.write_eq]
  cases n.negative with
  | true => exact ⟨'-', _, .inl rfl, rfl⟩
  | false =>
    refine ⟨d, ds ++ (writeFraction n.fraction ++ writeExponent n.exponent), .inr (hn.whole.2 d (hd ▸ List.mem_cons_self)), ?_⟩
    rw [hd]
    rfl

/-- A number reads back. -/
theorem readNumber?_write {n : Number} (hn : n.Writable) {x : List Char} (hx : Outside isNumeral x) :
    readNumber? (n.write ++ x) = some (n, x) := by
  have hread := readUnsigned?_write hn hx
  rw [n.write_eq]
  simp only [List.append_assoc]
  cases hneg : n.negative with
  | true =>
    rw [hneg] at hread
    exact hread
  | false =>
    rw [hneg] at hread
    obtain ⟨d, ds, hd⟩ := List.exists_cons_of_ne_nil hn.whole.1
    have hdigit : d.isDigit = true := hn.whole.2 d (hd ▸ List.mem_cons_self)
    rw [hd] at hread ⊢
    show readNumber? (d :: _) = _
    rw [readNumber?]
    · exact hread
    · rintro rest heq
      cases heq
      cases hdigit

/-! ## Values -/

/-- What a number starts with is no gap. -/
theorem isGap_of_numeral {c : Char} (hc : c = '-' ∨ c.isDigit = true) : isGap c = false := by
  rw [← Bool.not_eq_true]
  intro hgap
  simp only [isGap, Bool.or_eq_true, beq_iff_eq] at hgap
  rcases hgap with ((rfl | rfl) | rfl) | rfl <;> exact absurd hc (by decide)

/-- A number is read back as a value. -/
theorem readAtom?_write_number {n : Number} (hn : n.Writable) {x : List Char} (hx : Outside isNumeral x) :
    readAtom? (skipGap (n.write ++ x)) = some (.number n, x) := by
  have hread := readNumber?_write hn hx
  obtain ⟨c, more, hc, hwrite⟩ := Number.exists_cons_write hn
  rw [hwrite, List.cons_append] at hread ⊢
  rw [skipGap, List.dropWhile_cons_of_neg (by rw [isGap_of_numeral hc]; exact Bool.false_ne_true), readAtom?_number hc, hread,
    Option.map_some]

/-- A text is read back as a value. -/
theorem readAtom?_write_text {t : Text} (ht : Text.Writable t) (x : List Char) :
    readAtom? (skipGap (Text.write t ++ x)) = some (.text t, x) := by
  have hskip : skipGap (Text.write t ++ x) = '"' :: (t.flatMap Piece.write ++ '"' :: x) := by
    simp only [Text.write, List.cons_append, List.append_assoc, List.nil_append]
    rfl
  rw [hskip, readAtom?, readText?_write ht, Option.map_some]

/-- Before a value is read, the text does not close an array. -/
theorem ReadSteps.not_closed {frames frames' : List Frame} {s left : List Char} {v : Json}
    (h : ReadSteps (.wants frames, s) (.has frames' v, left)) (rest : List Char) : skipGap s ≠ ']' :: rest := by
  cases h using Relation.ReflTransGen.head_induction_on with
  | head hstep => exact hstep.ready rest

/-- What is written after an item: a comma and the other items, or the bracket that closes the array. -/
def writeItemsAfter : List Json → List Char
  | [] => [']']
  | item :: rest => ',' :: writeItems (item :: rest)

/-- What is written after a member: a comma and the other members, or the brace that closes the object. -/
def writeMembersAfter : List (Text × Json) → List Char
  | [] => ['}']
  | member :: rest => ',' :: writeMembers (member :: rest)

/-- An item is written, and then what comes after it. -/
theorem writeItems_cons (item : Json) (items : List Json) : writeItems (item :: items) = item.write ++ writeItemsAfter items := by
  cases items <;> simp only [writeItems, writeItemsAfter]

/-- The name and the value of a member are written, and then what comes after it. -/
theorem writeMembers_cons (key : Text) (value : Json) (members : List (Text × Json)) :
    writeMembers ((key, value) :: members) = Text.write key ++ ':' :: (value.write ++ writeMembersAfter members) := by
  cases members <;> simp only [writeMembers, writeMembersAfter]

/-- What comes after an item does not go on with it. -/
theorem apart_writeItemsAfter (v : Json) (items : List Json) (rest : List Char) : Apart v (writeItemsAfter items ++ rest) := by
  cases v with
  | number n => cases items <;> exact Outside.cons (by decide)
  | _ => trivial

/-- What comes after a member does not go on with it. -/
theorem apart_writeMembersAfter (v : Json) (members : List (Text × Json)) (rest : List Char) :
    Apart v (writeMembersAfter members ++ rest) := by
  cases v with
  | number n => cases members <;> exact Outside.cons (by decide)
  | _ => trivial

mutual

/-- What is written for a value is read in steps, to the value. -/
theorem readSteps_write (v : Json) (h : v.Writable) (frames : List Frame) (rest : List Char) (hrest : Apart v rest) :
    ReadSteps (.wants frames, v.write ++ rest) (.has frames v, rest) := by
  match v with
  | .null => exact .single (.atom rfl)
  | .bool true => exact .single (.atom rfl)
  | .bool false => exact .single (.atom rfl)
  | .number n => exact .single (.atom (readAtom?_write_number h hrest))
  | .text t => exact .single (.atom (readAtom?_write_text h rest))
  | .array [] => exact .single (.emptyArray rfl rfl)
  | .array (item :: items) =>
    have hitem := readSteps_write item h.1 (.items [] :: frames) (writeItemsAfter items ++ rest)
      (apart_writeItemsAfter item items rest)
    have hitems := readSteps_writeItemsAfter items h.2 [] item frames rest
    rw [write, writeItems_cons, List.cons_append, List.append_assoc]
    exact .head (.array rfl hitem.not_closed) (hitem.trans hitems)
  | .object [] => exact .single (.emptyObject rfl rfl)
  | .object ((key, value) :: members) =>
    have hvalue := readSteps_write value h.2.1 (.members [] key :: frames) (writeMembersAfter members ++ rest)
      (apart_writeMembersAfter value members rest)
    have hmembers := readSteps_writeMembersAfter members h.2.2 [] key value frames rest
    rw [write, writeMembers_cons, List.cons_append, List.append_assoc, List.cons_append, List.append_assoc]
    exact .head (.object rfl (readKey?_write h.1 _)) (hvalue.trans hmembers)

/-- What is written after an item is read in steps, to the array of the items so far and those after it. -/
theorem readSteps_writeItemsAfter (items : List Json) (h : ItemsWritable items) (done : List Json) (v : Json) (frames : List Frame)
    (rest : List Char) :
    ReadSteps (.has (.items done :: frames) v, writeItemsAfter items ++ rest)
      (.has frames (.array (done.reverse ++ v :: items)), rest) := by
  match items with
  | [] =>
    rw [← List.reverse_cons]
    exact .single (.lastItem rfl)
  | item :: items =>
    have hitem := readSteps_write item h.1 (.items (v :: done) :: frames) (writeItemsAfter items ++ rest)
      (apart_writeItemsAfter item items rest)
    have hitems := readSteps_writeItemsAfter items h.2 (v :: done) item frames rest
    rw [writeItemsAfter, writeItems_cons, List.cons_append, List.append_assoc]
    rw [List.reverse_cons, List.append_assoc, List.singleton_append] at hitems
    exact .head (.nextItem rfl) (hitem.trans hitems)

/-- What is written after a member is read in steps, to the object of the members so far and those after it. -/
theorem readSteps_writeMembersAfter (members : List (Text × Json)) (h : MembersWritable members) (done : List (Text × Json))
    (key : Text) (v : Json) (frames : List Frame) (rest : List Char) :
    ReadSteps (.has (.members done key :: frames) v, writeMembersAfter members ++ rest)
      (.has frames (.object (done.reverse ++ (key, v) :: members)), rest) := by
  match members with
  | [] =>
    rw [← List.reverse_cons]
    exact .single (.lastMember rfl)
  | (next, value) :: members =>
    have hvalue := readSteps_write value h.2.1 (.members ((key, v) :: done) next :: frames) (writeMembersAfter members ++ rest)
      (apart_writeMembersAfter value members rest)
    have hmembers := readSteps_writeMembersAfter members h.2.2 ((key, v) :: done) next value frames rest
    rw [writeMembersAfter, writeMembers_cons, List.cons_append, List.append_assoc, List.cons_append, List.append_assoc]
    rw [List.reverse_cons, List.append_assoc, List.singleton_append] at hmembers
    exact .head (.nextMember rfl (readKey?_write h.1 _)) (hvalue.trans hmembers)

end

/-- A value is read back from what is written for it, whatever follows that does not go on with it. -/
theorem read?_write {v : Json} (h : v.Writable) {rest : List Char} (hrest : Apart v rest) :
    read? (v.write ++ rest) = some (v, rest) := finish?_iff.2 (readSteps_write v h [] rest hrest)

/-- A value is read back from its text. -/
theorem ofText?_toText {v : Json} (h : v.Writable) : ofText? v.toText = some v := by
  have hend : Apart v [] := by
    cases v with
    | number n => exact nofun
    | _ => trivial
  have hread := read?_write h hend
  rw [List.append_nil] at hread
  rw [ofText?, toText, String.toList_ofList, hread]
  rfl

end ContactSheet.Json
