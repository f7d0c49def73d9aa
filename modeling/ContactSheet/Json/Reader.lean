import ContactSheet.Json.Basic

/-!
# Reading JSON texts

`Json.read?` reads the value at the head of a text and returns it with what follows. The containers that are still open are kept
in a stack of frames, so the nesting of a text is not limited. Every step takes at least one character, so reading ends. A value
keeps the digits of its numbers and the pieces of its texts as they are written: here only the grammar decides.
-/

namespace ContactSheet

namespace Json

/-- The characters that may stand between the parts of a text. -/
def isGap (c : Char) : Bool := c == ' ' || c == '\t' || c == '\n' || c == '\r'

/-- The text after its leading gap. -/
def skipGap (s : List Char) : List Char := s.dropWhile isGap

/-- The worth of a hexadecimal digit of either case. -/
def hexDigit? (c : Char) : Option Nat :=
  if '0' ≤ c ∧ c ≤ '9' then some (c.toNat - '0'.toNat)
  else if 'a' ≤ c ∧ c ≤ 'f' then some (c.toNat - 'a'.toNat + 10)
  else if 'A' ≤ c ∧ c ≤ 'F' then some (c.toNat - 'A'.toNat + 10)
  else none

/-- The code unit that four hexadecimal digits name. -/
def hexUnit? (a b c d : Char) : Option Nat := do
  return (((← hexDigit? a) * 16 + (← hexDigit? b)) * 16 + (← hexDigit? c)) * 16 + (← hexDigit? d)

/-- The piece that a code unit stands for. -/
def Piece.ofUnit (unit : Nat) : Piece :=
  if isHighHalf unit || isLowHalf unit then .half unit else .char (Char.ofNat unit)

/-- The character that a one-letter escape stands for. -/
def escaped? : Char → Option Char
  | '"' => some '"'
  | '\\' => some '\\'
  | '/' => some '/'
  | 'b' => some '\x08'
  | 'f' => some '\x0c'
  | 'n' => some '\n'
  | 'r' => some '\r'
  | 't' => some '\t'
  | _ => none

/-- Reads a text up to its closing quote; control characters must be escaped. -/
def readText? : List Char → Option (Text × List Char)
  | [] => none
  | '"' :: rest => some ([], rest)
  | '\\' :: 'u' :: a :: b :: c :: d :: rest =>
    match hexUnit? a b c d, readText? rest with
    | some unit, some (t, left) => some (Piece.ofUnit unit :: t, left)
    | _, _ => none
  | '\\' :: c :: rest =>
    match escaped? c, readText? rest with
    | some e, some (t, left) => some (.char e :: t, left)
    | _, _ => none
  | c :: rest =>
    if c.toNat < 0x20 ∨ c = '\\' then none
    else
      match readText? rest with
      | some (t, left) => some (.char c :: t, left)
      | none => none

/-- The digits at the head of a text, and what follows them. -/
def digits (s : List Char) : List Char × List Char := (s.takeWhile Char.isDigit, s.dropWhile Char.isDigit)

/-- Reads the digits after a point, if there is a point; at least one must follow it. -/
def readFraction? : List Char → Option (Option (List Char) × List Char)
  | '.' :: rest =>
    match digits rest with
    | ([], _) => none
    | (ds, left) => some (some ds, left)
  | s => some (none, s)

/-- The sign at the head of an exponent: true for a minus. -/
def exponentSign : List Char → Bool × List Char
  | '-' :: rest => (true, rest)
  | '+' :: rest => (false, rest)
  | s => (false, s)

/-- Reads an exponent, if there is one; at least one digit must stand in it. -/
def readExponent? (s : List Char) : Option (Option (Bool × List Char) × List Char) :=
  match s with
  | [] => some (none, [])
  | c :: rest =>
    if c = 'e' ∨ c = 'E' then
      match digits (exponentSign rest).2 with
      | ([], _) => none
      | (ds, left) => some (some ((exponentSign rest).1, ds), left)
    else some (none, s)

/-- Reads a number without its sign; a zero at its head stands alone before the point. -/
def readUnsigned? (negative : Bool) (s : List Char) : Option (Number × List Char) :=
  match digits s with
  | ([], _) => none
  | ('0' :: _ :: _, _) => none
  | (whole, rest) =>
    match readFraction? rest with
    | none => none
    | some (fraction, rest) =>
      match readExponent? rest with
      | none => none
      | some (exponent, left) => some (⟨negative, whole, fraction, exponent⟩, left)

/-- Reads a number. -/
def readNumber? : List Char → Option (Number × List Char)
  | '-' :: rest => readUnsigned? true rest
  | s => readUnsigned? false s

/-- Reads a value that holds no other. -/
def readAtom? : List Char → Option (Json × List Char)
  | 'n' :: 'u' :: 'l' :: 'l' :: rest => some (.null, rest)
  | 't' :: 'r' :: 'u' :: 'e' :: rest => some (.bool true, rest)
  | 'f' :: 'a' :: 'l' :: 's' :: 'e' :: rest => some (.bool false, rest)
  | '"' :: rest => (readText? rest).map fun (t, left) => (.text t, left)
  | s => (readNumber? s).map fun (n, left) => (.number n, left)

/-- Reads the name of a member and the colon after it. -/
def readKey? (s : List Char) : Option (Text × List Char) :=
  match skipGap s with
  | '"' :: rest =>
    match readText? rest with
    | none => none
    | some (key, rest) =>
      match skipGap rest with
      | ':' :: left => some (key, left)
      | _ => none
  | _ => none

/-! ## Every step takes a character -/

theorem length_skipGap_le (s : List Char) : (skipGap s).length ≤ s.length := by
  unfold skipGap
  exact (List.dropWhile_sublist _).length_le

theorem length_readText?_lt {s : List Char} {t : Text} {left : List Char} (h : readText? s = some (t, left)) :
    left.length < s.length := by
  fun_induction readText? s generalizing t left with
  | case1 => simp at h
  | case2 rest => simp only [Option.some.injEq, Prod.mk.injEq] at h; simp [← h.2]
  | case3 a b c d rest unit t' left' hr _ ih =>
    have := ih hr
    simp only [Option.some.injEq, Prod.mk.injEq] at h
    simp only [List.length_cons, ← h.2]
    omega
  | case4 => simp at h
  | case5 c rest _ e t' left' hr _ ih =>
    have := ih hr
    simp only [Option.some.injEq, Prod.mk.injEq] at h
    simp only [List.length_cons, ← h.2]
    omega
  | case6 => simp at h
  | case7 => simp at h
  | case8 c rest _ _ _ _ t' left' hr ih =>
    have := ih hr
    simp only [Option.some.injEq, Prod.mk.injEq] at h
    simp only [List.length_cons, ← h.2]
    omega
  | case9 => simp at h

theorem length_digits_lt {s ds left : List Char} (h : digits s = (ds, left)) (hne : ds ≠ []) :
    left.length < s.length := by
  simp only [digits, Prod.mk.injEq] at h
  have hs := congrArg List.length (List.takeWhile_append_dropWhile (p := Char.isDigit) (l := s))
  simp only [List.length_append, h.1, h.2] at hs
  have := List.length_pos_iff.2 hne
  omega

theorem length_readFraction?_le {s left : List Char} {f : Option (List Char)} (h : readFraction? s = some (f, left)) :
    left.length ≤ s.length := by
  unfold readFraction? at h
  split at h
  · next rest =>
    split at h
    · simp at h
    · next ds left' hne hd =>
      have := length_digits_lt hd hne
      simp only [Option.some.injEq, Prod.mk.injEq] at h
      simp only [List.length_cons, ← h.2]
      omega
  · simp only [Option.some.injEq, Prod.mk.injEq] at h
    simp [h.2]

theorem length_exponentSign_le (s : List Char) : (exponentSign s).2.length ≤ s.length := by
  unfold exponentSign
  split <;> simp

theorem length_readExponent?_le {s left : List Char} {e : Option (Bool × List Char)}
    (h : readExponent? s = some (e, left)) : left.length ≤ s.length := by
  unfold readExponent? at h
  split at h
  · simp only [Option.some.injEq, Prod.mk.injEq] at h
    simp [← h.2]
  · next c rest =>
    split at h
    · split at h
      · simp at h
      · next ds left' hne hd =>
        have := length_digits_lt hd hne
        have := length_exponentSign_le rest
        simp only [Option.some.injEq, Prod.mk.injEq] at h
        simp only [List.length_cons, ← h.2]
        omega
    · simp only [Option.some.injEq, Prod.mk.injEq] at h
      simp [← h.2]

theorem length_readUnsigned?_lt {neg : Bool} {s left : List Char} {n : Number}
    (h : readUnsigned? neg s = some (n, left)) : left.length < s.length := by
  unfold readUnsigned? at h
  split at h
  · simp at h
  · simp at h
  · next whole rest hne _ hd =>
    have h1 := length_digits_lt hd hne
    split at h
    · simp at h
    · next fraction rest' hf =>
      have h2 := length_readFraction?_le hf
      split at h
      · simp at h
      · next exponent left' he =>
        have h3 := length_readExponent?_le he
        simp only [Option.some.injEq, Prod.mk.injEq] at h
        rw [← h.2]
        omega

theorem length_readNumber?_lt {s left : List Char} {n : Number} (h : readNumber? s = some (n, left)) :
    left.length < s.length := by
  unfold readNumber? at h
  split at h
  · have := length_readUnsigned?_lt h
    simp only [List.length_cons]
    omega
  · exact length_readUnsigned?_lt h

theorem length_readAtom?_lt {s left : List Char} {v : Json} (h : readAtom? s = some (v, left)) :
    left.length < s.length := by
  unfold readAtom? at h
  split at h
  · simp only [Option.some.injEq, Prod.mk.injEq] at h
    simp only [List.length_cons, ← h.2]
    omega
  · simp only [Option.some.injEq, Prod.mk.injEq] at h
    simp only [List.length_cons, ← h.2]
    omega
  · simp only [Option.some.injEq, Prod.mk.injEq] at h
    simp only [List.length_cons, ← h.2]
    omega
  · next rest =>
    obtain ⟨⟨t, l⟩, ht, he⟩ := Option.map_eq_some_iff.1 h
    have := length_readText?_lt ht
    simp only [Prod.mk.injEq] at he
    simp only [List.length_cons, ← he.2]
    omega
  · obtain ⟨⟨n, l⟩, hn, he⟩ := Option.map_eq_some_iff.1 h
    have := length_readNumber?_lt hn
    simp only [Prod.mk.injEq] at he
    rw [← he.2]
    omega

theorem length_readKey?_lt {s left : List Char} {key : Text} (h : readKey? s = some (key, left)) :
    left.length < s.length := by
  unfold readKey? at h
  have h0 := length_skipGap_le s
  split at h
  · next rest hs =>
    rw [hs] at h0
    simp only [List.length_cons] at h0
    split at h
    · simp at h
    · next key' rest' ht =>
      have h1 := length_readText?_lt ht
      have h2 := length_skipGap_le rest'
      split at h
      · next left' hl =>
        rw [hl] at h2
        simp only [List.length_cons] at h2
        simp only [Option.some.injEq, Prod.mk.injEq] at h
        rw [← h.2]
        omega
      · simp at h
  · simp at h

/-! ## Containers -/

/-- A container that is open, with what it holds so far, the last first. A member's name is read before its value. -/
inductive Frame where
  | items (done : List Json)
  | members (done : List (Text × Json)) (key : Text)

set_option linter.unusedVariables false in
mutual

/-- Reads a value inside the open containers, the innermost first, and what follows it up to the end of the outermost. -/
def readWithin? (frames : List Frame) (s : List Char) : Option (Json × List Char) :=
  match hs : skipGap s with
  | '[' :: rest =>
    match hr : skipGap rest with
    | ']' :: left => place? frames (.array []) left
    | _ => readWithin? (.items [] :: frames) rest
  | '{' :: rest =>
    match hr : skipGap rest with
    | '}' :: left => place? frames (.object []) left
    | _ =>
      match hk : readKey? rest with
      | some (key, left) => readWithin? (.members [] key :: frames) left
      | none => none
  | t =>
    match ha : readAtom? t with
    | some (v, left) => place? frames v left
    | none => none
termination_by s.length
decreasing_by
  all_goals have h0 := length_skipGap_le s
  · have h1 := length_skipGap_le rest
    rw [hs] at h0
    rw [hr] at h1
    simp only [List.length_cons] at h0 h1
    omega
  · rw [hs] at h0
    exact h0
  · have h1 := length_skipGap_le rest
    rw [hs] at h0
    rw [hr] at h1
    simp only [List.length_cons] at h0 h1
    omega
  · have h1 := length_readKey?_lt hk
    rw [hs] at h0
    simp only [List.length_cons] at h0
    omega
  · have h1 := length_readAtom?_lt ha
    rw [hs] at h0
    omega

/-- Puts a value that has been read into the innermost open container, and reads on. -/
def place? (frames : List Frame) (v : Json) (s : List Char) : Option (Json × List Char) :=
  match frames with
  | [] => some (v, s)
  | .items done :: outer =>
    match hs : skipGap s with
    | ',' :: rest => readWithin? (.items (v :: done) :: outer) rest
    | ']' :: rest => place? outer (.array (v :: done).reverse) rest
    | _ => none
  | .members done key :: outer =>
    match hs : skipGap s with
    | ',' :: rest =>
      match hk : readKey? rest with
      | some (next, left) => readWithin? (.members ((key, v) :: done) next :: outer) left
      | none => none
    | '}' :: rest => place? outer (.object ((key, v) :: done).reverse) rest
    | _ => none
termination_by s.length
decreasing_by
  all_goals
    have h0 := length_skipGap_le s
    rw [hs] at h0
    simp only [List.length_cons] at h0
  · omega
  · omega
  · have := length_readKey?_lt hk
    omega
  · omega

end

/-- Reads the value at the head of a text, and what follows it. -/
def read? (s : List Char) : Option (Json × List Char) := readWithin? [] s

/-- Reads a text that is one value, with nothing but gaps around it. -/
def ofText? (s : String) : Option Json :=
  match read? s.toList with
  | some (v, left) => if (skipGap left).isEmpty then some v else none
  | none => none

end Json

end ContactSheet
