/-!
# What a machine can and cannot compute

A machine holds numbers in words of 64 bits, or of 32, and gives out memory in blocks. It breaks down when it divides by zero,
subtracts below zero, reaches beyond the bytes it has or asks for a block that is too large; what becomes of a sum or product that
its word cannot hold depends on the machine (`Overflow`). The operations here carry out a part of a computation after such a check,
and have no result when it breaks down.
-/

namespace ContactSheet

/-! ## Words -/

/-- What becomes of a sum or a product that a word cannot hold: the machine breaks down, or its word holds the rest. -/
inductive Overflow where
  | breaks
  | wraps
  deriving DecidableEq, Repr

/-- A sum or a product as a word holds it that holds the numbers below a limit. -/
def Overflow.keep? (o : Overflow) (limit n : Nat) : Option Nat :=
  if n < limit then some n
  else
    match o with
    | .breaks => none
    | .wraps => some (n % limit)

/-- A sum or a product as 64 bits hold it. -/
def Overflow.word? (o : Overflow) (n : Nat) : Option Nat := o.keep? 0x10000000000000000 n

/-- A sum or a product as 32 bits hold it. -/
def Overflow.halfWord? (o : Overflow) (n : Nat) : Option Nat := o.keep? 0x100000000 n

/-- No machine loses anything of a number that its word holds. -/
theorem Overflow.word?_eq (o : Overflow) {n : Nat} (h : n < 0x10000000000000000) : o.word? n = some n := if_pos h

theorem Overflow.halfWord?_eq (o : Overflow) {n : Nat} (h : n < 0x100000000) : o.halfWord? n = some n := if_pos h

/-- A word that holds a number holds its rest modulo `2 ^ 64`. -/
theorem Overflow.word?_eq_some {o : Overflow} {n m : Nat} (h : o.word? n = some m) : m = n % 0x10000000000000000 := by
  unfold Overflow.word? Overflow.keep? at h
  split at h
  · rename_i hlt
    rw [Nat.mod_eq_of_lt hlt]
    exact (Option.some.inj h).symm
  · cases o with
    | breaks => cases h
    | wraps => exact (Option.some.inj h).symm

/-- A machine that has a word for a number of more than 64 bits is one that wraps. -/
theorem Overflow.eq_wraps_of_word? {o : Overflow} {n m : Nat} (hn : 0x10000000000000000 ≤ n) (h : o.word? n = some m) :
    o = .wraps := by
  unfold Overflow.word? Overflow.keep? at h
  rw [if_neg (Nat.not_lt.2 hn)] at h
  cases o with
  | breaks => cases h
  | wraps => rfl

/-! ## Quotients and differences -/

/-- A quotient, none of a division by zero. -/
def div? (n d : Nat) : Option Nat := if d = 0 then none else some (n / d)

/-- A difference, none below zero. -/
def sub? (n d : Nat) : Option Nat := if d ≤ n then some (n - d) else none

theorem div?_eq {n d : Nat} (h : d ≠ 0) : div? n d = some (n / d) := if_neg h

theorem sub?_eq {n d : Nat} (h : d ≤ n) : sub? n d = some (n - d) := if_pos h

/-! ## Memory -/

/-- A block of memory has fewer than `2 ^ 63` bytes. -/
def hasRoom (bytes : Nat) : Bool := bytes < 0x8000000000000000

/-- The bytes from one place up to another, none if they are not all there. -/
def slice? (bytes : Array UInt8) (start stop : Nat) : Option (Array UInt8) :=
  if start ≤ stop ∧ stop ≤ bytes.size then some (bytes.extract start stop) else none

/-- Copies `n` bytes of `source` from `s` on to the bytes of `target` from `t` on. -/
def copyBytes (source : Array UInt8) (s t : Nat) : Nat → Array UInt8 → Array UInt8
  | 0, target => target
  | n + 1, target => copyBytes source (s + 1) (t + 1) n (target.setIfInBounds t (source.getD s 0))

/-- The bytes with those from one place up to another replaced, none if they are not all there or the new ones are not as many. -/
def replace? (bytes : Array UInt8) (start stop : Nat) (part : Array UInt8) : Option (Array UInt8) :=
  if start ≤ stop ∧ stop ≤ bytes.size ∧ part.size = stop - start then some (copyBytes part 0 start (stop - start) bytes) else none

theorem hasRoom_iff {bytes : Nat} : hasRoom bytes = true ↔ bytes < 0x8000000000000000 := decide_eq_true_iff

theorem slice?_eq {bytes : Array UInt8} {start stop : Nat} (h : start ≤ stop) (h' : stop ≤ bytes.size) :
    slice? bytes start stop = some (bytes.extract start stop) := if_pos ⟨h, h'⟩

theorem replace?_eq {bytes part : Array UInt8} {start stop : Nat} (h : start ≤ stop) (h' : stop ≤ bytes.size)
    (hp : part.size = stop - start) :
    replace? bytes start stop part = some (copyBytes part 0 start (stop - start) bytes) := if_pos ⟨h, h', hp⟩

/-! ## Sequences and loops -/

/-- What follows on a result takes it up. -/
theorem bind_eq_of_eq_some {α β : Type} {a? : Option α} {a : α} (h : a? = some a) (f : α → Option β) : (a? >>= f) = f a := by
  rw [h]
  rfl

/-- Carries out a step for each number from `start` on, `count` of them, the first one first. -/
def loop? {α : Type} (step : Nat → α → Option α) (start : Nat) : Nat → α → Option α
  | 0, a => some a
  | count + 1, a => (step start a).bind (loop? step (start + 1) count)

/-- A loop does not break down when no step does, and what each step keeps is kept by the loop. -/
theorem loop?_run {α : Type} {step : Nat → α → Option α} {P : Nat → α → Prop} {start count : Nat} {a : α}
    (hstep : ∀ k b, start ≤ k → k < start + count → P k b → ∃ c, step k b = some c ∧ P (k + 1) c) (h : P start a) :
    ∃ c, loop? step start count a = some c ∧ P (start + count) c := by
  induction count generalizing start a with
  | zero => exact ⟨a, rfl, h⟩
  | succ count ih =>
    obtain ⟨b, hb, hPb⟩ := hstep start a (Nat.le_refl start) (by omega) h
    obtain ⟨c, hc, hPc⟩ := ih (fun k b' hk hk' => hstep k b' (by omega) (by omega)) hPb
    refine ⟨c, ?_, ?_⟩
    · rw [loop?, hb, Option.bind_some, hc]
    · rwa [show start + (count + 1) = start + 1 + count by omega]

/-- A loop breaks down when one of its steps does, whatever the steps before it come to. -/
theorem loop?_eq_none {α : Type} {step : Nat → α → Option α} {start count k : Nat} (hk : start ≤ k) (hk' : k < start + count)
    (hstep : ∀ b, step k b = none) (a : α) : loop? step start count a = none := by
  induction count generalizing start a with
  | zero => omega
  | succ count ih =>
    rw [loop?]
    cases hb : step start a with
    | none => rfl
    | some b =>
      have hne : k ≠ start := by
        rintro rfl
        rw [hstep] at hb
        cases hb
      exact ih (by omega) (by omega) b

end ContactSheet
