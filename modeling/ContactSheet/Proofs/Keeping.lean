import ContactSheet.Records
import ContactSheet.Proofs.Json.Writing
import ContactSheet.Proofs.Mapping

/-!
# What is kept as a text comes back

A value is kept when the JSON value that it is written as can stand in a text and is read as the value again (`Json.Keeps`): so are
truth values, strings, integers that fit their width, lists and optional values of what is kept, and the records made of them.
`kept_as_text` says so of every kind of value that is kept as a text.
-/

namespace ContactSheet

namespace Json

variable {α : Type}

/-- The JSON value can stand in a text, and is read as the value. -/
structure Keeps (read : Json → Option α) (v : Json) (a : α) : Prop where
  writable : v.Writable
  reads : read v = some a

/-- Reads a text as a value of some kind. -/
def textAs? (read : Json → Option α) (text : String) : Option α := (ofText? text).bind read

/-- What is kept comes back from the text. -/
theorem Keeps.textAs?_toText {read : Json → Option α} {v : Json} {a : α} (h : Keeps read v a) :
    textAs? read v.toText = some a := by
  rw [textAs?, ofText?_toText h.writable, Option.bind_some, h.reads]

/-! ## Numbers -/

/-- Only zero is written with a zero in front. -/
theorem eq_zero_of_toDigits {n : Nat} {ds : List Char} (h : Nat.toDigits 10 n = '0' :: ds) : n = 0 := by
  -- Without its last digit a number has the same digit in front.
  induction n using Nat.strong_induction_on generalizing ds with
  | _ n ih =>
    rw [Nat.toDigits_eq_if (by decide)] at h
    split at h
    · exact Nat.digitChar_eq_zero.1 (List.cons.inj h).1
    · next hge =>
      obtain ⟨d, rest, hd⟩ := List.exists_cons_of_ne_nil (Nat.toDigits_ne_nil (n := n / 10) (b := 10))
      rw [hd, List.cons_append] at h
      obtain ⟨rfl, -⟩ := List.cons.inj h
      have := ih (n / 10) (by omega) hd
      omega

/-- An integer is written by digits alone. -/
theorem Number.writable_ofInt (v : Int) : (Number.ofInt v).Writable where
  whole := ⟨Nat.toDigits_ne_nil, fun d hd => Nat.isDigit_of_mem_toDigits (by decide) (by decide) hd⟩
  zero_alone := by
    intro d ds h
    have hzero : v.natAbs = 0 := eq_zero_of_toDigits h
    simp only [Number.ofInt, hzero, Nat.toDigits_zero] at h
    cases h
  fraction := nofun
  exponent := nofun

/-- An integer of 64 bits, signed or unsigned, is worth itself. -/
theorem Number.integer?_ofInt {v : Int} (hlow : -0x8000000000000000 ≤ v) (hhigh : v < 0x10000000000000000) :
    (Number.ofInt v).integer? = some v := by
  have hvalue : digitsValue (Nat.toDigits 10 v.natAbs) = v.natAbs := Nat.ofDigitChars_ten_toDigits
  simp only [Number.integer?, Number.ofInt, hvalue, Option.isNone_none, and_self, if_true, decide_eq_true_eq]
  split
  · rw [if_pos (by omega), Option.some.injEq]
    omega
  · rw [if_pos (by omega), Option.some.injEq]
    omega

/-- A signed integer of 64 bits is kept. -/
theorem keeps_ofInt {v : Int} (hlow : -0x8000000000000000 ≤ v) (hhigh : v < 0x8000000000000000) : Keeps int? (ofInt v) v where
  writable := Number.writable_ofInt v
  reads := by
    rw [ofInt, int?, Number.integer?_ofInt hlow (by omega)]
    exact Option.filter_some_pos (decide_eq_true hhigh)

/-- A natural number of 64 bits is kept below the limit of its width. -/
theorem keeps_ofNat {limit n : Nat} (hlimit : limit ≤ 0x10000000000000000) (hn : n < limit) : Keeps (nat? limit) (ofNat n) n where
  writable := Number.writable_ofInt n
  reads := by
    rw [ofNat, nat?, Number.integer?_ofInt (by omega) (by omega), Option.bind_some, if_pos (by omega), Int.toNat_natCast]

/-! ## Single values -/

/-- A truth value is kept. -/
theorem keeps_bool (b : Bool) : Keeps bool? (.bool b) b where
  writable := trivial
  reads := rfl

/-- A string is kept. -/
theorem keeps_ofString (s : String) : Keeps string? (ofString s) s where
  writable := writable_ofString s
  reads := Text.string?_ofString s

/-- A list is kept when its items are. -/
theorem keeps_array {read : Json → Option α} {write : α → Json} {as : List α} (h : ∀ a ∈ as, Keeps read (write a) a) :
    Keeps (list? read) (.array (as.map write)) as where
  writable := by
    show ItemsWritable (as.map write)
    induction as with
    | nil => trivial
    | cons a as ih => exact ⟨(h a List.mem_cons_self).writable, ih fun b hb => h b (List.mem_cons_of_mem a hb)⟩
  reads := by
    rw [list?, mapM_eq_some_iff, List.map_map]
    exact List.map_congr_left fun a ha => (h a ha).reads

/-- A value that may be missing is kept as a field, unless it is written like none. -/
theorem keeps_ofOption {read : Json → Option α} {write : α → Json} {o : Option α} (h : ∀ a ∈ o, Keeps read (write a) a)
    (hnull : ∀ a, write a ≠ .null) : Keeps (fun v => optional? read (some v)) (ofOption write o) o := by
  cases o with
  | none => exact ⟨trivial, rfl⟩
  | some a =>
    refine ⟨(h a rfl).writable, ?_⟩
    show optional? read (some (write a)) = some (some a)
    rw [optional?_some (hnull a), (h a rfl).reads, Option.map_some]

/-! ## Records -/

/-- A record is sound when its values are. -/
theorem isSound_ofFields {fields : List (String × Json)} (h : ∀ f ∈ fields, f.2.isSound = true) :
    (ofFields fields).isSound = true := by
  show membersSound _ = true
  induction fields with
  | nil => rfl
  | cons f fields ih =>
    simp only [List.map_cons, membersSound, Text.string?_ofString, Option.isSome_some, h f List.mem_cons_self, Bool.and_self,
      Bool.true_and]
    exact ih fun g hg => h g (List.mem_cons_of_mem f hg)

/-- A record nests one level deeper than its values. -/
theorem depth_ofFields_le {fields : List (String × Json)} {n : Nat} (h : ∀ f ∈ fields, f.2.depth ≤ n) :
    (ofFields fields).depth ≤ n + 1 := by
  refine Nat.succ_le_succ ?_
  show membersDepth (fields.map _) ≤ n
  induction fields with
  | nil => exact Nat.zero_le n
  | cons f fields ih => exact Nat.max_le.2 ⟨h f List.mem_cons_self, ih fun g hg => h g (List.mem_cons_of_mem f hg)⟩

end Json

/-! ## Variants -/

/-- A variant that carries something is written as a record of that alone. -/
theorem Json.variant?_ofFields (name : String) (v : Json) : (Json.ofFields [(name, v)]).variant? = some (name, some v) := by
  rw [Json.ofFields, List.map_singleton, Json.variant?, Json.Text.string?_ofString, Option.map_some]

/-- What makes a fixed number of stages fit 32 bits. -/
def SkipPolicy.Fits : SkipPolicy → Prop
  | .fixed n => n < 0x100000000
  | _ => True

/-- A skip policy is kept. -/
theorem SkipPolicy.keeps {p : SkipPolicy} (h : p.Fits) : Json.Keeps SkipPolicy.ofJson? p.toJson p := by
  cases p with
  | fixed n =>
    have hn : Json.Keeps (Json.nat? 0x100000000) (.ofNat n) n := Json.keeps_ofNat (by decide) h
    refine ⟨Json.writable_ofFields ?_, ?_⟩
    · simpa using hn.writable
    · rw [SkipPolicy.toJson, SkipPolicy.ofJson?, Json.variant?_ofFields]
      simp only [hn.reads, Option.map_some]
  | conservative => exact ⟨Json.writable_ofString _, rfl⟩
  | aggressive => exact ⟨Json.writable_ofString _, rfl⟩

/-- A fallback is kept. -/
theorem Fallback.keeps (f : Fallback) : Json.Keeps Fallback.ofJson? f.toJson f := by
  cases f with
  | absent => exact ⟨Json.writable_ofString _, rfl⟩
  | projection => exact ⟨Json.writable_ofString _, rfl⟩

/-! ## Compiling -/

/-- The fields of compile options are kept. -/
theorem CompileOptions.keeps (o : CompileOptions) : Json.Keeps CompileOptions.ofJson? o.toJson o := by
  have hmode := Json.keeps_ofOption (o := o.mode) (fun s _ => Json.keeps_ofString s) nofun
  have hbackend := Json.keeps_ofOption (o := o.backend) (fun s _ => Json.keeps_ofString s) nofun
  have hfullgraph := Json.keeps_ofOption (o := o.fullgraph) (fun b _ => Json.keeps_bool b) nofun
  have hdynamic := Json.keeps_ofOption (o := o.dynamic) (fun b _ => Json.keeps_bool b) nofun
  have hnames : ["mode", "backend", "fullgraph", "dynamic"].Nodup := by decide
  constructor
  · refine Json.writable_ofFields ?_
    simp [hmode.writable, hbackend.writable, hfullgraph.writable, hdynamic.writable]
  · refine Option.bind_eq_some_iff.2 ⟨_, Json.fields?_ofFields hnames, ?_⟩
    refine Option.bind_eq_some_iff.2 ⟨_, hmode.reads, ?_⟩
    refine Option.bind_eq_some_iff.2 ⟨_, hbackend.reads, ?_⟩
    refine Option.bind_eq_some_iff.2 ⟨_, hfullgraph.reads, ?_⟩
    refine Option.bind_eq_some_iff.2 ⟨_, hdynamic.reads, ?_⟩
    rfl

/-- A compile setting is kept. -/
theorem CompileSetting.keeps (c : CompileSetting) : Json.Keeps CompileSetting.ofJson? c.toJson c := by
  cases c with
  | disabled => exact ⟨Json.writable_ofString _, rfl⟩
  | enabled => exact ⟨Json.writable_ofString _, rfl⟩
  | custom o =>
    refine ⟨Json.writable_ofFields ?_, ?_⟩
    · simpa using o.keeps.writable
    · rw [CompileSetting.toJson, CompileSetting.ofJson?, Json.variant?_ofFields]
      simp only [o.keeps.reads, Option.map_some]

/-- Compile options are sound and nest one level deep. -/
theorem CompileOptions.toJson_shallow (o : CompileOptions) : o.toJson.isSound = true ∧ o.toJson.depth ≤ 1 := by
  have hstring : ∀ s : Option String,
      (Json.ofOption Json.ofString s).isSound = true ∧ (Json.ofOption Json.ofString s).depth = 0 := by
    rintro (_ | s)
    · exact ⟨rfl, rfl⟩
    · refine ⟨?_, rfl⟩
      rw [Json.ofOption, Json.ofString, Json.isSound, Json.Text.string?_ofString, Option.isSome_some]
  have hbool : ∀ b : Option Bool, (Json.ofOption Json.bool b).isSound = true ∧ (Json.ofOption Json.bool b).depth = 0 := by
    rintro (_ | b) <;> exact ⟨rfl, rfl⟩
  constructor
  · refine Json.isSound_ofFields ?_
    simp [hstring, hbool]
  · refine Json.depth_ofFields_le ?_
    simp [hstring, hbool]

/-- A compile choice is kept where one level of nesting is allowed. -/
theorem CompileChoice.keeps {room : Nat} (hroom : 1 ≤ room) (c : CompileChoice) :
    Json.Keeps (CompileChoice.ofJson? (some room)) c.toJson c := by
  cases c with
  | flag on => exact ⟨trivial, rfl⟩
  | options o =>
    obtain ⟨hsound, hdepth⟩ := o.toJson_shallow
    have hallowed : (o.toJson.isSound && (some room).all (o.toJson.depth ≤ ·)) = true := by
      rw [hsound, Option.all_some, Bool.true_and, decide_eq_true_eq]
      omega
    refine ⟨o.keeps.writable, ?_⟩
    rw [CompileChoice.toJson, CompileChoice.ofJson?, if_pos hallowed, o.keeps.reads, Option.map_some]
    intro on hflag
    cases hflag

/-! ## Option mappings -/

/-- What is written for a value of a kind. -/
def OptionKind.write : (kind : OptionKind) → kind.Value → Json
  | .flag => Json.bool
  | .integer => Json.ofInt
  | .seconds => Json.ofFloat
  | .text => Json.ofString
  | .compile => CompileChoice.toJson

/-- The value is no double, and fits 64 bits if it is an integer. -/
def OptionKind.Fits : (kind : OptionKind) → kind.Value → Prop
  | .flag, _ => True
  | .integer, (v : Int) => -0x8000000000000000 ≤ v ∧ v < 0x8000000000000000
  | .seconds, _ => False
  | .text, _ => True
  | .compile, _ => True

/-- A value of a kind is kept as an option. -/
theorem OptionKind.keeps {room : Nat} (hroom : 1 ≤ room) (kind : OptionKind) {value : Option kind.Value}
    (h : ∀ v ∈ value, kind.Fits v) :
    Json.Keeps (fun v => Json.optional? (kind.read? (some room)) (some v)) (Json.ofOption kind.write value) value := by
  cases kind with
  | flag => exact Json.keeps_ofOption (fun b _ => Json.keeps_bool b) nofun
  | integer => exact Json.keeps_ofOption (fun v hv => Json.keeps_ofInt (h v hv).1 (h v hv).2) nofun
  | seconds =>
    cases value with
    | none => exact ⟨trivial, rfl⟩
    | some x => exact (h x rfl).elim
  | text => exact Json.keeps_ofOption (fun s _ => Json.keeps_ofString s) nofun
  | compile =>
    refine Json.keeps_ofOption (fun c _ => CompileChoice.keeps hroom c) ?_
    rintro (on | o) hnull <;> cases hnull

/-- The integers among the options. -/
def RawOptions.integers (raw : RawOptions) : List (Option Int) :=
  [raw.maxSize, raw.maxWidth, raw.maxHeight, raw.maxBatch, raw.maxBatchCols, raw.skipUpscaleLayers]

/-- Every integer among the options fits 64 bits. -/
def RawOptions.Fits (raw : RawOptions) : Prop :=
  ∀ given ∈ raw.integers, ∀ v ∈ given, -0x8000000000000000 ≤ v ∧ v < 0x8000000000000000

/-- Options are written in their order, each under its name. -/
theorem RawOptions.toJson_eq (raw : RawOptions) :
    raw.toJson = .ofFields (OptionName.all.map fun o => (o.text, .ofOption o.kind.write (raw.value o))) := rfl

/-- Options without a time whose integers fit are values that fit. -/
theorem RawOptions.fits_value {raw : RawOptions} (hsecs : raw.throttleSecs = none) (h : raw.Fits) (o : OptionName) :
    ∀ v ∈ raw.value o, o.kind.Fits v := by
  intro v hv
  cases o with
  | enabled | maxedBatchStepMode | oomRetry => trivial
  | previewDevice | oomFallback => trivial
  | compilePreviewer => trivial
  | throttleSecs =>
    have hsome : raw.throttleSecs = some v := hv
    rw [hsecs] at hsome
    cases hsome
  | maxSize => exact h raw.maxSize (by simp [RawOptions.integers]) v hv
  | maxWidth => exact h raw.maxWidth (by simp [RawOptions.integers]) v hv
  | maxHeight => exact h raw.maxHeight (by simp [RawOptions.integers]) v hv
  | maxBatch => exact h raw.maxBatch (by simp [RawOptions.integers]) v hv
  | maxBatchCols => exact h raw.maxBatchCols (by simp [RawOptions.integers]) v hv
  | skipUpscaleLayers => exact h raw.skipUpscaleLayers (by simp [RawOptions.integers]) v hv

/-- Options without a time whose integers fit are kept. -/
theorem RawOptions.keeps {raw : RawOptions} (hsecs : raw.throttleSecs = none) (h : raw.Fits) :
    Json.Keeps RawOptions.ofJson? raw.toJson raw := by
  have hkept : ∀ o : OptionName, Json.Keeps (fun v => Json.optional? (o.kind.read? (some (nestingLimit - 1))) (some v))
      (.ofOption o.kind.write (raw.value o)) (raw.value o) :=
    fun o => OptionKind.keeps (by decide) o.kind (RawOptions.fits_value hsecs h o)
  rw [RawOptions.toJson_eq]
  constructor
  · refine Json.writable_ofFields ?_
    intro f hf
    obtain ⟨o, -, rfl⟩ := List.mem_map.1 hf
    exact (hkept o).writable
  · refine Option.bind_eq_some_iff.2
      ⟨_, Json.fields?_ofFields_map ?_ ?_ _, RawOptions.ofFields?_map_iff.2 fun o => (hkept o).reads⟩
    · decide
    · intro o _ o' _
      exact ⟨OptionName.eq_of_mem_spellings o'.text_mem_spellings, fun h => h ▸ o'.text_mem_spellings⟩

/-! ## Records -/

/-- The stages fit 32 bits. -/
def Stages.Fits (s : Stages) : Prop := s.count < 0x100000000

/-- Stages are kept. -/
theorem Stages.keeps {s : Stages} (h : s.Fits) : Json.Keeps Stages.ofJson? s.toJson s := by
  have hcount : Json.Keeps (Json.nat? 0x100000000) (.ofNat s.count) s.count := Json.keeps_ofNat (by decide) h
  have hnames : ["upscale_layers"].Nodup := by decide
  constructor
  · refine Json.writable_ofFields ?_
    simpa using hcount.writable
  · refine Option.bind_eq_some_iff.2 ⟨_, Json.fields?_ofFields hnames, ?_⟩
    refine Option.bind_eq_some_iff.2 ⟨_, hcount.reads, ?_⟩
    rfl

/-- The places and the columns of a grid fit 64 bits. -/
structure Grid.Fits (g : Grid) : Prop where
  picks : ∀ i ∈ g.picks, i < 0x10000000000000000
  columns : g.columns < 0x10000000000000000

/-- A grid is kept. -/
theorem Grid.keeps {g : Grid} (h : g.Fits) : Json.Keeps Grid.ofJson? g.toJson g := by
  have hpicks : Json.Keeps (Json.list? (Json.nat? 0x10000000000000000)) (.array (g.picks.map Json.ofNat)) g.picks :=
    Json.keeps_array fun i hi => Json.keeps_ofNat (Nat.le_refl _) (h.picks i hi)
  have hcolumns := Json.keeps_ofNat (Nat.le_refl _) h.columns
  have hnames : ["selected_indices", "columns"].Nodup := by decide
  constructor
  · refine Json.writable_ofFields ?_
    simpa using ⟨hpicks.writable, hcolumns.writable⟩
  · refine Option.bind_eq_some_iff.2 ⟨_, Json.fields?_ofFields hnames, ?_⟩
    refine Option.bind_eq_some_iff.2 ⟨_, hpicks.reads, ?_⟩
    refine Option.bind_eq_some_iff.2 ⟨_, hcolumns.reads, ?_⟩
    rfl

/-- The counters fit 64 bits, the time of the last cycle 32. -/
structure Stats.Fits (s : Stats) : Prop where
  invocations : s.invocations < 0x10000000000000000
  emitted : s.emitted < 0x10000000000000000
  throttled : s.throttled < 0x10000000000000000
  fallbackDecodes : s.fallbackDecodes < 0x10000000000000000
  oomEvents : s.oomEvents < 0x10000000000000000
  failures : s.failures < 0x10000000000000000
  lastDecodeMs : s.lastDecodeMs < 0x100000000

/-- Counters are kept. -/
theorem Stats.keeps {s : Stats} (h : s.Fits) : Json.Keeps Stats.ofJson? s.toJson s := by
  have hcounter : ∀ {n : Nat}, n < 0x10000000000000000 → Json.Keeps (Json.nat? 0x10000000000000000) (.ofNat n) n :=
    fun hn => Json.keeps_ofNat (Nat.le_refl _) hn
  have hlast : Json.Keeps (Json.nat? 0x100000000) (.ofNat s.lastDecodeMs) s.lastDecodeMs :=
    Json.keeps_ofNat (by decide) h.lastDecodeMs
  have hnames : ["invocations", "emitted", "throttled", "fallback_decodes", "oom_events", "failures",
      "last_decode_time_ms"].Nodup := by decide
  constructor
  · refine Json.writable_ofFields ?_
    simp [(hcounter h.invocations).writable, (hcounter h.emitted).writable, (hcounter h.throttled).writable,
      (hcounter h.fallbackDecodes).writable, (hcounter h.oomEvents).writable, (hcounter h.failures).writable, hlast.writable]
  · refine Option.bind_eq_some_iff.2 ⟨_, Json.fields?_ofFields hnames, ?_⟩
    refine Option.bind_eq_some_iff.2 ⟨_, (hcounter h.invocations).reads, ?_⟩
    refine Option.bind_eq_some_iff.2 ⟨_, (hcounter h.emitted).reads, ?_⟩
    refine Option.bind_eq_some_iff.2 ⟨_, (hcounter h.throttled).reads, ?_⟩
    refine Option.bind_eq_some_iff.2 ⟨_, (hcounter h.fallbackDecodes).reads, ?_⟩
    refine Option.bind_eq_some_iff.2 ⟨_, (hcounter h.oomEvents).reads, ?_⟩
    refine Option.bind_eq_some_iff.2 ⟨_, (hcounter h.failures).reads, ?_⟩
    refine Option.bind_eq_some_iff.2 ⟨_, hlast.reads, ?_⟩
    rfl

/-! ## Every kind of value -/

/-- Whatever is kept as a text comes back from it: options without a time, compile choices, options and settings, skip policies,
fallbacks, stages, grids and counters, when their numbers fit the width they are read with. -/
theorem kept_as_text :
    (∀ raw : RawOptions, raw.throttleSecs = none → raw.Fits → RawOptions.ofText? raw.toJson.toText = some raw) ∧
    (∀ c : CompileChoice, Json.textAs? (CompileChoice.ofJson? (some nestingLimit)) c.toJson.toText = some c) ∧
    (∀ o : CompileOptions, Json.textAs? CompileOptions.ofJson? o.toJson.toText = some o) ∧
    (∀ c : CompileSetting, Json.textAs? CompileSetting.ofJson? c.toJson.toText = some c) ∧
    (∀ p : SkipPolicy, p.Fits → Json.textAs? SkipPolicy.ofJson? p.toJson.toText = some p) ∧
    (∀ f : Fallback, Json.textAs? Fallback.ofJson? f.toJson.toText = some f) ∧
    (∀ s : Stages, s.Fits → Json.textAs? Stages.ofJson? s.toJson.toText = some s) ∧
    (∀ g : Grid, g.Fits → Json.textAs? Grid.ofJson? g.toJson.toText = some g) ∧
    (∀ s : Stats, s.Fits → Json.textAs? Stats.ofJson? s.toJson.toText = some s) := by
  refine ⟨fun raw hsecs h => ?_, fun c => ?_, fun o => ?_, fun c => ?_, fun p h => ?_, fun f => ?_, fun s h => ?_, fun g h => ?_,
    fun s h => ?_⟩
  · exact (RawOptions.keeps hsecs h).textAs?_toText
  · exact (CompileChoice.keeps (by decide) c).textAs?_toText
  · exact o.keeps.textAs?_toText
  · exact c.keeps.textAs?_toText
  · exact (SkipPolicy.keeps h).textAs?_toText
  · exact f.keeps.textAs?_toText
  · exact (Stages.keeps h).textAs?_toText
  · exact (Grid.keeps h).textAs?_toText
  · exact (Stats.keeps h).textAs?_toText

/-! The least and the largest integers come back, and a text of characters that are escaped. -/

namespace Sample

/-- Options with the least and the largest integer, a quote, a control character and a nested record. -/
def extreme : RawOptions where
  maxSize := some (-0x8000000000000000)
  maxWidth := some 0x7fffffffffffffff
  previewDevice := some "\"\\\x01\n/\u20ac"
  compilePreviewer := some (.options { mode := some "", dynamic := some false })

theorem extreme_fits : extreme.Fits := by
  simp [RawOptions.Fits, RawOptions.integers, extreme]

/-- Counters at their limits. -/
def crammed : Stats := { (default : Stats) with invocations := 0xffffffffffffffff, lastDecodeMs := 0xffffffff }

theorem extreme_kept :
    extreme.throttleSecs = none ∧ extreme.Fits ∧ RawOptions.ofText? extreme.toJson.toText = some extreme ∧
      Json.textAs? SkipPolicy.ofJson? (SkipPolicy.fixed 0xffffffff).toJson.toText = some (.fixed 0xffffffff) ∧
      Json.textAs? Stages.ofJson? (Stages.mk 0xffffffff).toJson.toText = some ⟨0xffffffff⟩ ∧
      Json.textAs? Grid.ofJson? (Grid.mk [0xffffffffffffffff, 0] 2).toJson.toText = some ⟨[0xffffffffffffffff, 0], 2⟩ ∧
      Json.textAs? Stats.ofJson? crammed.toJson.toText = some crammed := by
  obtain ⟨hraw, -, -, -, hpolicy, -, hstages, hgrid, hstats⟩ := kept_as_text
  refine ⟨rfl, extreme_fits, hraw extreme rfl extreme_fits, hpolicy _ ?_, hstages _ ?_, hgrid _ ⟨?_, ?_⟩, hstats _ ?_⟩
  · show 0xffffffff < 0x100000000
    decide
  · show 0xffffffff < 0x100000000
    decide
  · decide
  · decide
  · constructor <;> decide

end Sample

end ContactSheet
