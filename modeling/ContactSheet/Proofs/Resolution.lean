import ContactSheet.Settings
import Mathlib.Data.List.DropRight
import Mathlib.Data.List.Forall2

/-!
# Which options make settings

An option mapping makes settings exactly when every option that is checked lies in its domain (`RawOptions.allows`), and else the
first that does not is blamed. The checks stand in a row, so both are said of a row of options (`Judged`) and put together along
it (`Judged.bind`): each check takes the values of its domain and blames its option for every other (`Checks`). What the settings
owe to the options is `Settings.Follows`; `Settings.resolve_judges` says it all of a mapping.
-/

namespace ContactSheet

/-! ## What trimming leaves -/

/-- The text neither starts nor ends with a blank character. -/
def Trimmed (s : String) : Prop := (∀ c ∈ s.toList.head?, ¬isBlank c) ∧ ∀ c ∈ s.toList.getLast?, ¬isBlank c

/-- The text stands in the given one with nothing but blank characters around it. -/
def CutFrom (given s : String) : Prop :=
  ∃ before after : List Char, given.toList = before ++ s.toList ++ after ∧
    (∀ c ∈ before, isBlank c) ∧ ∀ c ∈ after, isBlank c

/-- The characters of a trimmed text. -/
theorem toList_trim (s : String) : (trim s).toList = (s.toList.dropWhile isBlank).rdropWhile isBlank := by
  unfold trim
  exact String.toList_ofList

/-- Trimming cuts blank characters off the ends, and nothing else. -/
theorem trim_cuts (s : String) : CutFrom s (trim s) := by
  refine ⟨s.toList.takeWhile isBlank, (s.toList.dropWhile isBlank).rtakeWhile isBlank, ?_, ?_, ?_⟩
  · rw [toList_trim, List.append_assoc, List.rdropWhile_append_rtakeWhile, List.takeWhile_append_dropWhile]
  · intro c hc
    exact List.mem_takeWhile_imp hc
  · intro c hc
    exact List.mem_rtakeWhile_imp hc

/-- Nothing blank is left at the ends of a trimmed text. -/
theorem trim_trimmed (s : String) : Trimmed (trim s) := by
  unfold Trimmed
  rw [toList_trim]
  constructor
  · intro c hc
    -- What is cut off at the end does not reach the front, so the text still starts where the first cut ended.
    obtain ⟨tail, ht⟩ := List.rdropWhile_prefix isBlank (s.toList.dropWhile isBlank)
    have hhead : (s.toList.dropWhile isBlank).head? = some c := by
      rw [← ht, List.head?_append, Option.mem_def.1 hc, Option.some_or]
    have hnot := List.head?_dropWhile_not isBlank s.toList
    rw [hhead] at hnot
    simpa using hnot
  · intro c hc
    obtain ⟨hne, rfl⟩ := List.mem_getLast?_eq_getLast hc
    exact List.rdropWhile_last_not isBlank _ hne

/-- A text that is trimmed to nothing is blank all through. -/
theorem blank_of_trim {s : String} (h : trim s = "") : ∀ c ∈ s.toList, isBlank c := by
  obtain ⟨before, after, hs, hb, ha⟩ := trim_cuts s
  rw [h] at hs
  intro c hc
  rw [hs] at hc
  simp only [String.toList_empty, List.append_nil, List.mem_append] at hc
  rcases hc with hc | hc
  · exact hb c hc
  · exact ha c hc

/-! ## What folding the case leaves -/

/-- A capital letter of ASCII and the small one. -/
def CapitalOf (c d : Char) : Prop := 'A'.toNat ≤ c.toNat ∧ c.toNat ≤ 'Z'.toNat ∧ d.toNat = c.toNat + 32

/-- A capital letter of ASCII is folded to the letter 32 characters further on, and every other character is kept. -/
theorem toNat_toLower (c : Char) :
    c.toLower.toNat = if 'A'.toNat ≤ c.toNat ∧ c.toNat ≤ 'Z'.toNat then c.toNat + 32 else c.toNat := by
  have hcapital : (c.val ≥ 'A'.val ∧ c.val ≤ 'Z'.val) ↔ 'A'.toNat ≤ c.toNat ∧ c.toNat ≤ 'Z'.toNat := by
    rw [ge_iff_le, UInt32.le_iff_toNat_le, UInt32.le_iff_toNat_le]
    rfl
  unfold Char.toLower
  by_cases h : c.val ≥ 'A'.val ∧ c.val ≤ 'Z'.val
  · obtain ⟨-, hle⟩ := hcapital.1 h
    have hlt : c.val.toNat + 32 < 4294967296 := Nat.lt_of_le_of_lt (Nat.add_le_add_right hle 32) (by decide)
    rw [dif_pos h, if_pos (hcapital.1 h)]
    exact (UInt32.toNat_add _ _).trans (Nat.mod_eq_of_lt hlt)
  · rw [dif_neg h, if_neg fun h' => h (hcapital.2 h')]

/-- A character is folded to one that is no capital letter when it is that one or its capital. -/
theorem toLower_eq_iff {c d : Char} (hd : d.toLower = d) : c.toLower = d ↔ c = d ∨ CapitalOf c d := by
  have hnat (a b : Char) : a = b ↔ a.toNat = b.toNat := Char.toNat_inj.symm
  have hA : 'A'.toNat = 65 := rfl
  have hZ : 'Z'.toNat = 90 := rfl
  rw [hnat, toNat_toLower] at hd ⊢
  rw [hnat c, CapitalOf]
  split at hd <;> split <;> omega

/-- Folding the case of a text makes a name without capital letters of it when the text is the name but for capital letters. -/
theorem foldCase_eq_iff {s name : String} (hname : foldCase name = name) :
    foldCase s = name ↔ List.Forall₂ (fun c d => c = d ∨ CapitalOf c d) s.toList name.toList := by
  rw [← String.toList_inj, foldCase, String.toList_ofList] at hname ⊢
  generalize s.toList = cs
  generalize name.toList = ds at hname
  induction ds generalizing cs with
  | nil => rw [List.map_eq_nil_iff, List.forall₂_nil_right_iff]
  | cons d ds ih =>
    rw [List.map_cons, List.cons.injEq] at hname
    cases cs with
    | nil => simp
    | cons c cs => rw [List.map_cons, List.cons.injEq, List.forall₂_cons, toLower_eq_iff hname.1, ih cs hname.2]

/-! ## The domains -/

/-- The options that are checked, in the order of their checks. -/
def OptionName.checked : List OptionName :=
  [.maxSize, .maxWidth, .maxHeight, .maxBatch, .maxBatchCols, .throttleSecs, .skipUpscaleLayers, .oomFallback]

/-- A bound in pixels that may be given. -/
def sideAllowed (v : Int) : Bool := 1 ≤ v ∧ v < 0x100000000

/-- A number of items or columns that may be given. -/
def countAllowed (v : Int) : Bool := 1 ≤ v

/-- A time in seconds that may be given. -/
def intervalAllowed (v : Float) : Bool := (Duration.ofSeconds? v).isSome

/-- A directive on upscale stages that may be given. -/
def directiveAllowed (v : Int) : Bool := -2 ≤ v ∧ v < 0x100000000

/-- A name of a fallback that may be given. -/
def fallbackAllowed (v : String) : Bool := foldCase (trim v) = "none" ∨ foldCase (trim v) = "latent2rgb"

/-- A name may be given that, but for the blanks around it and capital letters, is that of a fallback. -/
theorem fallbackAllowed_iff (v : String) :
    fallbackAllowed v = true ↔
      ∃ f : Fallback, List.Forall₂ (fun c d => c = d ∨ CapitalOf c d) (trim v).toList f.name.toList := by
  have hname (f : Fallback) : foldCase f.name = f.name := by
    cases f <;> decide +kernel
  simp only [fallbackAllowed, decide_eq_true_eq, ← foldCase_eq_iff (hname _)]
  constructor
  · rintro (h | h)
    · exact ⟨.absent, h⟩
    · exact ⟨.projection, h⟩
  · rintro ⟨f, h⟩
    cases f with
    | absent => exact .inl h
    | projection => exact .inr h

/-- The option is absent, or given a value of its domain. -/
def RawOptions.allows (raw : RawOptions) : OptionName → Bool
  | .maxSize => raw.maxSize.all sideAllowed
  | .maxWidth => raw.maxWidth.all sideAllowed
  | .maxHeight => raw.maxHeight.all sideAllowed
  | .maxBatch => raw.maxBatch.all countAllowed
  | .maxBatchCols => raw.maxBatchCols.all countAllowed
  | .throttleSecs => raw.throttleSecs.all intervalAllowed
  | .skipUpscaleLayers => raw.skipUpscaleLayers.all directiveAllowed
  | .oomFallback => raw.oomFallback.all fallbackAllowed
  | _ => true

/-! ## The checks -/

variable {α β : Type}

/-- A check of an option: it takes each value of the domain for something that the value means, and blames the option for every
other. -/
structure Checks (option : OptionName) (domain : α → Bool) (means : α → β → Prop) (check : α → Except PreviewError β) :
    Prop where
  takes : ∀ a, domain a = true → ∃ b, check a = .ok b ∧ means a b
  blames : ∀ a, domain a = false → ∃ reason, check a = .error (.config option.text reason)

theorem checkSide_checks (option : OptionName) :
    Checks option sideAllowed (fun v side => (side.val : Int) = v) (checkSide option) := by
  constructor
  · intro v hv
    obtain ⟨hpos, hlt⟩ := of_decide_eq_true hv
    have hle : ¬v ≤ 0 := by omega
    refine ⟨⟨v.toNat, by omega⟩, ?_, Int.toNat_of_nonneg (by omega)⟩
    simp only [checkSide, dif_neg hle, dif_pos hlt]
  · intro v hv
    have hnot := of_decide_eq_false hv
    unfold checkSide
    by_cases hle : v ≤ 0
    · rw [dif_pos hle]
      exact ⟨_, rfl⟩
    · have hge : ¬v < 0x100000000 := by omega
      rw [dif_neg hle, dif_neg hge]
      exact ⟨_, rfl⟩

theorem checkCount_checks (option : OptionName) :
    Checks option countAllowed (fun v count => (count.val : Int) = v) (checkCount option) := by
  constructor
  · intro v hv
    have hpos : 1 ≤ v := of_decide_eq_true hv
    have hlt : ¬v < 1 := by omega
    refine ⟨⟨v.toNat, by omega⟩, ?_, Int.toNat_of_nonneg (by omega)⟩
    simp only [checkCount, dif_neg hlt]
  · intro v hv
    have hnot : ¬1 ≤ v := of_decide_eq_false hv
    have hlt : v < 1 := by omega
    unfold checkCount
    rw [dif_pos hlt]
    exact ⟨_, rfl⟩

theorem checkInterval_checks :
    Checks .throttleSecs intervalAllowed (fun v d => Duration.ofSeconds? v = some d) checkInterval := by
  constructor
  · intro v hv
    obtain ⟨d, hd⟩ := Option.isSome_iff_exists.1 hv
    refine ⟨d, ?_, hd⟩
    simp only [checkInterval, hd]
  · intro v hv
    have hd : Duration.ofSeconds? v = none := Option.isSome_eq_false_iff.1 hv |> Option.isNone_iff_eq_none.1
    simp only [checkInterval, hd]
    exact ⟨_, rfl⟩

/-- The directive that gives a policy. -/
def SkipPolicy.directive : SkipPolicy → Int
  | .fixed stages => stages
  | .conservative => -1
  | .aggressive => -2

theorem SkipPolicy.ofDirective_checks :
    Checks .skipUpscaleLayers directiveAllowed (fun v policy => policy.directive = v) SkipPolicy.ofDirective := by
  constructor
  · intro v hv
    obtain ⟨hge, hlt⟩ := of_decide_eq_true hv
    unfold SkipPolicy.ofDirective
    by_cases h1 : v = -1
    · rw [if_pos h1]
      exact ⟨_, rfl, h1.symm⟩
    · by_cases h2 : v = -2
      · rw [if_neg h1, if_pos h2]
        exact ⟨_, rfl, h2.symm⟩
      · have hneg : ¬v < 0 := by omega
        rw [if_neg h1, if_neg h2, if_neg hneg, if_pos hlt]
        exact ⟨_, rfl, Int.toNat_of_nonneg (by omega)⟩
  · intro v hv
    have hnot := of_decide_eq_false hv
    have h1 : ¬v = -1 := by omega
    have h2 : ¬v = -2 := by omega
    unfold SkipPolicy.ofDirective
    rw [if_neg h1, if_neg h2]
    by_cases hneg : v < 0
    · rw [if_pos hneg]
      exact ⟨_, rfl⟩
    · have hge : ¬v < 0x100000000 := by omega
      rw [if_neg hneg, if_neg hge]
      exact ⟨_, rfl⟩

theorem Fallback.ofName_checks :
    Checks .oomFallback fallbackAllowed (fun v fallback => fallback.name = foldCase (trim v)) Fallback.ofName := by
  constructor
  · intro v hv
    simp only [Fallback.ofName]
    by_cases h1 : foldCase (trim v) = Fallback.absent.name
    · rw [if_pos h1]
      exact ⟨.absent, rfl, h1.symm⟩
    · have h2 : foldCase (trim v) = Fallback.projection.name := (of_decide_eq_true hv).resolve_left h1
      rw [if_neg h1, if_pos h2]
      exact ⟨.projection, rfl, h2.symm⟩
  · intro v hv
    obtain ⟨h1, h2⟩ := not_or.1 (of_decide_eq_false hv)
    change ¬foldCase (trim v) = Fallback.absent.name at h1
    change ¬foldCase (trim v) = Fallback.projection.name at h2
    simp only [Fallback.ofName]
    rw [if_neg h1, if_neg h2]
    exact ⟨_, rfl⟩

/-! ## Checks in a row -/

/-- The options were judged in order. Either all are allowed and what was made of them has the property, or the first that is not
allowed is blamed. -/
def Judged (raw : RawOptions) (options : List OptionName) (P : α → Prop) : Except PreviewError α → Prop
  | .ok a => (∀ o ∈ options, raw.allows o) ∧ P a
  | .error e => ∃ o reason, options.find? (fun o => !raw.allows o) = some o ∧ e = .config o.text reason

/-- No option is left to judge. -/
theorem Judged.ok {raw : RawOptions} {P : α → Prop} {a : α} (h : P a) : Judged raw [] P (.ok a) := by
  refine ⟨?_, h⟩
  intro o ho
  nomatch ho

/-- The rest of a row is judged after its first option. -/
theorem Judged.bind {raw : RawOptions} {option : OptionName} {rest : List OptionName} {P : α → Prop} {Q : β → Prop}
    {x : Except PreviewError α} {f : α → Except PreviewError β} (hx : Judged raw [option] P x)
    (hf : ∀ a, P a → Judged raw rest Q (f a)) : Judged raw (option :: rest) Q (x >>= f) := by
  rw [← List.singleton_append]
  cases x with
  | error e =>
    obtain ⟨o, reason, ho, he⟩ := hx
    exact ⟨o, reason, by rw [List.find?_append, ho, Option.some_or], he⟩
  | ok a =>
    obtain ⟨hall, ha⟩ := hx
    have hnone : [option].find? (fun o => !raw.allows o) = none := by
      rw [List.find?_eq_none]
      intro o ho
      simp [hall o ho]
    have hrest := hf a ha
    show Judged raw ([option] ++ rest) Q (f a)
    cases hr : f a with
    | error e =>
      rw [hr] at hrest
      obtain ⟨o, reason, ho, he⟩ := hrest
      exact ⟨o, reason, by rw [List.find?_append, hnone, Option.none_or, ho], he⟩
    | ok b =>
      rw [hr] at hrest
      obtain ⟨hall', hb⟩ := hrest
      refine ⟨?_, hb⟩
      intro o ho
      rcases List.mem_append.1 ho with ho | ho
      · exact hall o ho
      · exact hall' o ho

/-- Something is made exactly when every option is allowed. -/
theorem Judged.exists_ok_iff {raw : RawOptions} {options : List OptionName} {P : α → Prop} {x : Except PreviewError α}
    (h : Judged raw options P x) : (∃ a, x = .ok a) ↔ ∀ o ∈ options, raw.allows o := by
  cases x with
  | error e =>
    obtain ⟨o, reason, ho, -⟩ := h
    constructor
    · rintro ⟨a, ha⟩
      cases ha
    · intro hall
      have hallowed := hall o (List.mem_of_find?_eq_some ho)
      have hrefused := List.find?_some ho
      simp [hallowed] at hrefused
  | ok a =>
    constructor
    · intro _
      exact h.1
    · intro _
      exact ⟨a, rfl⟩

/-- What stands for an option: the default when it is absent, else what its value means. -/
def StandsFor (means : α → β → Prop) (fallback : β) (given : Option α) (b : β) : Prop :=
  match given with
  | none => b = fallback
  | some a => means a b

/-- What stands for an option that is given by a number. -/
theorem StandsFor.eq_getD {value : β → α} {fallback b : β} {given : Option α}
    (h : StandsFor (fun a b => value b = a) fallback given b) : value b = given.getD (value fallback) := by
  rcases given with - | a
  · exact congrArg value h
  · exact h

/-- One option is judged by its check. -/
theorem Checks.judged {raw : RawOptions} {option : OptionName} {domain : α → Bool} {means : α → β → Prop}
    {check : α → Except PreviewError β} (hc : Checks option domain means check) {given : Option α} (fallback : β)
    (hallows : raw.allows option = given.all domain) :
    Judged raw [option] (StandsFor means fallback given) (orDefault check fallback given) := by
  rcases given with - | a
  · refine ⟨?_, rfl⟩
    intro o ho
    rw [List.mem_singleton.1 ho, hallows, Option.all_none]
  · rw [Option.all_some] at hallows
    cases ha : domain a with
    | true =>
      obtain ⟨b, hb, hmeans⟩ := hc.takes a ha
      simp only [orDefault, hb]
      refine ⟨?_, hmeans⟩
      intro o ho
      rw [List.mem_singleton.1 ho, hallows, ha]
    | false =>
      obtain ⟨reason, hb⟩ := hc.blames a ha
      simp only [orDefault, hb]
      exact ⟨option, reason, by rw [List.find?_singleton, hallows, ha]; rfl, rfl⟩

/-! ## Settings -/

/-- Compile options that leave everything out. -/
theorem CompileOptions.isEmpty_iff (o : CompileOptions) : o.isEmpty = true ↔ o = {} := by
  obtain ⟨mode, backend, fullgraph, dynamic⟩ := o
  simp [CompileOptions.isEmpty, and_assoc]

/-- What settings owe to the options that they are made of. -/
structure Settings.Follows (s : Settings) (raw : RawOptions) : Prop where
  enabled : s.enabled = raw.enabled.getD true
  /-- An axis has its own bound, else the one for both. -/
  maxWidth : (s.maxWidth : Int) = raw.maxWidth.getD (raw.maxSize.getD 768)
  maxHeight : (s.maxHeight : Int) = raw.maxHeight.getD (raw.maxSize.getD 768)
  maxBatch : (s.maxBatch : Int) = raw.maxBatch.getD 4
  maxColumns : (s.maxColumns : Int) = raw.maxBatchCols.getD 2
  /-- The interval is the time given in seconds, else two seconds. -/
  interval : StandsFor (fun v d => Duration.ofSeconds? v = some d) (Duration.ofParts 2 0) raw.throttleSecs s.interval
  spread : s.spread = raw.maxedBatchStepMode.getD false
  /-- A device is what the name given has between its blank ends. -/
  device : ∀ name, s.device = some name →
    name ≠ "" ∧ Trimmed name ∧ ∃ given, raw.previewDevice = some given ∧ CutFrom given name
  /-- No device stands for a name that is missing or blank. -/
  noDevice : s.device = none → ∀ given ∈ raw.previewDevice, ∀ c ∈ given.toList, isBlank c
  skip : s.skip.directive = raw.skipUpscaleLayers.getD 0
  disabled : s.compile = .disabled ↔ raw.compilePreviewer = none ∨ raw.compilePreviewer = some (.flag false)
  compiled : s.compile = .enabled ↔ raw.compilePreviewer = some (.flag true) ∨ raw.compilePreviewer = some (.options {})
  /-- Only options with a field set are kept. -/
  custom : ∀ o, s.compile = .custom o ↔ raw.compilePreviewer = some (.options o) ∧ o ≠ {}
  /-- The fallback is the one named, else the projection. -/
  fallback : StandsFor (fun name f => f.name = foldCase (trim name)) .projection raw.oomFallback s.fallback
  retry : s.retry = raw.oomRetry.getD true

/-- A name without its blank ends, if anything is left of it. -/
theorem deviceOf_eq_some {given : Option String} {name : String} (h : deviceOf given = some name) :
    name ≠ "" ∧ Trimmed name ∧ ∃ full, given = some full ∧ CutFrom full name := by
  unfold deviceOf at h
  obtain ⟨hmap, hne⟩ := Option.filter_eq_some_iff.1 h
  obtain ⟨full, hfull, rfl⟩ := Option.map_eq_some_iff.1 hmap
  exact ⟨by simpa using hne, trim_trimmed full, full, hfull, trim_cuts full⟩

theorem deviceOf_eq_none {given : Option String} (h : deviceOf given = none) :
    ∀ full ∈ given, ∀ c ∈ full.toList, isBlank c := by
  intro full hfull
  have htrim : trim full = "" := by
    rw [Option.mem_def.1 hfull] at h
    simpa [deviceOf] using h
  exact blank_of_trim htrim

/-- The setting that a choice, or none, comes to. -/
theorem compile_cases (choice : Option CompileChoice) :
    let setting := (choice.map CompileChoice.setting).getD .disabled
    (setting = .disabled ↔ choice = none ∨ choice = some (.flag false)) ∧
    (setting = .enabled ↔ choice = some (.flag true) ∨ choice = some (.options {})) ∧
    ∀ o, setting = .custom o ↔ choice = some (.options o) ∧ o ≠ {} := by
  rcases choice with - | on | given
  · simp
  · cases on <;> simp [CompileChoice.setting]
  · by_cases hg : given = {}
    · have hempty := (CompileOptions.isEmpty_iff given).2 hg
      subst hg
      simp only [Option.map_some, Option.getD_some, CompileChoice.setting, hempty, if_true]
      simp
    · have hempty : ¬given.isEmpty = true := fun h => hg ((CompileOptions.isEmpty_iff given).1 h)
      simp only [Option.map_some, Option.getD_some, CompileChoice.setting, if_neg hempty]
      simp [hg]

/-- The options are judged in the order of their checks. -/
theorem Settings.resolve_judged (raw : RawOptions) :
    Judged raw OptionName.checked (fun s => s.Follows raw) (Settings.resolve raw) := by
  unfold OptionName.checked Settings.resolve
  refine Judged.bind ((checkSide_checks _).judged _ rfl) fun size hsize => ?_
  refine Judged.bind ((checkSide_checks _).judged _ rfl) fun width hwidth => ?_
  refine Judged.bind ((checkSide_checks _).judged _ rfl) fun height hheight => ?_
  refine Judged.bind ((checkCount_checks _).judged _ rfl) fun batch hbatch => ?_
  refine Judged.bind ((checkCount_checks _).judged _ rfl) fun columns hcolumns => ?_
  refine Judged.bind (checkInterval_checks.judged _ rfl) fun interval hinterval => ?_
  refine Judged.bind (SkipPolicy.ofDirective_checks.judged _ rfl) fun skip hskip => ?_
  refine Judged.bind (Fallback.ofName_checks.judged _ rfl) fun fallback hfallback => ?_
  have hsize : (size.val : Int) = raw.maxSize.getD 768 := hsize.eq_getD
  obtain ⟨hdisabled, hcompiled, hcustom⟩ := compile_cases raw.compilePreviewer
  exact Judged.ok {
    enabled := rfl
    maxWidth := hsize ▸ hwidth.eq_getD
    maxHeight := hsize ▸ hheight.eq_getD
    maxBatch := hbatch.eq_getD
    maxColumns := hcolumns.eq_getD
    interval := hinterval
    spread := rfl
    device := fun name hname => deviceOf_eq_some hname
    noDevice := deviceOf_eq_none
    skip := hskip.eq_getD
    disabled := hdisabled
    compiled := hcompiled
    custom := hcustom
    fallback := hfallback
    retry := rfl }

/-- Options make settings exactly when every option that is checked lies in its domain. A mapping that makes none is refused for the
first option, in the order of the checks, that does not. Settings hold what the options say, and their limits are positive. -/
theorem Settings.resolve_judges (raw : RawOptions) :
    ((∃ s, Settings.resolve raw = .ok s) ↔ ∀ o ∈ OptionName.checked, raw.allows o) ∧
    (∀ e, Settings.resolve raw = .error e →
      ∃ o reason, OptionName.checked.find? (fun o => !raw.allows o) = some o ∧ e = .config o.text reason) ∧
    ∀ s, Settings.resolve raw = .ok s →
      s.Follows raw ∧ 1 ≤ s.maxWidth ∧ 1 ≤ s.maxHeight ∧ 1 ≤ s.maxBatch ∧ 1 ≤ s.maxColumns := by
  have hjudged := Settings.resolve_judged raw
  refine ⟨hjudged.exists_ok_iff, ?_, ?_⟩
  · intro e he
    rw [he] at hjudged
    exact hjudged
  · intro s hs
    rw [hs] at hjudged
    obtain ⟨-, hfollows⟩ := hjudged
    exact ⟨hfollows, s.maxWidth_pos, s.maxHeight_pos, s.maxBatch_pos, s.maxColumns_pos⟩

/-- A bound for both axes is checked before theirs, and even where each axis has its own. -/
example : Settings.resolve { maxSize := some 0, maxWidth := some 64, maxHeight := some (-1) } =
    .error (.config "max_size" "must be > 0, got 0") := rfl

end ContactSheet
