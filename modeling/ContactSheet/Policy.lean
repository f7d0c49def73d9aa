import ContactSheet.Json.Record
import ContactSheet.Text.Blank
import ContactSheet.Error
import ContactSheet.OptionName

/-!
# The choices a configuration offers

How many decoder stages to skip (`SkipPolicy`), what to do when the decoder runs out of memory (`Fallback`), and whether the
decoder is compiled first (`CompileSetting`), each with the form it has in an option mapping and its form as a JSON value.
-/

namespace ContactSheet

/-! ## Skipping stages -/

/-- How many upscale stages the decoder leaves out. -/
inductive SkipPolicy where
  /-- So many, at most all. -/
  | fixed (stages : Nat)
  /-- As many as keep the decoded size at or above the size shown. -/
  | conservative
  /-- As many as keep the decoded size at or above half the size shown. -/
  | aggressive
  deriving DecidableEq, Repr

/-- Without a directive no stage is skipped. -/
instance : Inhabited SkipPolicy := ⟨.fixed 0⟩

/-- A directive is a number of stages, or -1 or -2 for the two policies that choose it. -/
def SkipPolicy.ofDirective (directive : Int) : Except PreviewError SkipPolicy :=
  if directive = -1 then .ok .conservative
  else if directive = -2 then .ok .aggressive
  else if directive < 0 then
    .error (.config OptionName.skipUpscaleLayers.text
      ("expected >= 0, -1 (conservative) or -2 (aggressive), got " ++ toString directive))
  else if directive < 0x100000000 then .ok (.fixed directive.toNat)
  else .error (.config OptionName.skipUpscaleLayers.text (toString directive ++ " is too large"))

/-- A skip policy as a JSON value. -/
def SkipPolicy.toJson : SkipPolicy → Json
  | .fixed n => .ofFields [("Fixed", .ofNat n)]
  | .conservative => .ofString "Conservative"
  | .aggressive => .ofString "Aggressive"

/-- The skip policy that a JSON value stands for. -/
def SkipPolicy.ofJson? (v : Json) : Option SkipPolicy :=
  match v.variant? with
  | some ("Fixed", some payload) => (payload.nat? 0x100000000).map .fixed
  | some ("Conservative", payload) => if Json.isNothing payload then some .conservative else none
  | some ("Aggressive", payload) => if Json.isNothing payload then some .aggressive else none
  | _ => none

/-! ## Running out of memory -/

/-- What stands in for a decoder that ran out of memory. -/
inductive Fallback where
  /-- Nothing: the cycle has no preview. -/
  | absent
  /-- The linear projection of the latent onto colours. -/
  | projection
  deriving DecidableEq, Repr

/-- Without a choice the projection stands in. -/
instance : Inhabited Fallback := ⟨.projection⟩

/-- The name of a fallback in an option mapping. -/
def Fallback.name : Fallback → String
  | .absent => "none"
  | .projection => "latent2rgb"

/-- The fallback of that name; blanks around it and the case of its letters do not matter. -/
def Fallback.ofName (s : String) : Except PreviewError Fallback :=
  let name := foldCase (trim s)
  if name = Fallback.absent.name then .ok .absent
  else if name = Fallback.projection.name then .ok .projection
  else .error (.config OptionName.oomFallback.text ("unknown value '" ++ name ++ "', expected 'none' or 'latent2rgb'"))

/-- A fallback as a JSON value. -/
def Fallback.toJson : Fallback → Json
  | .absent => .ofString "None"
  | .projection => .ofString "Latent2Rgb"

/-- The fallback that a JSON value stands for. -/
def Fallback.ofJson? (v : Json) : Option Fallback :=
  match v.variant? with
  | some ("None", payload) => if Json.isNothing payload then some .absent else none
  | some ("Latent2Rgb", payload) => if Json.isNothing payload then some .projection else none
  | _ => none

/-! ## Compiling the decoder -/

/-- Options for a compiled decoder, each of which may be left to the backend. -/
structure CompileOptions where
  mode : Option String := none
  backend : Option String := none
  fullgraph : Option Bool := none
  dynamic : Option Bool := none
  deriving DecidableEq, Repr, Inhabited

/-- No option is given. -/
def CompileOptions.isEmpty (o : CompileOptions) : Bool :=
  o.mode.isNone && o.backend.isNone && o.fullgraph.isNone && o.dynamic.isNone

/-- Compile options as a JSON value. -/
def CompileOptions.toJson (o : CompileOptions) : Json :=
  .ofFields [("mode", .ofOption .ofString o.mode), ("backend", .ofOption .ofString o.backend),
    ("fullgraph", .ofOption .bool o.fullgraph), ("dynamic", .ofOption .bool o.dynamic)]

/-- The compile options that a JSON record gives; a field left out is left to the backend. -/
def CompileOptions.ofJson? (v : Json) : Option CompileOptions := do
  match ← v.fields? [["mode"], ["backend"], ["fullgraph"], ["dynamic"]] with
  | [mode, backend, fullgraph, dynamic] =>
    return {
      mode := ← Json.optional? Json.string? mode
      backend := ← Json.optional? Json.string? backend
      fullgraph := ← Json.optional? Json.bool? fullgraph
      dynamic := ← Json.optional? Json.bool? dynamic }
  | _ => none

/-- Whether the decoder is compiled, and how. -/
inductive CompileSetting where
  | disabled
  /-- With what the backend has for defaults. -/
  | enabled
  | custom (options : CompileOptions)
  deriving DecidableEq, Repr, Inhabited

/-- The decoder is compiled in some way. -/
def CompileSetting.isEnabled : CompileSetting → Bool
  | .disabled => false
  | _ => true

/-- The options given, if any. -/
def CompileSetting.options? : CompileSetting → Option CompileOptions
  | .custom o => some o
  | _ => none

/-- A compile setting as a JSON value. -/
def CompileSetting.toJson : CompileSetting → Json
  | .disabled => .ofString "Disabled"
  | .enabled => .ofString "Enabled"
  | .custom o => .ofFields [("Custom", o.toJson)]

/-- The compile setting that a JSON value stands for. -/
def CompileSetting.ofJson? (v : Json) : Option CompileSetting :=
  match v.variant? with
  | some ("Disabled", payload) => if Json.isNothing payload then some .disabled else none
  | some ("Enabled", payload) => if Json.isNothing payload then some .enabled else none
  | some ("Custom", some payload) => (CompileOptions.ofJson? payload).map .custom
  | _ => none

/-- What an option mapping may say about compiling: a flag, or options. -/
inductive CompileChoice where
  | flag (on : Bool)
  | options (given : CompileOptions)
  deriving DecidableEq, Repr

/-- A flag turns compiling on or off; options that leave everything out only turn it on. -/
def CompileChoice.setting : CompileChoice → CompileSetting
  | .flag false => .disabled
  | .flag true => .enabled
  | .options o => if o.isEmpty then .enabled else .custom o

/-- A compile choice as a JSON value. -/
def CompileChoice.toJson : CompileChoice → Json
  | .flag on => .bool on
  | .options o => o.toJson

/-- The compile choice that a JSON value stands for. The value is taken in whole before its kind is known: it must be sound, and
when it comes from a text its containers may not nest deeper than `room`. -/
def CompileChoice.ofJson? (room : Option Nat) (v : Json) : Option CompileChoice :=
  if v.isSound && room.all (v.depth ≤ ·) then
    match v with
    | .bool on => some (.flag on)
    | _ => (CompileOptions.ofJson? v).map .options
  else none

end ContactSheet
