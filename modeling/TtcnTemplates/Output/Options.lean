import TtcnTemplates.Text.Characters
import TtcnTemplates.Text.Utf8

/-! # Options

Options are given one by one, each at most once, as a name and a string of bytes. Only the output directory has to
be given; the other options have defaults.
-/

namespace TtcnTemplates

open Text

/-- A Java package, by the parts of its name. -/
structure Package where
  parts : List String
deriving DecidableEq, Repr

/-- The package of a dotted name. The empty text names the package without parts. -/
def Package.ofText (text : String) : Package :=
  if text = "" then ⟨[]⟩ else ⟨(text.toList.splitOn '.').map String.ofList⟩

/-- The dotted name of a package. -/
def Package.text (package : Package) : String := String.intercalate "." package.parts

/-- The options. -/
inductive OptionName where
  | outDir
  | package
  | className
  | runtimePackage
deriving DecidableEq, Repr

/-- Every option. -/
def OptionName.all : List OptionName := [.outDir, .package, .className, .runtimePackage]

/-- The name by which an option is given. -/
def OptionName.text : OptionName → String
  | .outDir => "out_dir"
  | .package => "package"
  | .className => "class"
  | .runtimePackage => "runtime_package"

/-- The option that is given by a name. -/
def OptionName.ofText? (text : String) : Option OptionName := OptionName.all.find? fun name => name.text == text

/-- What can be wrong with the options. -/
inductive OptionError where
  | unknown (name : String)
  /-- The value is no text. -/
  | invalidValue (name : OptionName)
  | invalidClassName (text : String)
  | alreadyGiven (name : OptionName)
  | noOutputDirectory
deriving DecidableEq, Repr

/-- The wording of an error. -/
def OptionError.message : OptionError → String
  | .unknown name => "Unknown option: " ++ name
  | .invalidValue name => "Invalid value for option " ++ name.text
  | .invalidClassName text => "Invalid class name: " ++ text
  | .alreadyGiven name => "Option " ++ name.text ++ " already specified"
  | .noOutputDirectory => "Output directory not specified"

/-- The options given so far. -/
structure Options where
  outDir : Option Bytes := none
  package : Option Package := none
  className : Option String := none
  runtimePackage : Option Package := none
deriving DecidableEq, Repr

/-- What the options say once they are complete. -/
structure Settings where
  outDir : Bytes
  /-- The package of the generated class, where it is not the name of the module. -/
  package : Option Package
  className : String
  runtimePackage : Package
deriving DecidableEq, Repr

namespace Options

/-- The text of an option's value. -/
def textOf (name : OptionName) (value : Bytes) : Except OptionError String :=
  match decode? value with
  | some text => .ok text
  | none => .error (.invalidValue name)

/-- Gives an option its value, unless it has one. -/
def once {α : Type} (name : OptionName) (slot : Option α) (value : α) : Except OptionError (Option α) :=
  if slot.isSome then .error (.alreadyGiven name) else .ok (some value)

/-- A text that is the name of a class. -/
def classOf (text : String) : Except OptionError String :=
  if isIdentifier text then .ok text else .error (.invalidClassName text)

/-- Gives one option. Its value is checked before it is asked whether the option has been given. -/
def set (options : Options) (value : Bytes) : OptionName → Except OptionError Options
  | .outDir => return { options with outDir := ← once .outDir options.outDir value }
  | .package => do
    let text ← textOf .package value
    return { options with package := ← once .package options.package (.ofText text) }
  | .className => do
    let name ← classOf (← textOf .className value)
    return { options with className := ← once .className options.className name }
  | .runtimePackage => do
    let text ← textOf .runtimePackage value
    return { options with runtimePackage := ← once .runtimePackage options.runtimePackage (.ofText text) }

/-- Gives the option of a name. -/
def add (options : Options) (name : String) (value : Bytes) : Except OptionError Options :=
  match OptionName.ofText? name with
  | some name => options.set value name
  | none => .error (.unknown name)

/-- The options after one more was offered. One that cannot be given leaves them as they are. -/
def offer (options : Options) (option : String × Bytes) : Options :=
  (options.add option.1 option.2).toOption.getD options

/-- The options after a list of them was offered one by one. -/
def offerAll (offered : List (String × Bytes)) : Options := offered.foldl offer {}

/-- The class that is generated by default. -/
def defaultClassName : String := "Templates"

/-- The package of the runtime by default. -/
def defaultRuntimePackage : Package := .ofText "ttcn3.runtime"

/-- Completes the options. -/
def settings (options : Options) : Except OptionError Settings :=
  match options.outDir with
  | none => .error .noOutputDirectory
  | some outDir =>
    .ok { outDir, package := options.package, className := options.className.getD defaultClassName,
          runtimePackage := options.runtimePackage.getD defaultRuntimePackage }

end Options

/-- The settings of a list of options. The first option that cannot be given is the error. -/
def Settings.ofOptions (given : List (String × Bytes)) : Except OptionError Settings := do
  let options ← given.foldlM (fun (options : Options) option => options.add option.1 option.2) {}
  options.settings

end TtcnTemplates
