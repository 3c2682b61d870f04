import TtcnTemplates.Output.Store
import TtcnTemplates.Template.Source
import TtcnTemplates.Text.Lowercase

/-! # The generated file

The templates of a module become one class in one file. The package of the class is given by the options or is the
name of the module in lower case, and the file lies at the path of its package in the output directory.
-/

namespace TtcnTemplates

open Text

namespace Settings

/-- The package of the class that is generated for a module. -/
def packageFor (settings : Settings) (registry : Registry) : Package :=
  match settings.package, registry.name with
  | some package, _ => package
  | none, some name => .ofText (toLower name)
  | none, none => ⟨[]⟩

/-- The directory of a package in the output directory. -/
def directoryIn (settings : Settings) (package : Package) : Path :=
  package.parts.foldl (fun (path : Path) part => path.push (encode part)) ⟨settings.outDir⟩

/-- The path of the class in a package. -/
def pathIn (settings : Settings) (package : Package) : Path :=
  (settings.directoryIn package).push (encode (settings.className ++ ".java"))

/-- The fragments of a file up to the body of the class in a package. -/
def heading (settings : Settings) (package : Package) : List String :=
  (if package.parts.isEmpty then [] else ["package ", package.text, ";\n\n"]) ++
    ["import ", settings.runtimePackage.text, ".*;\n\n"] ++ ["public class ", settings.className, " \x7b\n\n"]

/-- The fragments of the file in which the class in a package stands. -/
def fragments (settings : Settings) (package : Package) (registry : Registry) : List String :=
  settings.heading package ++ registry.fragments 1 ++ ["\x7d\n"]

end Settings

/-- Generates the file of a module. Its diagnostics are noted first. -/
def generate {σ : Type} [FileStore σ] (store : σ) (settings : Settings) (registry : Registry) : Attempt σ :=
  let package := settings.packageFor registry
  let path := settings.pathIn package
  let notices := registry.diagnostics.map (Notice.reported registry.name) ++
    [.writing registry.templates.length path.text]
  let attempt := FileStore.create store path (encode (String.join (settings.fragments package registry)))
  { attempt with log := notices ++ attempt.log }

/-- Something that is to be put into a store. -/
inductive Job where
  /-- The file of a module, with the given options. -/
  | generate (options : List (String × Bytes)) (registry : Registry)
  /-- A file with the given data. -/
  | create (path : Path) (data : Bytes)
deriving Repr

/-- Does a job. Wrong options leave the store as it is. -/
def Job.run {σ : Type} [FileStore σ] (store : σ) : Job → Attempt σ
  | .generate options registry =>
    match Settings.ofOptions options with
    | .ok settings => TtcnTemplates.generate store settings registry
    | .error error => { store, result := .error (.options error) }
  | .create path data => FileStore.create store path data

end TtcnTemplates
