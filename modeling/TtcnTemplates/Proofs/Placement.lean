import Mathlib.Data.List.Basic
import TtcnTemplates.Output.Generate
import TtcnTemplates.Proofs.Lexical
import TtcnTemplates.Proofs.Modules

/-! # Where generated files lie

The path of a generated file is put together from the output directory, the parts of its package and its class, one
after the other. Where every part of the package is a name, the directory of the file mirrors the package. But the parts
come from an option or from the name of the module, and they are not checked: a part without characters is lost, a part
with separators in it becomes several directories, and a part that begins with a separator leads away from the output
directory.
-/

namespace TtcnTemplates

open Text

/-! ### Splitting -/

/-- What stands between separators is part of the list, and the separator is not in it. -/
theorem forall_of_mem_splitOn {α : Type} [BEq α] [LawfulBEq α] {separator : α} {list part : List α}
    (member : part ∈ list.splitOn separator) : ∀ item ∈ part, item ∈ list ∧ item ≠ separator := by
  induction list generalizing part with
  | nil =>
    rw [List.splitOn_nil, List.mem_singleton] at member
    subst member
    simp
  | cons first rest ih =>
    have later {part : List α} (member : part ∈ rest.splitOn separator) :
        ∀ item ∈ part, item ∈ first :: rest ∧ item ≠ separator := by
      intro item inside
      have found := ih member item inside
      exact ⟨List.mem_cons_of_mem _ found.1, found.2⟩
    rw [List.splitOn_cons_eq_if_modifyHead] at member
    split at member
    · rcases List.mem_cons.mp member with rfl | member
      · simp
      · exact later member
    · rename_i other
      generalize rest.splitOn separator = parts at member later
      cases parts with
      | nil => simp at member
      | cons head tail =>
        rcases List.mem_cons.mp member with rfl | member
        · refine List.forall_mem_cons.mpr ⟨⟨List.mem_cons_self, ?_⟩, later List.mem_cons_self⟩
          simpa using other
        · exact later (List.mem_cons_of_mem _ member)

/-- The parts of a dotted name have no dots. -/
theorem Package.not_mem_of_mem_ofText {text part : String} (member : part ∈ (Package.ofText text).parts) :
    '.' ∉ part.toList := by
  rw [Package.ofText] at member
  split at member
  · cases member
  · obtain ⟨chars, inside, rfl⟩ := List.mem_map.mp member
    rw [String.toList_ofList]
    exact fun dot => (forall_of_mem_splitOn inside '.' dot).2 rfl

/-! ### The bytes of a text -/

namespace Text

theorem mem_utf8EncodeChar_iff {c d : Char} (ascii : c.toNat < 128) :
    UInt8.ofNat c.toNat ∈ String.utf8EncodeChar d ↔ c = d := by
  have byte (n : Nat) : UInt8.ofNat c.toNat = UInt8.ofNat n ↔ c.toNat = n % 256 := by
    rw [← UInt8.toNat_inj, UInt8.toNat_ofNat', UInt8.toNat_ofNat']
    omega
  rw [← Char.toNat_inj, String.utf8EncodeChar, show d.val.toNat = d.toNat from rfl]
  -- All bytes of a longer encoding are above 127.
  split_ifs
  all_goals
    simp only [List.mem_cons, List.not_mem_nil, or_false, byte]
    omega

/-- A byte below 128 stands for its own character only. -/
theorem mem_encode_iff {c : Char} (ascii : c.toNat < 128) {text : String} :
    UInt8.ofNat c.toNat ∈ encode text ↔ c ∈ text.toList := by
  simp [encode, mem_utf8EncodeChar_iff ascii]

theorem encode_eq_nil_iff {text : String} : encode text = [] ↔ text = "" := by
  rw [encode, List.flatMap_eq_nil_iff, ← String.toList_eq_nil_iff, List.eq_nil_iff_forall_not_mem]
  exact forall_congr' fun c => imp_congr_right fun _ => iff_of_false String.utf8EncodeChar_ne_nil not_false

end Text

/-! ### Extending a path -/

namespace Path

theorem segments_append (first second : Bytes) :
    segments ⟨first ++ separator :: second⟩ = segments ⟨first⟩ ++ segments ⟨second⟩ :=
  List.splitOn_append_cons_self _ _

theorem segments_ne_nil (path : Path) : path.segments ≠ [] := List.splitOn_ne_nil _ _

/-- A text without separators is one segment. -/
theorem segments_eq_singleton {part : Bytes} (plain : separator ∉ part) : segments ⟨part⟩ = [part] :=
  List.splitOn_eq_singleton plain

/-- A path keeps its start, whatever comes after a separator. -/
theorem start_append {first : Bytes} (nonempty : first ≠ []) (second : Bytes) :
    start ⟨first ++ separator :: second⟩ = start ⟨first⟩ := by
  rw [start, start, isAbsolute, isAbsolute, segments_append,
    List.head?_append_of_ne_nil _ nonempty, List.head?_append_of_ne_nil _ (segments_ne_nil _)]

theorem start_append_congr (first second other : Bytes) :
    start ⟨first ++ separator :: second⟩ = start ⟨first ++ separator :: other⟩ := by
  cases first with
  | nil => rfl
  | cons byte rest => rw [start_append (List.cons_ne_nil _ _), start_append (List.cons_ne_nil _ _)]

/-- What a part adds to a path. -/
def steps (part : Bytes) : List Component := (segments ⟨part⟩).filterMap component?

theorem steps_append (first second : Bytes) : steps (first ++ separator :: second) = steps first ++ steps second := by
  rw [steps, segments_append, List.filterMap_append]
  rfl

theorem components_eq (bytes : Bytes) : components ⟨bytes⟩ = start ⟨bytes⟩ ++ steps bytes := rfl

/-- A part that neither leads to the top nor begins with the directory itself comes after the path. -/
theorem components_push {part : Bytes} (lead : start ⟨part⟩ = []) (path : Path) :
    (path.push part).components = path.components ++ steps part := by
  have relative : isAbsolute ⟨part⟩ = false := by
    rw [start] at lead
    split at lead
    · cases lead
    · rename_i relative
      simpa using relative
  obtain ⟨bytes⟩ := path
  simp only [push, relative, Bool.false_eq_true, if_false]
  split
  case isTrue open' =>
    rcases open' with rfl | closed
    · simp [components_eq, lead, show components ⟨[]⟩ = [] from rfl]
    · -- The separator at the end is the one before the part.
      obtain ⟨first, rfl⟩ := List.getLast?_eq_some_iff.mp closed
      have last : first ++ [separator] ++ part = first ++ separator :: part := by simp
      rw [last, components_eq, components_eq, start_append_congr first part [], steps_append, steps_append]
      simp [show steps [] = [] from rfl]
  case isFalse apart =>
    rw [not_or] at apart
    rw [components_eq, components_eq, start_append apart.1, steps_append, List.append_assoc]

section Name

variable {part : Bytes} (plain : separator ∉ part)

include plain

theorem start_name (notDot : part ≠ dot) : start ⟨part⟩ = [] := by
  have relative : isAbsolute ⟨part⟩ = false := by
    rw [isAbsolute, beq_eq_false_iff_ne]
    exact fun first => plain (List.mem_of_head? first)
  simp [start, relative, segments_eq_singleton plain, notDot]

/-- A part without separators is one name, unless it has a meaning of its own. -/
theorem steps_name (nonempty : part ≠ []) (notDot : part ≠ dot) (notDots : part ≠ dots) :
    steps part = [.name part] := by
  simp [steps, segments_eq_singleton plain, component?, nonempty, notDot, notDots]

end Name

/-- A name among the components of a path has characters, and no separator among them. -/
theorem of_name_mem_components {path : Path} {name : Bytes} (member : Component.name name ∈ path.components) :
    name ≠ [] ∧ separator ∉ name := by
  rw [components, start] at member
  rcases List.mem_append.mp member with first | inside
  · split at first
    · simp at first
    · split at first <;> simp at first
  · obtain ⟨segment, among, given⟩ := List.mem_filterMap.mp inside
    rw [component?] at given
    split at given
    · cases given
    · split at given
      · cases given
      · rename_i meaningful _
        cases given
        rw [not_or] at meaningful
        exact ⟨meaningful.1, fun inside => (forall_of_mem_splitOn among _ inside).2 rfl⟩

end Path

/-! ### Parts of a package -/

theorem separator_mem_encode_iff {text : String} : Path.separator ∈ encode text ↔ '/' ∈ text.toList :=
  mem_encode_iff (c := '/') (by decide)

/-- A text leads to the top if it begins with a separator. -/
theorem isAbsolute_encode (text : String) : Path.isAbsolute ⟨encode text⟩ = (text.toList.head? == some '/') := by
  rw [Path.isAbsolute, Bool.eq_iff_iff, beq_iff_eq, beq_iff_eq, encode]
  cases text.toList with
  | nil => simp
  | cons c rest =>
    rw [List.flatMap_cons, List.head?_cons, Option.some.injEq,
      List.head?_append_of_ne_nil _ String.utf8EncodeChar_ne_nil]
    constructor
    · intro first
      have inside := List.mem_of_head? first
      exact ((mem_utf8EncodeChar_iff (c := '/') (by decide)).mp inside).symm
    · rintro rfl
      rfl

section Part

variable {part : String} (undotted : '.' ∉ part.toList)

include undotted

theorem dot_not_mem_encode : (0x2E : UInt8) ∉ encode part := by
  intro inside
  exact undotted ((mem_encode_iff (c := '.') (by decide)).mp inside)

/-- A part that does not lead to the top comes after the path. -/
theorem components_push_part (relative : part.toList.head? ≠ some '/') (path : Path) :
    (path.push (encode part)).components = path.components ++ Path.steps (encode part) := by
  have notHere : (Path.segments ⟨encode part⟩).head? ≠ some Path.dot := by
    intro first
    have inside := forall_of_mem_splitOn (List.mem_of_head? first) _ List.mem_cons_self
    exact dot_not_mem_encode undotted inside.1
  refine Path.components_push ?_ path
  rw [Path.start, isAbsolute_encode, if_neg (by simpa using relative), if_neg notHere]

/-- A part with characters and without separators is one name. -/
theorem steps_encode (nonempty : part ≠ "") (single : '/' ∉ part.toList) :
    Path.steps (encode part) = [.name (encode part)] := by
  have noDot := dot_not_mem_encode undotted
  refine Path.steps_name ?_ ?_ ?_ ?_
  · exact fun inside => single (separator_mem_encode_iff.mp inside)
  · exact fun same => nonempty (encode_eq_nil_iff.mp same)
  · exact fun same => noDot (by rw [same]; decide)
  · exact fun same => noDot (by rw [same]; decide)

end Part

/-- The file of a class is named after it. -/
theorem components_push_file {name : String} (identifier : isIdentifier name = true) (path : Path) :
    (path.push (encode (name ++ ".java"))).components = path.components ++ [.name (encode (name ++ ".java"))] := by
  have word : Java.IsWord .unicode name.toList := Java.isWord_of_isIdentifier identifier
  have single : '/' ∉ (name ++ ".java").toList := by
    rw [String.toList_append, List.mem_append, not_or]
    exact ⟨word.not_mem (by decide), by decide⟩
  have plain : Path.separator ∉ encode (name ++ ".java") := fun inside => single (separator_mem_encode_iff.mp inside)
  have long : 2 < (encode (name ++ ".java")).length := by
    have ending : (encode ".java").length = 5 := by decide
    rw [encode_append, List.length_append, ending]
    omega
  -- `.` and `..` are too short to be the name of a file.
  have other {bytes : Bytes} (short : bytes.length ≤ 2) : encode (name ++ ".java") ≠ bytes := by
    rintro rfl
    omega
  rw [Path.components_push (Path.start_name plain (other (by decide))),
    Path.steps_name plain (other (by decide)) (other (by decide)) (other (by decide))]

/-! ### Options -/

namespace Options

theorem eq_of_once {α : Type} {name : OptionName} {slot : Option α} {value : α} {update : Option α → Options}
    {after : Options} (given : (once name slot value >>= fun slot => pure (update slot)) = .ok after) :
    after = update (some value) := by
  rw [once] at given
  split at given
  · cases given
  · exact (Except.ok.inj given).symm

theorem isIdentifier_of_classOf {text name : String} (checked : classOf text = .ok name) :
    isIdentifier name = true := by
  rw [classOf] at checked
  split at checked
  case isTrue identifier =>
    cases checked
    exact identifier
  case isFalse => cases checked

/-- What giving an option changes. -/
theorem set_cases {options after : Options} {value : Bytes} {name : OptionName}
    (given : options.set value name = .ok after) :
    after = { options with outDir := some value } ∨
    (∃ text, after = { options with package := some (.ofText text) }) ∨
    (∃ text, isIdentifier text = true ∧ after = { options with className := some text }) ∨
    (∃ text, after = { options with runtimePackage := some (.ofText text) }) := by
  cases name with
  | outDir => exact .inl (eq_of_once given)
  | package =>
    obtain ⟨text, -, given⟩ := exists_of_bind_eq_ok given
    exact .inr (.inl ⟨text, eq_of_once given⟩)
  | className =>
    obtain ⟨text, -, given⟩ := exists_of_bind_eq_ok given
    obtain ⟨name, checked, given⟩ := exists_of_bind_eq_ok given
    exact .inr (.inr (.inl ⟨name, isIdentifier_of_classOf checked, eq_of_once given⟩))
  | runtimePackage =>
    obtain ⟨text, -, given⟩ := exists_of_bind_eq_ok given
    exact .inr (.inr (.inr ⟨text, eq_of_once given⟩))

/-- What holds of all options that were given: the name of a class is an identifier, and a package is that of a dotted
    name. -/
structure Sound (options : Options) : Prop where
  className : ∀ name ∈ options.className, isIdentifier name = true
  package : ∀ package ∈ options.package, ∃ text, package = .ofText text

theorem Sound.offer {options : Options} (sound : options.Sound) (option : String × Bytes) :
    (options.offer option).Sound := by
  rw [Options.offer]
  cases given : options.add option.1 option.2 with
  | error _ => exact sound
  | ok after =>
    rw [add] at given
    split at given
    · rcases set_cases given with rfl | ⟨text, rfl⟩ | ⟨text, identifier, rfl⟩ | ⟨text, rfl⟩
      · exact ⟨sound.className, sound.package⟩
      · exact ⟨sound.className, fun package given => ⟨text, (Option.mem_some.mp given).symm⟩⟩
      · exact ⟨by simpa [Except.toOption] using identifier, sound.package⟩
      · exact ⟨sound.className, sound.package⟩
    · cases given

theorem sound_offerAll (offered : List (String × Bytes)) : (offerAll offered).Sound :=
  List.foldlRecOn offered Options.offer ⟨by simp, by simp⟩ fun _ sound option _ => sound.offer option

/-- Complete options name a class by an identifier. -/
theorem Sound.settings {options : Options} (sound : options.Sound) {settings : Settings}
    (complete : options.settings = .ok settings) :
    isIdentifier settings.className = true ∧ settings.package = options.package := by
  rw [Options.settings] at complete
  split at complete
  · cases complete
  · cases complete
    refine ⟨?_, rfl⟩
    cases named : options.className with
    | none => exact (by decide +kernel : isIdentifier defaultClassName = true)
    | some name => exact sound.className name named

end Options

/-! ### Packages -/

namespace Package

theorem text_ofText (text : String) : (ofText text).text = text := by
  rw [ofText, Package.text]
  split
  case isTrue empty => rw [empty]; rfl
  case isFalse =>
    rw [← String.toList_inj, String.toList_intercalate, List.map_map]
    have parts : String.toList ∘ String.ofList = id := funext fun _ => String.toList_ofList
    rw [parts, List.map_id]
    exact List.intercalate_splitOn '.'

/-- A package has the parts of its name if none of them has a dot. Only the package whose one part is empty has no
    name of its own. -/
theorem ofText_text {parts : List String} (undotted : ∀ part ∈ parts, '.' ∉ part.toList) (named : parts ≠ [""]) :
    ofText (text ⟨parts⟩) = ⟨parts⟩ := by
  by_cases absent : parts = []
  · subst absent
    rfl
  have split : (text ⟨parts⟩).toList.splitOn '.' = parts.map String.toList := by
    rw [Package.text, String.toList_intercalate]
    refine List.splitOn_intercalate '.' ?_ (by simpa using absent)
    simpa using undotted
  have nonempty : text ⟨parts⟩ ≠ "" := by
    intro empty
    rw [empty, String.toList_empty, List.splitOn_nil, eq_comm, List.map_eq_singleton_iff] at split
    obtain ⟨part, rfl, blank⟩ := split
    exact named (by rw [String.toList_eq_nil_iff.mp blank])
  rw [ofText, if_neg nonempty, split, List.map_map]
  simp [Function.comp_def]

/-- Every text is the name of the package that it denotes. The parts of a package can be read off its name exactly if
    none of them has a dot and the package is not the one whose only part is empty, whose name is that of the package
    without parts. -/
theorem name_round_trips :
    (∀ name : String, (ofText name).text = name) ∧
    ∀ parts : List String, ofText (text ⟨parts⟩) = ⟨parts⟩ ↔
      (∀ part ∈ parts, '.' ∉ part.toList) ∧ parts ≠ [""] := by
  refine ⟨text_ofText, fun parts => ⟨?_, ?_⟩⟩
  · intro same
    constructor
    · intro part member
      have read : part ∈ (ofText (text ⟨parts⟩)).parts := by rwa [same]
      exact not_mem_of_mem_ofText read
    · rintro rfl
      exact absurd same (by decide)
  · rintro ⟨undotted, named⟩
    exact ofText_text undotted named

/-- The statement by which a file names its package. -/
def clause (package : Package) : String :=
  if package.parts = [] then "" else "package " ++ package.text ++ ";\n\n"

end Package

namespace Settings

/-- The package of a class is that of a dotted name. -/
theorem exists_packageFor {settings : Settings} (given : ∀ package ∈ settings.package, ∃ text, package = .ofText text)
    (registry : Registry) : ∃ text, settings.packageFor registry = .ofText text := by
  rw [packageFor]
  cases here : settings.package with
  | some package => exact given package here
  | none =>
    cases registry.name with
    | some name => exact ⟨toLower name, rfl⟩
    | none => exact ⟨"", rfl⟩

/-- A file begins with the statement of its package. -/
theorem exists_join_fragments (settings : Settings) (package : Package) (registry : Registry) :
    ∃ rest, String.join (settings.fragments package registry) = package.clause ++ "import " ++ rest := by
  have opening : String.join (if package.parts.isEmpty then [] else ["package ", package.text, ";\n\n"]) =
      package.clause := by
    rw [Package.clause]
    cases package.parts with
    | nil => rfl
    | cons _ _ => simp [String.join_cons, String.append_assoc]
  simp only [fragments, heading, String.join_append, opening, String.join_cons, String.append_assoc]
  exact ⟨_, rfl⟩

end Settings

/-! ### Directories -/

/-- Parts that do not lead to the top come one after the other. -/
theorem components_foldl_push {parts : List String} (undotted : ∀ part ∈ parts, '.' ∉ part.toList)
    (relative : ∀ part ∈ parts, part.toList.head? ≠ some '/') (path : Path) :
    (parts.foldl (fun (path : Path) part => path.push (encode part)) path).components =
      path.components ++ parts.flatMap fun part => Path.steps (encode part) := by
  induction parts generalizing path with
  | nil => simp
  | cons part rest ih =>
    rw [List.forall_mem_cons] at undotted relative
    rw [List.foldl_cons, ih undotted.2 relative.2, components_push_part undotted.1 relative.1, List.flatMap_cons,
      List.append_assoc]

/-- After a part that leads to the top, nothing is left of the path before. -/
theorem foldl_push_absolute {parts : List String} {part : String} (member : part ∈ parts)
    (absolute : part.toList.head? = some '/') (path other : Path) :
    parts.foldl (fun (path : Path) part => path.push (encode part)) path =
      parts.foldl (fun (path : Path) part => path.push (encode part)) other := by
  obtain ⟨before, after, rfl⟩ := List.append_of_mem member
  have replaced (path : Path) : path.push (encode part) = ⟨encode part⟩ := by
    rw [Path.push, isAbsolute_encode, if_pos (by simp [absolute])]
  simp only [List.foldl_append, List.foldl_cons, replaced]

section Placed

variable {settings : Settings} {package : Package}

/-- The components of a path on which every part of a package has its own directory. -/
def Settings.mirrored (settings : Settings) (package : Package) : List Component :=
  Path.components ⟨settings.outDir⟩ ++
    (package.parts ++ [settings.className ++ ".java"]).map fun part => .name (encode part)

variable (identifier : isIdentifier settings.className = true) (undotted : ∀ part ∈ package.parts, '.' ∉ part.toList)

include identifier undotted

/-- A file lies in the output directory if no part of its package leads away from there. -/
theorem components_pathIn (relative : ∀ part ∈ package.parts, part.toList.head? ≠ some '/') :
    (settings.pathIn package).components = Path.components ⟨settings.outDir⟩ ++
      (package.parts.flatMap fun part => Path.steps (encode part)) ++
        [.name (encode (settings.className ++ ".java"))] := by
  rw [Settings.pathIn, components_push_file identifier, Settings.directoryIn, components_foldl_push undotted relative]

theorem components_pathIn_eq_mirrored_iff : (settings.pathIn package).components = settings.mirrored package ↔
    ∀ part ∈ package.parts, part ≠ "" ∧ '/' ∉ part.toList := by
  constructor
  · intro placed part member
    have named : Component.name (encode part) ∈ (settings.pathIn package).components := by
      rw [placed, Settings.mirrored]
      simp only [List.map_append, List.mem_append, List.mem_map]
      exact .inr (.inl ⟨part, member, rfl⟩)
    obtain ⟨nonempty, plain⟩ := Path.of_name_mem_components named
    refine ⟨fun empty => nonempty (encode_eq_nil_iff.mpr empty), fun inside => plain ?_⟩
    exact separator_mem_encode_iff.mpr inside
  · intro names
    have relative : ∀ part ∈ package.parts, part.toList.head? ≠ some '/' :=
      fun part member first => (names part member).2 (List.mem_of_head? first)
    have single : (package.parts.flatMap fun part => Path.steps (encode part)) =
        package.parts.map fun part => .name (encode part) := by
      rw [List.map_eq_flatMap]
      refine List.flatMap_congr fun part member => ?_
      exact steps_encode (undotted part member) (names part member).1 (names part member).2
    rw [components_pathIn identifier undotted relative, single, Settings.mirrored, List.map_append, List.append_assoc]
    rfl

end Placed

/-- Options that were offered in any order, with any that were refused, are complete. The file of a module is the one
    file that is created. It begins with the statement of the package, whose name has exactly the parts of the package.
    Its path is the output directory, the parts of the package and the class, part by part, exactly if every part has
    characters and no separator among them. It lies in the output directory as long as no part begins with a separator;
    if one does, the output directory has no influence on where the file lies. -/
theorem generated_file_placed {offered : List (String × Bytes)} {settings : Settings}
    (complete : (Options.offerAll offered).settings = .ok settings) (registry : Registry) :
    let package := settings.packageFor registry
    let path := settings.pathIn package
    let text := String.join (settings.fragments package registry)
    (∀ {σ : Type} [FileStore σ] (store : σ),
      (generate store settings registry).store = (FileStore.create store path (encode text)).store ∧
      (generate store settings registry).result = (FileStore.create store path (encode text)).result) ∧
    (∀ memory : MemoryFiles, (generate memory settings registry).result = .ok () ∧
      ∀ other : Path, (generate memory settings registry).store.get? other =
        if other.components = path.components then some (encode text) else memory.get? other) ∧
    (∃ rest, text = package.clause ++ "import " ++ rest) ∧ Package.ofText package.text = package ∧
    (path.components = settings.mirrored package ↔ ∀ part ∈ package.parts, part ≠ "" ∧ '/' ∉ part.toList) ∧
    ((∀ part ∈ package.parts, part.toList.head? ≠ some '/') →
      Path.components ⟨settings.outDir⟩ <+: path.components) ∧
    ((∃ part ∈ package.parts, part.toList.head? = some '/') →
      ∀ outDir : Bytes, Settings.pathIn { settings with outDir } package = path) := by
  intro package path text
  have sound := Options.sound_offerAll offered
  obtain ⟨identifier, given⟩ := sound.settings complete
  obtain ⟨name, named⟩ : ∃ name, package = .ofText name :=
    Settings.exists_packageFor (by rw [given]; exact sound.package) registry
  have undotted : ∀ part ∈ package.parts, '.' ∉ part.toList := by
    rw [named]
    exact fun part => Package.not_mem_of_mem_ofText
  refine ⟨fun _ => ⟨rfl, rfl⟩, ?created, ?stated, ?named, ?mirrored, ?inside, ?astray⟩
  case created =>
    refine fun memory => ⟨rfl, fun other => ?_⟩
    split
    case isTrue same => exact memory.get?_put_of_eq _ same
    case isFalse different => exact memory.get?_put_of_ne _ different
  case stated => exact Settings.exists_join_fragments settings package registry
  case named => rw [named, Package.text_ofText]
  case mirrored => exact components_pathIn_eq_mirrored_iff identifier undotted
  case inside =>
    intro relative
    rw [components_pathIn identifier undotted relative, List.append_assoc]
    exact List.prefix_append _ _
  case astray =>
    rintro ⟨part, member, absolute⟩ outDir
    exact congrArg (Path.push · _) (foldl_push_absolute member absolute _ _)

/-- Options of which two cannot be given: a name that is no class name, and a second package. The file of the package
    that was given first lies below an output directory whose path ends in a separator. -/
theorem generated_file_mirrors_package :
    let settings : Settings :=
      { outDir := encode "out/", package := some ⟨["a", "b"]⟩, className := "T", runtimePackage := ⟨["r"]⟩ }
    (Options.offerAll [("package", encode "a.b"), ("class", encode "1"), ("out_dir", encode "out/"),
      ("class", encode "T"), ("package", encode "c"), ("runtime_package", encode "r")]).settings = .ok settings ∧
    (settings.pathIn (settings.packageFor {})).components = settings.mirrored ⟨["a", "b"]⟩ := by
  intro settings
  have complete : (Options.offerAll [("package", encode "a.b"), ("class", encode "1"), ("out_dir", encode "out/"),
      ("class", encode "T"), ("package", encode "c"), ("runtime_package", encode "r")]).settings = .ok settings := by
    decide +kernel
  refine ⟨complete, ?_⟩
  obtain ⟨-, -, -, -, mirrored, -, -⟩ := generated_file_placed complete {}
  exact mirrored.mpr (by decide)

/-- A part without characters is lost on the path, and a part that begins with a separator leads away from the output
    directory. -/
theorem generated_file_astray :
    (∃ settings, (Options.offerAll [("out_dir", encode "out"), ("package", encode "a..b")]).settings = .ok settings ∧
      (settings.pathIn (settings.packageFor {})).components ≠ settings.mirrored (settings.packageFor {})) ∧
    ∃ settings, (Options.offerAll [("out_dir", encode "out"), ("package", encode "/etc")]).settings = .ok settings ∧
      ¬ Path.components ⟨settings.outDir⟩ <+: (settings.pathIn (settings.packageFor {})).components := by
  constructor
  · refine ⟨⟨encode "out", some ⟨["a", "", "b"]⟩, "Templates", ⟨["ttcn3", "runtime"]⟩⟩, ?_, ?_⟩
    all_goals decide +kernel
  · refine ⟨⟨encode "out", some ⟨["/etc"]⟩, "Templates", ⟨["ttcn3", "runtime"]⟩⟩, ?_, ?_⟩
    all_goals decide +kernel

end TtcnTemplates
