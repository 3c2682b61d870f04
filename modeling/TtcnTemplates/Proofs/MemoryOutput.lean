import Mathlib.Data.List.Induction
import TtcnTemplates.Proofs.Placement
import TtcnTemplates.Proofs.Validity

/-! # What is left in memory

Files in memory are told apart by the components of their paths. Paths with the same components are exactly those that
can be respelled into one another, by separators and components `.` that have no meaning (`Path.components_eq_iff`). A
job puts at most one file; it takes the place of the file that has the components of its path, and nothing of that file
is left, in whatever pieces the new one is written (`MemoryFiles.written_eq`).
-/

namespace TtcnTemplates

open Text

/-! ### Spellings of a path -/

namespace Path

/-- Paths that differ in spelling only. A separator may be repeated and may stand at the end, and a component `.` has no
    meaning after a separator. -/
inductive Respelled : Bytes → Bytes → Prop
  | refl (bytes : Bytes) : Respelled bytes bytes
  | symm {first second : Bytes} : Respelled first second → Respelled second first
  | trans {first second third : Bytes} : Respelled first second → Respelled second third → Respelled first third
  | repeated (first second : Bytes) :
      Respelled (first ++ separator :: separator :: second) (first ++ separator :: second)
  | inner (first second : Bytes) :
      Respelled (first ++ separator :: (dot ++ separator :: second)) (first ++ separator :: second)
  | last (first : Bytes) : Respelled (first ++ separator :: dot) (first ++ [separator])
  | trailing {first : Bytes} (nonempty : first ≠ []) : Respelled (first ++ [separator]) first

theorem steps_nil : steps [] = [] := rfl

theorem steps_dot : steps dot = [] := rfl

theorem steps_separator (bytes : Bytes) : steps (separator :: bytes) = steps bytes := steps_append [] bytes

/-- A path keeps its components when it is respelled. -/
theorem Respelled.components_eq {first second : Bytes} (respelled : Respelled first second) :
    components ⟨first⟩ = components ⟨second⟩ := by
  induction respelled with
  | refl => rfl
  | symm _ ih => exact ih.symm
  | trans _ _ ih ih' => exact ih.trans ih'
  | repeated first second =>
    simp only [Path.components_eq, steps_append, steps_separator, start_append_congr first (separator :: second) second]
  | inner first second =>
    simp only [Path.components_eq, steps_append, steps_dot, List.nil_append,
      start_append_congr first (dot ++ separator :: second) second]
  | last first =>
    simp only [Path.components_eq, steps_append, steps_dot, steps_nil, start_append_congr first dot []]
  | trailing nonempty =>
    simp only [Path.components_eq, steps_append, steps_nil, List.append_nil, start_append nonempty]

theorem Respelled.eq_nil_iff {first second : Bytes} (respelled : Respelled first second) :
    first = [] ↔ second = [] := by
  induction respelled with
  | refl => rfl
  | symm _ ih => exact ih.symm
  | trans _ _ ih ih' => exact ih.trans ih'
  | trailing nonempty => simp [nonempty]
  | _ => simp

/-- What is respelled may go on in the same way. -/
theorem Respelled.extend {first second : Bytes} (respelled : Respelled first second) (part : Bytes) :
    Respelled (first ++ separator :: part) (second ++ separator :: part) := by
  induction respelled with
  | refl => exact .refl _
  | symm _ ih => exact ih.symm
  | trans _ _ ih ih' => exact ih.trans ih'
  | repeated first second => simpa using Respelled.repeated first (second ++ separator :: part)
  | inner first second => simpa using Respelled.inner first (second ++ separator :: part)
  | last first => simpa using (Respelled.inner first part).trans (Respelled.repeated first part).symm
  | @trailing first nonempty => simpa using Respelled.repeated first part

theorem isAbsolute_of_not_mem {part : Bytes} (plain : separator ∉ part) : isAbsolute ⟨part⟩ = false := by
  rw [isAbsolute, beq_eq_false_iff_ne]
  exact fun first => plain (List.mem_of_head? first)

/-- A part that is pushed comes after a separator, unless the path is empty. -/
theorem respelled_push {path : Path} (nonempty : path.bytes ≠ []) {part : Bytes} (plain : separator ∉ part) :
    Respelled (path.bytes ++ separator :: part) (path.push part).bytes := by
  simp only [push, isAbsolute_of_not_mem plain, Bool.false_eq_true, if_false, nonempty, false_or]
  split
  case isTrue closed =>
    obtain ⟨bytes, same⟩ := List.getLast?_eq_some_iff.mp closed
    rw [same]
    simpa using Respelled.repeated bytes part
  case isFalse => exact .refl _

/-- The bytes of one component. -/
def bytesOf : Component → Bytes
  | .root => [separator]
  | .here => dot
  | .up => dots
  | .name bytes => bytes

/-- The path that is put together from components. -/
def ofComponents (components : List Component) : Path :=
  components.foldl (fun (path : Path) component => path.push (bytesOf component)) ⟨[]⟩

theorem ofComponents_concat (components : List Component) (component : Component) :
    ofComponents (components ++ [component]) = (ofComponents components).push (bytesOf component) :=
  List.foldl_append

/-- A part without separators is one component or none. -/
theorem steps_cases {part : Bytes} (plain : separator ∉ part) :
    part = [] ∨ part = dot ∨ ∃ component, steps part = [component] ∧ bytesOf component = part := by
  by_cases empty : part = []
  · exact .inl empty
  by_cases isDot : part = dot
  · exact .inr (.inl isDot)
  by_cases isDots : part = dots
  · subst isDots
    exact .inr (.inr ⟨.up, rfl, rfl⟩)
  · exact .inr (.inr ⟨.name part, steps_name plain empty isDot isDots, rfl⟩)

/-- A path is read from its end, part by part. -/
theorem bytes_induction {motive : Bytes → Prop} (single : ∀ part, separator ∉ part → motive part)
    (extend : ∀ first part, separator ∉ part → motive first → motive (first ++ separator :: part)) (bytes : Bytes) :
    motive bytes := by
  have whole : ∀ tail, separator ∉ tail → motive (bytes ++ tail) := by
    induction bytes using List.reverseRecOn with
    | nil => exact single
    | append_singleton bytes byte ih =>
      intro tail plain
      rw [List.append_assoc]
      by_cases isSeparator : byte = separator
      · subst isSeparator
        exact extend bytes tail plain (by simpa using ih [] List.not_mem_nil)
      · exact ih (byte :: tail) (by simp [Ne.symm isSeparator, plain])
  simpa using whole [] List.not_mem_nil

theorem components_append (first part : Bytes) :
    components ⟨first ++ separator :: part⟩ = components ⟨first ++ [separator]⟩ ++ steps part := by
  simp only [components_eq, steps_append, steps_nil, List.append_nil, List.append_assoc,
    start_append_congr first part []]

/-- A path is a spelling of the one that is put together from its components. -/
theorem respelled_ofComponents (bytes : Bytes) : Respelled bytes (ofComponents (components ⟨bytes⟩)).bytes := by
  induction bytes using bytes_induction with
  | single part plain =>
    rcases steps_cases plain with rfl | rfl | ⟨component, step, same⟩
    · exact .refl _
    · exact .refl _
    · have notDot : part ≠ dot := by
        rintro rfl
        cases step
      rw [components_eq, start_name plain notDot, step, List.nil_append, ofComponents]
      simp only [List.foldl_cons, List.foldl_nil, same, push, isAbsolute_of_not_mem plain]
      exact .refl _
  | extend first part plain ih =>
    -- Up to the separator, the path is as it was, or it is the top of all directories.
    have opened : Respelled (first ++ [separator]) (ofComponents (components ⟨first ++ [separator]⟩)).bytes := by
      by_cases empty : first = []
      · subst empty
        exact .refl _
      · rw [(Respelled.trailing empty).components_eq]
        exact (Respelled.trailing empty).trans ih
    rw [components_append]
    rcases steps_cases plain with rfl | rfl | ⟨component, step, same⟩
    · simpa [steps_nil] using opened
    · simpa [steps_dot] using (Respelled.last first).trans opened
    · rw [step, ofComponents_concat, same]
      have nonempty : (ofComponents (components ⟨first ++ [separator]⟩)).bytes ≠ [] := by
        rw [ne_eq, ← opened.eq_nil_iff]
        simp
      have twice : Respelled (first ++ separator :: part) (first ++ [separator] ++ separator :: part) := by
        simpa using (Respelled.repeated first part).symm
      exact (twice.trans (opened.extend part)).trans (respelled_push nonempty plain)

/-- Two paths have the same components exactly if they differ in spelling only. -/
theorem components_eq_iff {path other : Path} :
    path.components = other.components ↔ Respelled path.bytes other.bytes := by
  constructor
  · intro same
    have left := respelled_ofComponents path.bytes
    rw [show components ⟨path.bytes⟩ = components ⟨other.bytes⟩ from same] at left
    exact left.trans (respelled_ofComponents other.bytes).symm
  · exact Respelled.components_eq

theorem component?_eq_up_iff {segment : Bytes} : component? segment = some .up ↔ segment = dots := by
  rw [component?]
  split_ifs with skipped isUp
  · refine iff_of_false (by simp) ?_
    rintro rfl
    exact absurd skipped (by decide)
  · simp [isUp]
  · simp [isUp]

/-- A component `..` is never left out. -/
theorem count_up (path : Path) : path.components.count .up = path.segments.count dots := by
  have noStart : path.start.count .up = 0 := by
    rw [start]
    split_ifs <;> rfl
  rw [components, List.count_append, noStart, Nat.zero_add, List.count_eq_countP, List.countP_filterMap,
    List.count_eq_countP]
  refine List.countP_congr fun segment _ => ?_
  rw [beq_iff_eq, ← component?_eq_up_iff]
  cases component? segment <;> simp

/-- A component `.` has a meaning exactly at the beginning of a path. -/
theorem here_mem_iff (path : Path) : .here ∈ path.components ↔ path.segments.head? = some dot := by
  have later : .here ∉ path.segments.filterMap component? := by
    rw [List.mem_filterMap]
    rintro ⟨segment, -, same⟩
    rw [component?] at same
    split_ifs at same
    all_goals cases same
  have relative (first : path.segments.head? = some dot) : path.isAbsolute = false := by
    obtain ⟨bytes⟩ := path
    cases bytes with
    | nil => rfl
    | cons byte rest =>
      rw [isAbsolute, beq_eq_false_iff_ne]
      rintro ⟨⟩
      rw [show segments ⟨separator :: rest⟩ = [] :: segments ⟨rest⟩ from segments_append [] rest] at first
      cases first
  rw [components, List.mem_append, or_iff_left later, start]
  constructor
  · intro member
    split_ifs at member with absolute first
    · simp at member
    · exact first
    · cases member
  · intro first
    simp [relative first, first]

end Path

/-! ### Files that are written in place -/

namespace MemoryFiles

/-- The components by which the files are told apart. -/
def keys (memory : MemoryFiles) : List (List Component) := memory.files.map fun file => file.1.components

/-- The files in which there is one with the components of a path, with nothing in it unless it was there before. -/
def reserveIn (path : Path) : List (Path × Bytes) → List (Path × Bytes)
  | [] => [(path, [])]
  | file :: rest => if file.1.components = path.components then file :: rest else file :: reserveIn path rest

/-- The files in which the content of the one with the components of a path is changed. -/
def changeIn (path : Path) (change : Bytes → Bytes) : List (Path × Bytes) → List (Path × Bytes)
  | [] => []
  | file :: rest =>
    if file.1.components = path.components then (file.1, change file.2) :: rest else file :: changeIn path change rest

/-- Opens the file at a path: it is there, and what it held is cleared. -/
def opened (memory : MemoryFiles) (path : Path) : MemoryFiles :=
  ⟨changeIn path (fun _ => []) (reserveIn path memory.files)⟩

/-- Writes a piece at the end of the file at a path. -/
def append (path : Path) (memory : MemoryFiles) (piece : Bytes) : MemoryFiles :=
  ⟨changeIn path (· ++ piece) memory.files⟩

theorem changeIn_reserveIn (path : Path) (files : List (Path × Bytes)) :
    changeIn path (fun _ => []) (reserveIn path files) = putIn path [] files := by
  induction files with
  | nil => simp [reserveIn, changeIn, putIn]
  | cons file rest ih =>
    by_cases same : file.1.components = path.components
    · simp [reserveIn, changeIn, putIn, same]
    · simp [reserveIn, changeIn, putIn, same, ih]

theorem changeIn_putIn (path : Path) (change : Bytes → Bytes) (content : Bytes) (files : List (Path × Bytes)) :
    changeIn path change (putIn path content files) = putIn path (change content) files := by
  induction files with
  | nil => simp [changeIn, putIn]
  | cons file rest ih =>
    by_cases same : file.1.components = path.components
    · simp [changeIn, putIn, same]
    · simp [changeIn, putIn, same, ih]

theorem foldl_append_put (memory : MemoryFiles) (path : Path) (pieces : List Bytes) (content : Bytes) :
    pieces.foldl (append path) (memory.put path content) = memory.put path (content ++ pieces.flatten) := by
  induction pieces generalizing content with
  | nil => simp
  | cons piece rest ih =>
    rw [List.foldl_cons, append, put, changeIn_putIn, ← put, ih]
    simp

/-- In whatever pieces a file is written, it holds them and nothing else, whether it was there before or not. -/
theorem written_eq (memory : MemoryFiles) (path : Path) (pieces : List Bytes) :
    pieces.foldl (append path) (memory.opened path) = memory.put path pieces.flatten := by
  have cleared : memory.opened path = memory.put path [] := by rw [opened, put, changeIn_reserveIn]
  rw [cleared, foldl_append_put, List.nil_append]

/-! ### One file for each path -/

theorem keys_put (memory : MemoryFiles) (path : Path) (content : Bytes) : (memory.put path content).keys =
    if path.components ∈ memory.keys then memory.keys else memory.keys ++ [path.components] := by
  obtain ⟨files⟩ := memory
  induction files with
  | nil => simp [put, putIn, keys]
  | cons file rest ih =>
    have first (files : List (Path × Bytes)) : keys ⟨file :: files⟩ = file.1.components :: keys ⟨files⟩ := rfl
    rw [put] at ih ⊢
    by_cases same : file.1.components = path.components
    · rw [putIn, if_pos same, if_pos (by simp [first, same])]
      rfl
    · rw [putIn, if_neg same, first, ih, first]
      by_cases known : path.components ∈ keys ⟨rest⟩
      · simp [known]
      · simp [known, Ne.symm same]

theorem mem_keys_put {memory : MemoryFiles} {path : Path} {content : Bytes} {components : List Component} :
    components ∈ (memory.put path content).keys ↔ components ∈ memory.keys ∨ path.components = components := by
  rw [keys_put]
  split
  case isTrue known =>
    refine ⟨.inl, ?_⟩
    rintro (member | rfl)
    · exact member
    · exact known
  case isFalse => rw [List.mem_append, List.mem_singleton, eq_comm]

/-- Putting a file leaves all others as they are, and in their order. -/
theorem filter_put (memory : MemoryFiles) (path : Path) (content : Bytes) :
    ((memory.put path content).files.filter fun file => file.1.components != path.components) =
      memory.files.filter fun file => file.1.components != path.components := by
  obtain ⟨files⟩ := memory
  simp only [put]
  induction files with
  | nil => simp [putIn]
  | cons file rest ih =>
    by_cases same : file.1.components = path.components
    · simp [putIn, same]
    · simp [putIn, same, ih]

/-- With one file for each path, a file is found by its own path. -/
theorem get?_of_mem {memory : MemoryFiles} (nodup : memory.keys.Nodup) {file : Path × Bytes}
    (member : file ∈ memory.files) : memory.get? file.1 = some file.2 := by
  obtain ⟨files⟩ := memory
  simp only [keys, get?] at nodup ⊢
  induction files with
  | nil => cases member
  | cons first rest ih =>
    rw [List.map_cons, List.nodup_cons] at nodup
    rcases List.mem_cons.mp member with rfl | later
    · simp
    · have other : first.1.components ≠ file.1.components := by
        intro same
        rw [same] at nodup
        exact nodup.1 (List.mem_map_of_mem later)
      simpa [other] using ih nodup.2 later

end MemoryFiles

/-! ### Jobs one after the other -/

namespace Job

/-- The file that a job creates in memory, with its whole content. A job with wrong options creates none. -/
def creates? : Job → Option (Path × Bytes)
  | .generate options registry =>
    match Settings.ofOptions options with
    | .ok settings =>
      let package := settings.packageFor registry
      some (settings.pathIn package, encode (String.join (settings.fragments package registry)))
    | .error _ => none
  | .create path data => some (path, data)

theorem run_of_none {job : Job} (none : job.creates? = none) (memory : MemoryFiles) :
    (job.run memory).store = memory := by
  cases job with
  | create path data => cases none
  | generate options registry =>
    rw [run]
    rw [creates?] at none
    cases built : Settings.ofOptions options with
    | ok settings => simp [built] at none
    | error error => rfl

theorem run_of_some {job : Job} {path : Path} {data : Bytes} (created : job.creates? = some (path, data))
    (memory : MemoryFiles) : (job.run memory).store = memory.put path data ∧ (job.run memory).result = .ok () := by
  cases job with
  | create path' data' =>
    cases created
    exact ⟨rfl, rfl⟩
  | generate options registry =>
    rw [run]
    rw [creates?] at created
    cases built : Settings.ofOptions options with
    | ok settings =>
      simp only [built, Option.some.injEq, Prod.mk.injEq] at created
      obtain ⟨rfl, rfl⟩ := created
      exact ⟨rfl, rfl⟩
    | error error => simp [built] at created

/-- What is in memory after jobs one after the other. -/
def runAll (jobs : List Job) : MemoryFiles := jobs.foldl (fun (memory : MemoryFiles) job => (job.run memory).store) {}

theorem runAll_concat (jobs : List Job) (job : Job) : runAll (jobs ++ [job]) = (job.run (runAll jobs)).store :=
  List.foldl_append

/-- The last job that creates a file with the components of a path gives it the content. -/
def LastWrites (jobs : List Job) (path : Path) (content : Bytes) : Prop :=
  ∃ before job after created, jobs = before ++ job :: after ∧ job.creates? = some (created, content) ∧
    created.components = path.components ∧
    ∀ later ∈ after, ∀ file, later.creates? = some file → file.1.components ≠ path.components

theorem lastWrites_concat {jobs : List Job} {job : Job} {path : Path} {content : Bytes} :
    LastWrites (jobs ++ [job]) path content ↔
      (∃ created, job.creates? = some (created, content) ∧ created.components = path.components) ∨
      (∀ file, job.creates? = some file → file.1.components ≠ path.components) ∧ LastWrites jobs path content := by
  constructor
  · rintro ⟨before, writer, after, created, split, creates, same, last⟩
    rcases concat_eq_split split with ⟨rfl, rfl⟩ | ⟨middle, rfl⟩
    · exact .inl ⟨created, creates, same⟩
    · obtain rfl : after = middle ++ [job] := by simpa using split.symm
      rw [List.forall_mem_append, List.forall_mem_singleton] at last
      exact .inr ⟨last.2, before, writer, middle, created, rfl, creates, same, last.1⟩
  · rintro (⟨created, creates, same⟩ | ⟨other, before, writer, after, created, rfl, creates, same, last⟩)
    · exact ⟨jobs, job, [], created, rfl, creates, same, by simp⟩
    · refine ⟨before, writer, after ++ [job], created, by simp, creates, same, ?_⟩
      rw [List.forall_mem_append, List.forall_mem_singleton]
      exact ⟨last, other⟩

/-- A file is what the last job made it. -/
theorem get?_runAll {jobs : List Job} {path : Path} {content : Bytes} :
    (runAll jobs).get? path = some content ↔ LastWrites jobs path content := by
  induction jobs using List.reverseRecOn with
  | nil =>
    refine iff_of_false (by simp [runAll, MemoryFiles.get?]) ?_
    rintro ⟨before, job, after, created, split, -⟩
    simp at split
  | append_singleton jobs job ih =>
    rw [runAll_concat, lastWrites_concat, ← ih]
    cases creates : job.creates? with
    | none => simp [run_of_none creates]
    | some file =>
      rw [(run_of_some creates _).1]
      by_cases same : file.1.components = path.components
      · rw [MemoryFiles.get?_put_of_eq _ _ same.symm]
        constructor
        · rintro ⟨⟩
          exact .inl ⟨file.1, rfl, same⟩
        · rintro (⟨created, ⟨⟩, -⟩ | ⟨other, -⟩)
          · rfl
          · exact absurd same (other file rfl)
      · rw [MemoryFiles.get?_put_of_ne _ _ (Ne.symm same)]
        constructor
        · refine fun held => .inr ⟨?_, held⟩
          rintro _ ⟨⟩
          exact same
        · rintro (⟨created, ⟨⟩, here⟩ | ⟨-, held⟩)
          · exact absurd here same
          · exact held

theorem nodup_keys (jobs : List Job) : (runAll jobs).keys.Nodup := by
  induction jobs using List.reverseRecOn with
  | nil => exact List.nodup_nil
  | append_singleton jobs job ih =>
    rw [runAll_concat]
    cases creates : job.creates? with
    | none => rwa [run_of_none creates]
    | some file =>
      rw [(run_of_some creates _).1, MemoryFiles.keys_put]
      split
      · exact ih
      · rename_i fresh
        exact List.concat_eq_append ▸ ih.concat fresh

theorem mem_keys_runAll {jobs : List Job} {components : List Component} : components ∈ (runAll jobs).keys ↔
    ∃ job ∈ jobs, ∃ path data, job.creates? = some (path, data) ∧ path.components = components := by
  induction jobs using List.reverseRecOn with
  | nil => simp [runAll, MemoryFiles.keys]
  | append_singleton jobs job ih =>
    rw [runAll_concat]
    simp only [List.mem_append, List.mem_singleton, or_and_right, exists_or, exists_eq_left, ← ih]
    cases creates : job.creates? with
    | none => simp [run_of_none creates]
    | some file =>
      obtain ⟨path, data⟩ := file
      rw [(run_of_some creates _).1, MemoryFiles.mem_keys_put]
      simp

/-- After any jobs there is one file in memory for the components of each path that was created, and no other. It holds
    what the last job for these components gave it. A job leaves all other files as they are, and the file that it
    creates holds its pieces and nothing of what was there before; a job with wrong options leaves all files. Two paths
    are for the same file exactly if they differ in spelling only: every `..` counts as a component, and so does a `.`
    at the beginning. -/
theorem memory_keeps_last_writes (jobs : List Job) :
    (runAll jobs).keys.Nodup ∧
    (∀ components, components ∈ (runAll jobs).keys ↔
      ∃ job ∈ jobs, ∃ path data, job.creates? = some (path, data) ∧ path.components = components) ∧
    (∀ file ∈ (runAll jobs).files, LastWrites jobs file.1 file.2) ∧
    (∀ path content, (runAll jobs).get? path = some content ↔ LastWrites jobs path content) ∧
    (∀ (memory : MemoryFiles) (job : Job) (path : Path) (pieces : List Bytes),
      job.creates? = some (path, pieces.flatten) →
      (job.run memory).result = .ok () ∧
      (job.run memory).store = pieces.foldl (MemoryFiles.append path) (memory.opened path) ∧
      ((job.run memory).store.files.filter fun file => file.1.components != path.components) =
        memory.files.filter fun file => file.1.components != path.components) ∧
    (∀ (memory : MemoryFiles) (options : List (String × Bytes)) (registry : Registry) (error : OptionError),
      Settings.ofOptions options = .error error →
      (run memory (.generate options registry)).result = .error (.options error) ∧
      (run memory (.generate options registry)).store = memory) ∧
    (∀ path other : Path, path.components = other.components ↔ Path.Respelled path.bytes other.bytes) ∧
    ∀ path : Path, path.components.count .up = path.segments.count Path.dots ∧
      (.here ∈ path.components ↔ path.segments.head? = some Path.dot) := by
  refine ⟨nodup_keys jobs, fun _ => mem_keys_runAll, ?_, fun _ _ => get?_runAll, ?_, ?_,
    fun _ _ => Path.components_eq_iff, fun path => ⟨path.count_up, path.here_mem_iff⟩⟩
  · intro file member
    exact get?_runAll.mp (MemoryFiles.get?_of_mem (nodup_keys jobs) member)
  · intro memory job path pieces creates
    obtain ⟨stored, done⟩ := run_of_some creates memory
    rw [stored, MemoryFiles.written_eq, MemoryFiles.filter_put]
    exact ⟨done, rfl, rfl⟩
  · intro memory options registry error wrong
    rw [run, wrong]
    exact ⟨rfl, rfl⟩

example : runAll [.create ⟨encode "a//b"⟩ [1, 2, 3], .create ⟨encode "a/./b/"⟩ [4], .create ⟨encode "./a/b"⟩ []] =
    ⟨[(⟨encode "a//b"⟩, [4]), (⟨encode "./a/b"⟩, [])]⟩ := by decide

end Job

end TtcnTemplates
