import Ssuge.FileNames
import Ssuge.OrderedMap
import Ssuge.Sounds

/-! How the sound manager gets its sounds. `findFilesWithExtension` walks through the files of
all resource groups, and `loadAllFilesFromMemory` reads the files that it found and gives their
data to irrKlang, under the base name in lower case. irrKlang's own code is the parameter
`irrklang`, with what is documented of it: it makes no second source of a name that it has, and a
source stays until it is removed. -/

namespace Ssuge.SoundLibrary

open CString FileNames GuardedRun

instance : DecidableEq StdString := fun s t =>
  decidable_of_iff (s.data = t.data) StdString.ext_iff.symm

/-- A file that a resource group lists. Its path, with a separator, is no longer than strings
can be. -/
structure FileInfo where
  /-- `archive->getName()` -/
  archive : List UInt8
  basename : List UInt8
  bounded : archive.length + 1 + basename.length < 2 ^ 31

def FileInfo.name (info : FileInfo) : StdString :=
  ⟨info.basename, by have := info.bounded; omega⟩

/-- `full_path`. The last character of an empty path is undefined. -/
def FileInfo.fullPath (info : FileInfo) : Option StdString :=
  info.archive.getLast?.map fun last =>
    if last ≠ slash ∧ last ≠ backslash then
      ⟨info.archive ++ slash :: info.basename, by
        have := info.bounded
        rw [List.length_append, List.length_cons]
        omega⟩
    else ⟨info.archive ++ info.basename, by
        have := info.bounded
        rw [List.length_append]
        omega⟩

def findInGroup (extension : StdString) :
    List FileInfo → (v : List StdString) → Option (List StdString)
  | [], v => some v
  | info :: lv, v => do
      let ext ← getExtension info.name
      if ext = extension then do
        let full_path ← info.fullPath
        findInGroup extension lv (v ++ [full_path])
      else findInGroup extension lv v

def findInGroups (extension : StdString) :
    List (List FileInfo) → (v : List StdString) → Option (List StdString)
  | [], v => some v
  | lv :: sv, v => do
      let v ← findInGroup extension lv v
      findInGroups extension sv v

def findFilesWithExtension (extension : StdString) (sv : List (List FileInfo))
    (v : List StdString) : Option (List StdString) :=
  findInGroups (extension.overwrite tolower) sv v

/-- What opening a file and reading it gives, and of which data irrKlang makes a source. -/
structure Disk where
  read : StdString → Option (List UInt8)
  supported : List UInt8 → Bool

/-- `irrklang::ISoundEngine`. A call of `addSoundSourceFromMemory` has the data and the name of
the source. -/
structure ISoundEngine (E S : Type) where
  createIrrKlangDevice : E
  addSoundSourceFromMemory : E → List UInt8 → Name → E × Option S
  removeSoundSource : E → Name → E

/-- The sources that have a name, and the data that a source was made of. -/
structure ISoundEngine.Documented {E S : Type} (irrklang : ISoundEngine E S)
    (supported : List UInt8 → Bool) (named : E → Name → Option S) (sampled : E → S → List UInt8) :
    Prop where
  created name : named irrklang.createIrrKlangDevice name = none
  added {e buffer name} : named e name = none → supported buffer → ∃ e' snd,
    irrklang.addSoundSourceFromMemory e buffer name = (e', some snd) ∧
      named e' = Function.update (named e) name (some snd) ∧ sampled e' snd = buffer ∧
      ∀ name' snd', named e name' = some snd' → sampled e' snd' = sampled e snd'
  refused {e buffer name} : ¬ (named e name = none ∧ supported buffer) →
    irrklang.addSoundSourceFromMemory e buffer name = (e, none)
  removed e name :
    named (irrklang.removeSoundSource e name) = Function.update (named e) name none

section loops

variable {E S : Type}

structure Library (E S : Type) where
  mSoundEngine : E
  mISoundSources : OrderedMap Name S

variable (irrklang : ISoundEngine E S)

def Library.store (lib : Library E S) (res_name : Name) (buffer : List UInt8) : Library E S :=
  match irrklang.addSoundSourceFromMemory lib.mSoundEngine buffer res_name with
  | (mSoundEngine, none) => { lib with mSoundEngine }
  | (mSoundEngine, some snd) => ⟨mSoundEngine, lib.mISoundSources.insert res_name snd⟩

def Library.loadFile (disk : Disk) (lib : Library E S) (fname : StdString) :
    Option (Library E S) := do
  let res_name ← resName fname
  match disk.read fname with
  | none => some lib
  | some buffer => some (lib.store irrklang res_name.data buffer)

def Library.loadFiles (disk : Disk) : (lib : Library E S) → List StdString → Option (Library E S)
  | lib, [] => some lib
  | lib, fname :: file_names => do
      let lib ← lib.loadFile irrklang disk fname
      lib.loadFiles disk file_names

def wav : StdString := ⟨chars "wav", by decide⟩
def ogg : StdString := ⟨chars "ogg", by decide⟩

/-- `loadAllFilesFromMemory` in the constructor -/
def loadAllFilesFromMemory (disk : Disk) (sv : List (List FileInfo)) : Option (Library E S) := do
  let file_names ← findFilesWithExtension wav sv []
  let file_names ← findFilesWithExtension ogg sv file_names
  Library.loadFiles irrklang disk ⟨irrklang.createIrrKlangDevice, ∅⟩ file_names

def removeSoundSources (mSoundEngine : E) (entries : List (Name × S)) : E :=
  entries.foldl (fun e entry => irrklang.removeSoundSource e entry.1) mSoundEngine

def Library.destroy (lib : Library E S) : Library E S :=
  ⟨removeSoundSources irrklang lib.mSoundEngine lib.mISoundSources.entries, ∅⟩

end loops

section search

variable {info : FileInfo} {sv : List (List FileInfo)}

/-- The name of the file ends in a dot and an extension, in letters of either case. -/
def FileInfo.HasExtension (info : FileInfo) (extension : List UInt8) : Prop :=
  ∃ stem ext, info.basename = stem ++ dot :: ext ∧ ext.map tolower = extension

theorem last_dot_inj {pre pre' post post' : List UInt8} (free : dot ∉ post) (free' : dot ∉ post')
    (same : pre ++ dot :: post = pre' ++ dot :: post') : post = post' := by
  have last : ∀ {l : List UInt8}, dot ∉ l → ∀ c ∈ l, (c == dot) = false := by
    intro l free c member
    simp only [beq_eq_false_iff_ne, ne_eq]
    rintro rfl
    exact free member
  have place : ∀ {pre l : List UInt8}, dot ∉ l →
      LastIndex.lastIndex (· == dot) (pre ++ dot :: l) = some pre.length :=
    fun free => LastIndex.lastIndex_append_cons (beq_self_eq_true dot) (last free)
  have length : pre.length = pre'.length :=
    Option.some.inj ((place free).symm.trans (same ▸ place free'))
  exact (List.cons.inj (List.append_inj same length).2).2

theorem getExtension_eq_iff (info : FileInfo) {extension : StdString}
    (free : dot ∉ extension.data) (named : extension.data ≠ []) :
    ∃ ext, getExtension info.name = some ext ∧
      (ext = extension ↔ info.HasExtension extension.data) := by
  rcases dots_cut info.basename with without | ⟨stem, post, cut, last⟩
  · refine ⟨⟨[], by decide⟩, getExtension_free (s := info.name) without, ?_⟩
    constructor
    · rintro rfl
      exact absurd rfl named
    · rintro ⟨stem, ext, cut, -⟩
      exact absurd (cut ▸ by simp) without
  · obtain ⟨ext, found, lower⟩ := getExtension_cut (s := info.name) cut last
    refine ⟨ext, found, ?_⟩
    constructor
    · rintro rfl
      exact ⟨stem, post, cut, lower.symm⟩
    · rintro ⟨stem', post', cut', lower'⟩
      have last' : dot ∉ post' := by
        intro member
        refine free (lower' ▸ List.mem_map.mpr ⟨dot, member, by decide⟩)
      have same : post = post' := last_dot_inj last last' (cut.symm.trans cut')
      exact StdString.ext (by rw [lower, same, lower'])

def matching (extension : StdString) (lv : List FileInfo) : List StdString :=
  lv.filterMap fun info => if getExtension info.name = some extension then info.fullPath else none

theorem fullPath_some (filed : info.archive ≠ []) : ∃ full_path, info.fullPath = some full_path ∧
    ∃ pre, full_path.data = pre ++ info.basename ∧ ∃ dirs c, pre = dirs ++ [c] ∧ IsSeparator c := by
  have last := List.getLast?_eq_some_getLast filed
  rw [FileInfo.fullPath, last]
  by_cases without : info.archive.getLast filed ≠ slash ∧ info.archive.getLast filed ≠ backslash
  · refine ⟨_, by rw [Option.map_some, if_pos without], info.archive ++ [slash], ?_,
      info.archive, slash, rfl, .inl rfl⟩
    rw [List.append_assoc]
    rfl
  · refine ⟨_, by rw [Option.map_some, if_neg without], info.archive, rfl,
      info.archive.dropLast, info.archive.getLast filed,
      (List.dropLast_append_getLast filed).symm, ?_⟩
    rwa [not_and_or, not_not, not_not] at without

theorem getExtension_isSome (fname : StdString) : (getExtension fname).isSome := by
  rcases dots_cut fname.data with without | ⟨stem, post, cut, last⟩
  · rw [getExtension_free without]
    rfl
  · obtain ⟨ext, found, -⟩ := getExtension_cut cut last
    rw [found]
    rfl

theorem findInGroup_eq {extension : StdString} {lv : List FileInfo}
    (filed : ∀ info ∈ lv, info.archive ≠ []) (v : List StdString) :
    findInGroup extension lv v = some (v ++ matching extension lv) := by
  induction lv generalizing v with
  | nil => simp [findInGroup, matching]
  | cons info lv ih =>
      obtain ⟨ext, found⟩ := Option.isSome_iff_exists.mp (getExtension_isSome info.name)
      have rest := ih fun info member => filed info (List.mem_cons_of_mem _ member)
      rw [findInGroup, found, Option.bind_eq_bind, Option.bind_some]
      by_cases same : ext = extension
      · obtain ⟨full_path, path, -⟩ := fullPath_some (filed info List.mem_cons_self)
        rw [if_pos same, path, Option.bind_some, rest]
        simp [matching, found, same, path]
      · rw [if_neg same, rest]
        simp [matching, found, same]

theorem findInGroups_eq {extension : StdString} (filed : ∀ lv ∈ sv, ∀ info ∈ lv, info.archive ≠ [])
    (v : List StdString) :
    findInGroups extension sv v = some (v ++ matching extension sv.flatten) := by
  induction sv generalizing v with
  | nil => simp [findInGroups, matching]
  | cons lv sv ih =>
      rw [findInGroups, findInGroup_eq (filed lv List.mem_cons_self), Option.bind_eq_bind,
        Option.bind_some, ih fun lv member => filed lv (List.mem_cons_of_mem _ member),
        List.flatten_cons, matching, matching, matching, List.filterMap_append, List.append_assoc]

end search

section loading

variable {E S : Type} {irrklang : ISoundEngine E S} {disk : Disk} {named : E → Name → Option S}
  {sampled : E → S → List UInt8} {lib lib' : Library E S}

def Library.data (sampled : E → S → List UInt8) (lib : Library E S) (name : Name) :
    Option (List UInt8) :=
  (lib.mISoundSources.find? name).map (sampled lib.mSoundEngine)

def InStep (named : E → Name → Option S) (lib : Library E S) : Prop :=
  ∀ name, lib.mISoundSources.find? name = named lib.mSoundEngine name

def candidate (disk : Disk) (name : Name) (fname : StdString) : Option (List UInt8) :=
  if (resName fname).map StdString.data = some name then (disk.read fname).filter disk.supported
  else none

/-- A name that is taken keeps its data. -/
theorem InStep.store (documented : irrklang.Documented disk.supported named sampled)
    (inStep : InStep named lib) (res_name : Name) (buffer : List UInt8) :
    InStep named (lib.store irrklang res_name buffer) ∧ ∀ name,
      (lib.store irrklang res_name buffer).data sampled name = (lib.data sampled name).or
        (if name = res_name ∧ disk.supported buffer then some buffer else none) := by
  by_cases adds : named lib.mSoundEngine res_name = none ∧ disk.supported buffer
  · obtain ⟨free, supported⟩ := adds
    obtain ⟨e', snd, added, names, own, others⟩ := documented.added free supported
    rw [Library.store, added]
    refine ⟨fun name => ?_, fun name => ?_⟩
    · rw [OrderedMap.find?_insert, names, Function.update_apply, inStep name]
      congr
    · rw [Library.data, OrderedMap.find?_insert]
      by_cases same : name = res_name
      · rw [if_pos same, if_pos ⟨same, supported⟩, same, Library.data, inStep, free]
        exact congrArg some own
      · rw [if_neg same, if_neg fun both => same both.1, Option.or_none, Library.data]
        cases live : lib.mISoundSources.find? name with
        | none => rfl
        | some snd' => exact congrArg some (others name snd' ((inStep name).symm.trans live))
  · have kept : lib.store irrklang res_name buffer = lib := by
      rw [Library.store, documented.refused adds]
    rw [kept]
    refine ⟨inStep, fun name => ?_⟩
    by_cases own : name = res_name ∧ disk.supported buffer
    · obtain ⟨rfl, supported⟩ := own
      obtain ⟨snd, live⟩ := Option.ne_none_iff_exists'.mp fun free => adds ⟨free, supported⟩
      rw [Library.data, inStep name, live]
      rfl
    · rw [if_neg own, Option.or_none]

theorem InStep.loadFile (documented : irrklang.Documented disk.supported named sampled)
    (inStep : InStep named lib) (fname : StdString) :
    ∃ lib', lib.loadFile irrklang disk fname = some lib' ∧ InStep named lib' ∧
      ∀ name, lib'.data sampled name = (lib.data sampled name).or (candidate disk name fname) := by
  obtain ⟨base, found, -⟩ := getFileNameNoPath_run fname
  have res_name : resName fname = some (toLowerCase base) := by rw [resName, found, Option.map_some]
  rw [Library.loadFile, res_name, Option.bind_eq_bind, Option.bind_some]
  simp only [candidate, res_name, Option.map_some, Option.some.injEq]
  cases disk.read fname with
  | none => exact ⟨lib, rfl, inStep, fun name => by simp⟩
  | some buffer =>
      obtain ⟨after, data⟩ := inStep.store documented (toLowerCase base).data buffer
      refine ⟨_, rfl, after, fun name => ?_⟩
      rw [data, Option.filter_some]
      congr 1
      by_cases own : name = (toLowerCase base).data
      · rw [if_pos own.symm]
        simp only [own, true_and]
      · rw [if_neg fun both => own both.1, if_neg fun same => own same.symm]

theorem InStep.loadFiles (documented : irrklang.Documented disk.supported named sampled)
    (inStep : InStep named lib) (file_names : List StdString) :
    ∃ lib', lib.loadFiles irrklang disk file_names = some lib' ∧ InStep named lib' ∧
      ∀ name, lib'.data sampled name =
        (lib.data sampled name).or (file_names.findSome? (candidate disk name)) := by
  induction file_names generalizing lib with
  | nil => exact ⟨lib, rfl, inStep, fun name => by simp⟩
  | cons fname file_names ih =>
      obtain ⟨lib₁, first, inStep₁, data₁⟩ := inStep.loadFile documented fname
      obtain ⟨lib', rest, inStep', data'⟩ := ih inStep₁
      refine ⟨lib', ?_, inStep', fun name => ?_⟩
      · rw [Library.loadFiles, first, Option.bind_eq_bind, Option.bind_some, rest]
      · rw [data', data₁, Option.or_assoc, List.findSome?_cons]
        congr 1
        cases candidate disk name fname <;> rfl

def soundFiles (sv : List (List FileInfo)) : List StdString :=
  matching wav sv.flatten ++ matching ogg sv.flatten

theorem loadAllFilesFromMemory_run (documented : irrklang.Documented disk.supported named sampled)
    {sv : List (List FileInfo)} (filed : ∀ lv ∈ sv, ∀ info ∈ lv, info.archive ≠ []) :
    ∃ lib, loadAllFilesFromMemory irrklang disk sv = some lib ∧ InStep named lib ∧
      ∀ name, lib.data sampled name = (soundFiles sv).findSome? (candidate disk name) := by
  have lower : wav.overwrite tolower = wav ∧ ogg.overwrite tolower = ogg := by decide
  have empty : InStep named ⟨irrklang.createIrrKlangDevice, ∅⟩ :=
    fun name => (documented.created name).symm
  obtain ⟨lib, loaded, inStep, data⟩ := empty.loadFiles documented (soundFiles sv)
  refine ⟨lib, ?_, inStep, fun name => (data name).trans (Option.none_or ..)⟩
  simp only [loadAllFilesFromMemory, findFilesWithExtension, lower.1, lower.2,
    findInGroups_eq filed, Option.bind_eq_bind, Option.bind_some, List.nil_append]
  exact loaded

theorem removeAll_none (documented : irrklang.Documented disk.supported named sampled) {e : E}
    {name : Name} (gone : named e name = none) (entries : List (Name × S)) :
    named (removeSoundSources irrklang e entries) name = none := by
  induction entries generalizing e with
  | nil => exact gone
  | cons entry entries ih =>
      refine ih ?_
      rw [documented.removed, Function.update_apply, gone, ite_self]

theorem removeAll_named (documented : irrklang.Documented disk.supported named sampled) {e : E}
    {entries : List (Name × S)} {name : Name} {snd : S} (member : (name, snd) ∈ entries) :
    named (removeSoundSources irrklang e entries) name = none := by
  induction entries generalizing e with
  | nil => exact nomatch member
  | cons entry entries ih =>
      rcases List.mem_cons.mp member with rfl | later
      · refine removeAll_none documented ?_ entries
        rw [documented.removed, Function.update_self]
      · exact ih later

theorem InStep.destroy (documented : irrklang.Documented disk.supported named sampled)
    (inStep : InStep named lib) (name : Name) :
    named (lib.destroy irrklang).mSoundEngine name = none := by
  cases live : named lib.mSoundEngine name with
  | none => exact removeAll_none documented live _
  | some snd =>
      exact removeAll_named documented
        ((lib.mISoundSources.mem_entries_iff name snd).mpr ((inStep name).trans live))

end loading

section sounds

open Sounds

variable {V E S : Type} {irrklang : ISoundEngine E S} {disk : Disk}
  {named : E → Name → Option S} {sampled : E → S → List UInt8} {sv : List (List FileInfo)}
  {name : Name}

/-- The files that Ogre lists have an archive with a name, and their own names no separators. -/
structure Listed (sv : List (List FileInfo)) : Prop where
  filed : ∀ lv ∈ sv, ∀ info ∈ lv, info.archive ≠ []
  plain : ∀ lv ∈ sv, ∀ info ∈ lv, ∀ c ∈ info.basename, ¬ IsSeparator c

def FileInfo.Readable (disk : Disk) (info : FileInfo) : Prop :=
  ∃ full_path buffer, info.fullPath = some full_path ∧ disk.read full_path = some buffer ∧
    disk.supported buffer = true

/-- Some readable file of a group has the name, but for the case of letters, and one of the two
extensions. -/
def Available (disk : Disk) (sv : List (List FileInfo)) (name : Name) : Prop :=
  ∃ lv ∈ sv, ∃ info ∈ lv, (info.HasExtension wav.data ∨ info.HasExtension ogg.data) ∧
    info.basename.map tolower = name ∧ info.Readable disk

theorem toLowerCase_data (s : StdString) : (toLowerCase s).data = s.data.map tolower := by
  refine List.map_congr_left fun c _ => ?_
  rw [tolower]
  by_cases letter : c ≥ 65 ∧ c ≤ 90
  · rw [if_pos letter, if_pos letter, (lowered letter.1 letter.2).1]
  · rw [if_neg letter, if_neg letter]

theorem resName_fullPath {info : FileInfo} (plain : ∀ c ∈ info.basename, ¬ IsSeparator c)
    {full_path : StdString} (path : info.fullPath = some full_path) :
    (resName full_path).map StdString.data = some (info.basename.map tolower) := by
  have filed : info.archive ≠ [] := by
    intro empty
    rw [FileInfo.fullPath, List.getLast?_eq_none_iff.mpr empty] at path
    exact nomatch path
  obtain ⟨full_path', path', pre, parts, dirs, c, rfl, separator⟩ := fullPath_some filed
  obtain rfl := Option.some.inj (path.symm.trans path')
  have cut : full_path.data = dirs ++ c :: info.basename := by
    rw [parts, List.append_assoc]
    rfl
  obtain ⟨base, found, same⟩ := getFileNameNoPath_cut cut separator plain
  rw [resName, found, Option.map_some, Option.map_some, toLowerCase_data, same]

theorem mem_matching {extension : StdString} (free : dot ∉ extension.data)
    (named : extension.data ≠ []) {lv : List FileInfo} {fname : StdString} :
    fname ∈ matching extension lv ↔
      ∃ info ∈ lv, info.HasExtension extension.data ∧ info.fullPath = some fname := by
  rw [matching, List.mem_filterMap]
  refine exists_congr fun info => and_congr_right fun _ => ?_
  obtain ⟨ext, found, iff⟩ := getExtension_eq_iff info free named
  rw [found, ← iff]
  by_cases same : ext = extension <;> simp [same]

/-- The dictionary has a name exactly if a file for it is available. -/
theorem data_isSome_iff (listed : Listed sv) :
    ((soundFiles sv).findSome? (candidate disk name)).isSome ↔ Available disk sv name := by
  have found : ∀ fname, fname ∈ soundFiles sv ↔ ∃ lv ∈ sv, ∃ info ∈ lv,
      (info.HasExtension wav.data ∨ info.HasExtension ogg.data) ∧
        info.fullPath = some fname := by
    intro fname
    rw [soundFiles, List.mem_append, mem_matching (by decide) (by decide),
      mem_matching (by decide) (by decide)]
    simp only [List.mem_flatten]
    constructor
    · rintro (⟨info, ⟨lv, group, member⟩, ends, path⟩ | ⟨info, ⟨lv, group, member⟩, ends, path⟩)
      · exact ⟨lv, group, info, member, .inl ends, path⟩
      · exact ⟨lv, group, info, member, .inr ends, path⟩
    · rintro ⟨lv, group, info, member, ends | ends, path⟩
      · exact .inl ⟨info, ⟨lv, group, member⟩, ends, path⟩
      · exact .inr ⟨info, ⟨lv, group, member⟩, ends, path⟩
  rw [List.isSome_findSome?, List.any_eq_true]
  constructor
  · rintro ⟨fname, member, gives⟩
    obtain ⟨lv, group, info, inside, ends, path⟩ := (found fname).mp member
    have own := resName_fullPath (listed.plain lv group info inside) path
    rw [candidate, own] at gives
    split at gives
    · next same =>
        obtain ⟨buffer, kept⟩ := Option.isSome_iff_exists.mp gives
        obtain ⟨read, supported⟩ := Option.filter_eq_some_iff.mp kept
        exact ⟨lv, group, info, inside, ends, Option.some.inj same, fname, buffer, path, read,
          supported⟩
    · exact nomatch gives
  · rintro ⟨lv, group, info, inside, ends, same, fname, buffer, path, read, supported⟩
    refine ⟨fname, (found fname).mpr ⟨lv, group, info, inside, ends, path⟩, ?_⟩
    rw [candidate, resName_fullPath (listed.plain lv group info inside) path, same, if_pos rfl,
      read, Option.filter_some, if_pos supported]
    rfl

theorem dropHeld_mISoundSources (w : SoundWorld V) (sound : Option Nat) :
    (w.dropHeld sound).mISoundSources = w.mISoundSources := by
  cases sound <;> rfl

theorem play_mISoundSources (w : SoundWorld V) (sound : Sound V) (plays : Bool) :
    (w.play sound plays).1.mISoundSources = w.mISoundSources := by
  cases plays <;> rfl

variable [Zero V]

theorem get3DSoundInterface_mISoundSources (w : SoundWorld V) (res_name : List UInt8)
    (looped enableSFX plays : Bool) :
    (w.get3DSoundInterface res_name looped enableSFX plays).1.mISoundSources =
      w.mISoundSources := by
  rw [SoundWorld.get3DSoundInterface]
  split
  · exact play_mISoundSources ..
  · rfl

theorem step_mISoundSources {w w' : SoundWorld V} {op : Op V} (stepped : step w op = some w') :
    w'.mISoundSources = w.mISoundSources := by
  cases op with
  | loadBackgroundMusic res_name plays =>
      obtain rfl := Option.some.inj stepped
      rw [SoundWorld.loadBackgroundMusic]
      split
      · exact (play_mISoundSources ..).trans (dropHeld_mISoundSources ..)
      · rfl
  | stopBackgroundMusic =>
      obtain rfl := Option.some.inj stepped
      rw [SoundWorld.stopBackgroundMusic]
      cases w.mBackgroundMusic <;> rfl
  | toggleBackgroundMusicPause =>
      obtain rfl := Option.some.inj stepped
      rw [SoundWorld.toggleBackgroundMusicPause]
      repeat' split
      all_goals rfl
  | construct p =>
      rw [step] at stepped
      split at stepped
      · cases stepped
      · obtain rfl := Option.some.inj stepped
        rfl
  | loadSound p res_name looped enableSFX pos plays =>
      obtain ⟨c, -, rfl⟩ := Option.map_eq_some_iff.mp stepped
      rw [SoundWorld.loadSound]
      have same := (get3DSoundInterface_mISoundSources (w.dropHeld c.mSound) res_name looped
        enableSFX plays).trans (dropHeld_mISoundSources ..)
      split
      next sound eq =>
        rw [eq] at same
        split <;> exact same
  | destroy p =>
      obtain ⟨c, -, rfl⟩ := Option.map_eq_some_iff.mp stepped
      rw [SoundWorld.destroy]
      cases c.mSound <;> rfl

/-- Of all files for a name the first one that the search finds gives its data, and the
destructor leaves irrKlang no source. -/
theorem loadAllFiles_first (documented : irrklang.Documented disk.supported named sampled)
    (filed : ∀ lv ∈ sv, ∀ info ∈ lv, info.archive ≠ []) :
    ∃ lib, loadAllFilesFromMemory irrklang disk sv = some lib ∧
      (∀ name, lib.data sampled name = (soundFiles sv).findSome? (candidate disk name)) ∧
      (∀ name, lib.mISoundSources.find? name = named lib.mSoundEngine name) ∧
      ∀ name, named (lib.destroy irrklang).mSoundEngine name = none := by
  obtain ⟨lib, loaded, inStep, data⟩ := loadAllFilesFromMemory_run documented filed
  exact ⟨lib, loaded, data, inStep, inStep.destroy documented⟩

def trainGroup : List (List FileInfo) :=
  [[⟨chars "media/sounds", chars "Train.WAV", by decide⟩]]

def trainDisk : Disk := ⟨fun _ => some [1, 2], fun _ => true⟩

/-- A table of names, where a source is its name and its data. -/
def table (supported : List UInt8 → Bool) :
    ISoundEngine (Name → Option (Name × List UInt8)) (Name × List UInt8) where
  createIrrKlangDevice _ := none
  addSoundSourceFromMemory e buffer name :=
    if e name = none ∧ supported buffer then
      (Function.update e name (some (name, buffer)), some (name, buffer))
    else (e, none)
  removeSoundSource e name := Function.update e name none

theorem table_documented (supported : List UInt8 → Bool) :
    (table supported).Documented supported id fun _ snd => snd.2 where
  created _ := rfl
  added {e buffer name} free supports :=
    ⟨Function.update e name (some (name, buffer)), (name, buffer), if_pos ⟨free, supports⟩, rfl,
      rfl, fun _ _ _ => rfl⟩
  refused kept := if_neg kept
  removed _ _ := rfl

theorem trainGroup_listed : Listed trainGroup where
  filed := by decide
  plain := by
    have plain : (chars "Train.WAV").all fun c => ¬ IsSeparator c := by decide
    simp only [trainGroup, List.mem_singleton, forall_eq]
    exact fun c inside => of_decide_eq_true (List.all_eq_true.mp plain c inside)

theorem loadAllFiles_train : ∃ lib,
    loadAllFilesFromMemory (table trainDisk.supported) trainDisk trainGroup = some lib ∧
      (∀ name, lib.data (fun _ snd => snd.2) name =
        (soundFiles trainGroup).findSome? (candidate trainDisk name)) ∧
      (∀ name, lib.mISoundSources.find? name = id lib.mSoundEngine name) ∧
      ∀ name, id (lib.destroy (table trainDisk.supported)).mSoundEngine name = none :=
  loadAllFiles_first (table_documented _) trainGroup_listed.filed

/-- Whatever was played before, a sound is found under a name exactly if a file for it was
available when the sound manager was made. -/
theorem soundFound_iff (documented : irrklang.Documented disk.supported named sampled)
    (listed : Listed sv) :
    ∃ lib, loadAllFilesFromMemory irrklang disk sv = some lib ∧ ∀ (ops : List (Op V)) w,
      runSteps step (start (lib.mISoundSources.entries.map Prod.fst)) ops = some w →
        ∀ name looped enableSFX,
          ((w.loadBackgroundMusic name true).2 = 0 ↔ Available disk sv name) ∧
          ((w.get3DSoundInterface name looped enableSFX true).2.isSome ↔
            Available disk sv name) := by
  obtain ⟨lib, loaded, -, data⟩ := loadAllFilesFromMemory_run documented listed.filed
  refine ⟨lib, loaded, fun ops w reached name looped enableSFX => ?_⟩
  have kept : w.mISoundSources = lib.mISoundSources.entries.map Prod.fst :=
    runSteps_induct (fun w _ _ (same : w.mISoundSources = lib.mISoundSources.entries.map Prod.fst)
      stepped => (step_mISoundSources stepped).trans same) rfl reached
  have known : name ∈ w.mISoundSources ↔ Available disk sv name := by
    rw [← data_isSome_iff listed, ← data, kept, List.mem_map, Library.data, Option.isSome_map]
    constructor
    · rintro ⟨⟨_, snd⟩, member, rfl⟩
      rw [(lib.mISoundSources.mem_entries_iff _ snd).mp member]
      rfl
    · intro has
      obtain ⟨snd, live⟩ := Option.isSome_iff_exists.mp has
      exact ⟨_, (lib.mISoundSources.mem_entries_iff name snd).mpr live, rfl⟩
  rw [← known, SoundWorld.loadBackgroundMusic, SoundWorld.get3DSoundInterface]
  by_cases found : name ∈ w.mISoundSources
  · simp [found, SoundWorld.play]
  · simp [found]

theorem soundFound_train : ∃ lib,
    loadAllFilesFromMemory (table trainDisk.supported) trainDisk trainGroup = some lib ∧
      ∀ (ops : List (Op Int)) w,
        runSteps step (start (lib.mISoundSources.entries.map Prod.fst)) ops = some w →
          ∀ name looped enableSFX,
            ((w.loadBackgroundMusic name true).2 = 0 ↔ Available trainDisk trainGroup name) ∧
            ((w.get3DSoundInterface name looped enableSFX true).2.isSome ↔
              Available trainDisk trainGroup name) :=
  soundFound_iff (table_documented _) trainGroup_listed

end sounds

end Ssuge.SoundLibrary
