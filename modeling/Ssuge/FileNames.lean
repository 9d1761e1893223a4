import Mathlib.Data.List.Forall2
import Ssuge.CString
import Ssuge.LastIndex

/-! The parts of a file name. The functions look for the last dot and for the last separator
of either style, and keep the place that they find, or that nothing was found, in an `int`.
Only `getFileNameNoPath` knows about separators. -/

namespace Ssuge.FileNames

open CString LastIndex

/-- `std::string`, which a 32-bit process cannot make longer. -/
@[ext] structure StdString where
  data : List UInt8
  bounded : data.length < 2 ^ 31

def npos : UInt32 := 0xFFFFFFFF

namespace StdString

def size (s : StdString) : UInt32 := UInt32.ofNat s.data.length

/-- `rfind` for a string of one character -/
def rfind (s : StdString) (c : UInt8) : UInt32 :=
  match lastIndex (· == c) s.data with
  | some i => UInt32.ofNat i
  | none => npos

/-- `std::out_of_range` is `none`. -/
def substr (s : StdString) (pos count : UInt32) : Option StdString :=
  if pos.toNat ≤ s.data.length then
    some ⟨(s.data.drop pos.toNat).take count.toNat, by have := s.bounded; grind⟩
  else none

def overwrite (s : StdString) (f : UInt8 → UInt8) : StdString :=
  ⟨s.data.map f, by simpa using s.bounded⟩

end StdString

def dot : UInt8 := 46
def slash : UInt8 := 47
def backslash : UInt8 := 92

/-- `::tolower` in the C locale -/
def tolower (c : UInt8) : UInt8 := if 65 ≤ c ∧ c ≤ 90 then c + 32 else c

def getExtension (fname : StdString) : Option StdString :=
  let pos := (fname.rfind dot).toInt32
  if pos < 0 ∨ fname.size.toInt32 ≤ pos then some ⟨[], by decide⟩
  else (fname.substr (pos + 1).toUInt32 npos).map fun ext => ext.overwrite tolower

def getFileNameNoPath (fname : StdString) : Option StdString :=
  let index := (fname.rfind backslash).toInt32
  let index2 := (fname.rfind slash).toInt32
  let index := if index2 > index then index2 else index
  if index = -1 then some fname
  else fname.substr (index + 1).toUInt32 (fname.size - index.toUInt32)

def getFileNameNoExtension (fname : StdString) : Option StdString :=
  let index := (fname.rfind dot).toInt32
  if index ≠ -1 then fname.substr 0 index.toUInt32 else some fname

def toLowerCase (s : StdString) : StdString :=
  s.overwrite fun c => if c ≥ 65 ∧ c ≤ 90 then (c - 65) + 97 else c

/-- `res_name` in `loadAllFilesFromMemory` -/
def resName (fname : StdString) : Option StdString :=
  (getFileNameNoPath fname).map toLowerCase

def IsSeparator (c : UInt8) : Prop := c = slash ∨ c = backslash

instance (c : UInt8) : Decidable (IsSeparator c) := inferInstanceAs (Decidable (_ ∨ _))

/-- The longest end of a path that has no separator. -/
structure IsBaseName (path base : List UInt8) : Prop where
  suffix : base <:+ path
  free : ∀ c ∈ base, ¬ IsSeparator c
  longest : ∀ other, other <:+ path → (∀ c ∈ other, ¬ IsSeparator c) → other <:+ base

/-- Two characters are the same but for the case of an ASCII letter. -/
inductive SameLetter : UInt8 → UInt8 → Prop
  | same (c : UInt8) : SameLetter c c
  | lower (c : UInt8) (low : 65 ≤ c) (high : c ≤ 90) : SameLetter c (c + 32)
  | upper (c : UInt8) (low : 65 ≤ c) (high : c ≤ 90) : SameLetter (c + 32) c

section places

/-- What an `int` keeps of the result of a search. -/
def place : Option Nat → Int32
  | some i => Int32.ofNat i
  | none => -1

theorem rfind_toInt32 (s : StdString) (c : UInt8) :
    (s.rfind c).toInt32 = place (lastIndex (· == c) s.data) := by
  rw [StdString.rfind]
  cases lastIndex (· == c) s.data with
  | some i => rfl
  | none => decide

theorem place_toInt {i : Nat} (bound : i < 2 ^ 31) : (place (some i)).toInt = i :=
  Int32.toInt_ofNat_of_lt bound

theorem place_none_toInt : (place none).toInt = -1 := rfl

theorem place_some_ne {i : Nat} (bound : i < 2 ^ 31) : place (some i) ≠ -1 := by
  intro same
  have values := place_toInt bound
  rw [same] at values
  have negative : (-1 : Int32).toInt = -1 := rfl
  omega

theorem place_max {first second : Option Nat} (bound : ∀ i, first = some i → i < 2 ^ 31)
    (bound' : ∀ i, second = some i → i < 2 ^ 31) :
    (if place second > place first then place second else place first) =
      place (max first second) := by
  cases first with
  | none =>
      cases second with
      | none => rfl
      | some j =>
          have later : place (some j) > place none := by
            rw [gt_iff_lt, Int32.lt_iff_toInt_lt, place_none_toInt, place_toInt (bound' j rfl)]
            omega
          rw [if_pos later, Option.max_none_left]
  | some i =>
      cases second with
      | none =>
          have earlier : ¬ place none > place (some i) := by
            rw [gt_iff_lt, Int32.lt_iff_toInt_lt, place_none_toInt, place_toInt (bound i rfl)]
            omega
          rw [if_neg earlier, Option.max_none_right]
      | some j =>
          have order : place (some j) > place (some i) ↔ i < j := by
            rw [gt_iff_lt, Int32.lt_iff_toInt_lt, place_toInt (bound i rfl),
              place_toInt (bound' j rfl)]
            omega
          by_cases later : i < j
          · rw [if_pos (order.mpr later), Option.max_some_some, Nat.max_eq_right later.le]
          · rw [if_neg (mt order.mp later), Option.max_some_some, Nat.max_eq_left (by omega)]

theorem toNat_next {i : Nat} (bound : i < 2 ^ 31) :
    (place (some i) + 1).toUInt32.toNat = i + 1 := by
  have next : (place (some i) + 1).toUInt32 = UInt32.ofNat (i + 1) := by
    rw [UInt32.ofNat_add]
    rfl
  rw [next, UInt32.toNat_ofNat']
  omega

theorem cut_length {s : StdString} {pre post : List UInt8} {c : UInt8}
    (cut : s.data = pre ++ c :: post) :
    s.data.length = pre.length + post.length + 1 ∧ s.data.length < 2 ^ 31 := by
  refine ⟨?_, s.bounded⟩
  rw [cut, List.length_append, List.length_cons, Nat.add_assoc]

theorem substr_next {s : StdString} {pre post : List UInt8} {c : UInt8}
    (cut : s.data = pre ++ c :: post) (count : UInt32) (enough : post.length ≤ count.toNat) :
    ∃ t, s.substr (place (some pre.length) + 1).toUInt32 count = some t ∧ t.data = post := by
  obtain ⟨length, bound⟩ := cut_length cut
  have next := toNat_next (i := pre.length) (by omega)
  refine ⟨_, if_pos (by omega), ?_⟩
  change ((s.data.drop (place (some pre.length) + 1).toUInt32.toNat).take count.toNat) = post
  have dropped : s.data.drop (pre.length + 1) = post := by
    rw [cut, List.append_cons]
    exact List.drop_left' (by simp)
  rw [next, dropped]
  exact List.take_of_length_le enough

theorem substr_before {s : StdString} {pre rest : List UInt8} (cut : s.data = pre ++ rest) :
    ∃ t, s.substr 0 (place (some pre.length)).toUInt32 = some t ∧ t.data = pre := by
  have length := congrArg List.length cut
  rw [List.length_append] at length
  have bound := s.bounded
  have count : (place (some pre.length)).toUInt32.toNat = pre.length := by
    change (UInt32.ofNat pre.length).toNat = pre.length
    rw [UInt32.toNat_ofNat']
    omega
  refine ⟨_, if_pos (Nat.zero_le _), ?_⟩
  change (s.data.take (place (some pre.length)).toUInt32.toNat) = pre
  rw [count, cut]
  exact List.take_left' rfl

end places

section parts

variable {s : StdString} {pre post : List UInt8}

theorem rfind_free {c : UInt8} (free : c ∉ s.data) : (s.rfind c).toInt32 = -1 := by
  have none : lastIndex (· == c) s.data = none :=
    lastIndex_eq_none.mpr fun x member => by
      simpa using fun same : x = c => free (same ▸ member)
  rw [rfind_toInt32, none]
  rfl

theorem rfind_cut {c : UInt8} (cut : s.data = pre ++ c :: post) (free : c ∉ post) :
    (s.rfind c).toInt32 = place (some pre.length) := by
  have last : lastIndex (· == c) s.data = some pre.length := by
    rw [cut]
    exact lastIndex_append_cons (by simp) fun x member => by
      simpa using fun same : x = c => free (same ▸ member)
  rw [rfind_toInt32, last]

theorem cut_lt {c : UInt8} (cut : s.data = pre ++ c :: post) : pre.length < 2 ^ 31 := by
  obtain ⟨length, bound⟩ := cut_length cut
  omega

theorem getFileNameNoExtension_free (free : dot ∉ s.data) :
    getFileNameNoExtension s = some s := by
  rw [getFileNameNoExtension, rfind_free free]
  rfl

theorem getFileNameNoExtension_cut (cut : s.data = pre ++ dot :: post) (free : dot ∉ post) :
    ∃ t, getFileNameNoExtension s = some t ∧ t.data = pre := by
  rw [getFileNameNoExtension, rfind_cut cut free]
  simp only [if_pos (place_some_ne (cut_lt cut))]
  exact substr_before cut

theorem getExtension_free (free : dot ∉ s.data) : getExtension s = some ⟨[], by decide⟩ := by
  rw [getExtension, rfind_free free]
  exact if_pos (.inl (by decide))

theorem getExtension_cut (cut : s.data = pre ++ dot :: post) (free : dot ∉ post) :
    ∃ t, getExtension s = some t ∧ t.data = post.map tolower := by
  obtain ⟨length, bound⟩ := cut_length cut
  have size : s.size.toInt32.toInt = s.data.length := Int32.toInt_ofNat_of_lt bound
  have inside : ¬ (place (some pre.length) < 0 ∨ s.size.toInt32 ≤ place (some pre.length)) := by
    have zero : (0 : Int32).toInt = 0 := rfl
    rw [Int32.lt_iff_toInt_lt, Int32.le_iff_toInt_le, place_toInt (cut_lt cut), size, zero]
    omega
  have all : npos.toNat = 2 ^ 32 - 1 := rfl
  obtain ⟨t, found, rest⟩ := substr_next cut npos (by omega)
  rw [getExtension, rfind_cut cut free]
  simp only [if_neg inside, found, Option.map_some]
  exact ⟨_, rfl, congrArg (List.map tolower) rest⟩

/-- The two searches of `getFileNameNoPath` are one search for a separator. -/
theorem later_place (s : StdString) :
    (if (s.rfind slash).toInt32 > (s.rfind backslash).toInt32 then (s.rfind slash).toInt32
      else (s.rfind backslash).toInt32) =
    place (lastIndex (fun c => c == backslash || c == slash) s.data) := by
  have bound : ∀ (p : UInt8 → Bool) i, lastIndex p s.data = some i → i < 2 ^ 31 :=
    fun p i found => (lastIndex_lt found).trans s.bounded
  rw [rfind_toInt32, rfind_toInt32, lastIndex_or]
  exact place_max (bound _) (bound _)

theorem separator_iff (c : UInt8) :
    (c == backslash || c == slash) = true ↔ IsSeparator c := by
  simp [IsSeparator, or_comm]

theorem separators_cut (l : List UInt8) : (∀ c ∈ l, ¬ IsSeparator c) ∨
    ∃ pre c post, l = pre ++ c :: post ∧ IsSeparator c ∧ ∀ c ∈ post, ¬ IsSeparator c := by
  simpa only [← separator_iff, Bool.not_eq_true] using
    free_or_cut (fun c => c == backslash || c == slash) l

theorem dots_cut (l : List UInt8) : dot ∉ l ∨ ∃ pre post, l = pre ++ dot :: post ∧ dot ∉ post := by
  rcases free_or_cut (· == dot) l with free | ⟨pre, c, post, cut, is, free⟩
  · exact .inl fun member => by simpa using free dot member
  · obtain rfl : c = dot := by simpa using is
    exact .inr ⟨pre, post, cut, fun member => by simpa using free dot member⟩

theorem getFileNameNoPath_free (free : ∀ c ∈ s.data, ¬ IsSeparator c) :
    getFileNameNoPath s = some s := by
  have none : lastIndex (fun c => c == backslash || c == slash) s.data = none :=
    lastIndex_eq_none.mpr fun c member => by
      rw [← Bool.not_eq_true, separator_iff]
      exact free c member
  rw [getFileNameNoPath, later_place, none]
  exact if_pos rfl

theorem getFileNameNoPath_cut {c : UInt8} (cut : s.data = pre ++ c :: post)
    (separator : IsSeparator c) (free : ∀ c ∈ post, ¬ IsSeparator c) :
    ∃ t, getFileNameNoPath s = some t ∧ t.data = post := by
  have last : lastIndex (fun c => c == backslash || c == slash) s.data = some pre.length := by
    rw [cut]
    refine lastIndex_append_cons ((separator_iff c).mpr separator) fun x member => ?_
    rw [← Bool.not_eq_true, separator_iff]
    exact free x member
  obtain ⟨length, bound⟩ := cut_length cut
  have count : (s.size - (place (some pre.length)).toUInt32).toNat =
      s.data.length - pre.length := by
    change (UInt32.ofNat s.data.length - UInt32.ofNat pre.length).toNat = _
    rw [UInt32.toNat_sub_of_le, UInt32.toNat_ofNat', UInt32.toNat_ofNat']
    · omega
    · rw [UInt32.le_iff_toNat_le, UInt32.toNat_ofNat', UInt32.toNat_ofNat']
      omega
  rw [getFileNameNoPath, later_place, last]
  simp only [if_neg (place_some_ne (cut_lt cut))]
  exact substr_next cut _ (by omega)

end parts

section baseName

variable {pre post path base base' : List UInt8}

theorem isBaseName_free (free : ∀ c ∈ path, ¬ IsSeparator c) : IsBaseName path path :=
  ⟨List.suffix_rfl, free, fun _ suffix _ => suffix⟩

theorem isBaseName_cut {c : UInt8} (separator : IsSeparator c)
    (free : ∀ c ∈ post, ¬ IsSeparator c) : IsBaseName (pre ++ c :: post) post := by
  have whole : c :: post <:+ pre ++ c :: post := List.suffix_append pre _
  refine ⟨(List.suffix_cons c post).trans whole, free, fun other suffix other_free => ?_⟩
  rcases List.suffix_or_suffix_of_suffix suffix whole with shorter | longer
  · rcases List.suffix_cons_iff.mp shorter with rfl | inside
    · exact absurd separator (other_free c List.mem_cons_self)
    · exact inside
  · exact absurd separator (other_free c (longer.subset List.mem_cons_self))

theorem IsBaseName.unique (name : IsBaseName path base) (name' : IsBaseName path base') :
    base = base' :=
  (name'.longest base name.suffix name.free).eq_of_length_le
    (name.longest base' name'.suffix name'.free).length_le

theorem IsBaseName.before (name : IsBaseName path base) :
    ∃ pre, path = pre ++ base ∧ (pre = [] ∨ ∃ dirs c, pre = dirs ++ [c] ∧ IsSeparator c) := by
  rcases separators_cut path with free | ⟨dirs, c, post, rfl, separator, free⟩
  · exact ⟨[], name.unique (isBaseName_free free) ▸ rfl, .inl rfl⟩
  · obtain rfl := name.unique (isBaseName_cut separator free)
    exact ⟨dirs ++ [c], by simp, .inr ⟨dirs, c, rfl, separator⟩⟩

theorem exists_baseName (path : List UInt8) : ∃ base, IsBaseName path base := by
  rcases separators_cut path with free | ⟨dirs, c, post, rfl, separator, free⟩
  · exact ⟨path, isBaseName_free free⟩
  · exact ⟨post, isBaseName_cut separator free⟩

theorem IsBaseName.append (name : IsBaseName path base) (free : ∀ c ∈ post, ¬ IsSeparator c) :
    IsBaseName (path ++ post) (base ++ post) := by
  have joined : ∀ c ∈ base ++ post, ¬ IsSeparator c := by
    intro c member
    rcases List.mem_append.mp member with early | late
    · exact name.free c early
    · exact free c late
  obtain ⟨pre, rfl, rfl | ⟨dirs, c, rfl, separator⟩⟩ := name.before
  · exact isBaseName_free joined
  · rw [List.append_assoc, List.append_assoc]
    exact isBaseName_cut separator joined

theorem getFileNameNoPath_run (s : StdString) :
    ∃ t, getFileNameNoPath s = some t ∧ IsBaseName s.data t.data := by
  rcases separators_cut s.data with free | ⟨pre, c, post, cut, separator, free⟩
  · exact ⟨s, getFileNameNoPath_free free, isBaseName_free free⟩
  · obtain ⟨t, found, rfl⟩ := getFileNameNoPath_cut cut separator free
    exact ⟨t, found, cut ▸ isBaseName_cut separator free⟩

end baseName

section letters

theorem lowered {c : UInt8} (low : 65 ≤ c) (high : c ≤ 90) :
    (c - 65) + 97 = c + 32 ∧ ¬ c + 32 ≤ 90 := by
  rw [UInt8.le_iff_toNat_le] at *
  simp only [UInt8.toNat_add, ← UInt8.toNat_inj, UInt8.toNat_sub, UInt8.reduceToNat] at *
  omega

theorem SameLetter.lower_eq {c d : UInt8} (same : SameLetter c d) :
    (if c ≥ 65 ∧ c ≤ 90 then (c - 65) + 97 else c) =
      if d ≥ 65 ∧ d ≤ 90 then (d - 65) + 97 else d := by
  cases same with
  | same => rfl
  | lower _ low high =>
      obtain ⟨sum, above⟩ := lowered low high
      rw [if_pos ⟨low, high⟩, if_neg fun both => above both.2, sum]
  | upper _ low high =>
      obtain ⟨sum, above⟩ := lowered low high
      rw [if_neg fun both => above both.2, if_pos ⟨low, high⟩, sum]

theorem toLowerCase_eq {s t : StdString} (same : List.Forall₂ SameLetter s.data t.data) :
    toLowerCase s = toLowerCase t := by
  apply StdString.ext
  have values : List.Forall₂ Eq (toLowerCase s).data (toLowerCase t).data :=
    List.forall₂_map_left_iff.mpr (List.forall₂_map_right_iff.mpr
      (same.imp fun _ _ letter => letter.lower_eq))
  rwa [List.forall₂_eq_eq_eq] at values

theorem sameLetter_tolower (c : UInt8) : SameLetter c (tolower c) := by
  rw [tolower]
  by_cases letter : 65 ≤ c ∧ c ≤ 90
  · rw [if_pos letter]
    exact .lower c letter.1 letter.2
  · rw [if_neg letter]
    exact .same c

theorem isSeparator_tolower {c : UInt8} : IsSeparator (tolower c) ↔ IsSeparator c := by
  by_cases letter : 65 ≤ c ∧ c ≤ 90
  · rw [tolower, if_pos letter]
    obtain ⟨low, high⟩ := letter
    rw [UInt8.le_iff_toNat_le] at low high
    simp only [IsSeparator, slash, backslash, ← UInt8.toNat_inj, UInt8.toNat_add,
      UInt8.reduceToNat] at *
    omega
  · rw [tolower, if_neg letter]

end letters

/-- `getFileNameNoPath` gives the base name, and `res_name` is the same for base names that
differ in the case of letters. -/
theorem getFileNameNoPath_baseName (f : StdString) :
    ∃ base, getFileNameNoPath f = some base ∧ IsBaseName f.data base.data ∧
      (∃ pre, f.data = pre ++ base.data ∧
        (pre = [] ∨ ∃ dirs c, pre = dirs ++ [c] ∧ IsSeparator c)) ∧
      getFileNameNoPath base = some base ∧
      ∀ g base', getFileNameNoPath g = some base' →
        List.Forall₂ SameLetter base.data base'.data → resName f = resName g := by
  obtain ⟨base, found, name⟩ := getFileNameNoPath_run f
  refine ⟨base, found, name, name.before, getFileNameNoPath_free name.free, ?_⟩
  intro g base' found' same
  rw [resName, resName, found, found', Option.map_some, Option.map_some, toLowerCase_eq same]

/-- The parts of a path and of its base name agree, and the path is made of its parts again,
up to the case of the extension. -/
def Recomposes (p : StdString) : Prop :=
  ∃ ext base stem name, getExtension p = some ext ∧ getFileNameNoPath p = some base ∧
    getFileNameNoExtension p = some stem ∧ getFileNameNoExtension base = some name ∧
    (∀ c ∈ ext.data, ¬ IsSeparator c) ∧ getExtension base = some ext ∧
    getFileNameNoPath stem = some name ∧
    if dot ∈ base.data then
      ∃ e, p.data = stem.data ++ dot :: e ∧ List.Forall₂ SameLetter e ext.data
    else stem = p

/-- A path with a dot has one in its base name. -/
def DotInName (path : List UInt8) : Prop :=
  dot ∈ path → ∃ base, IsBaseName path base ∧ dot ∈ base

section recompose

variable {p : StdString} {pre post : List UInt8}

theorem recomposes_free (free : dot ∉ p.data) : Recomposes p := by
  obtain ⟨base, found, name⟩ := getFileNameNoPath_run p
  have base_free : dot ∉ base.data := fun member => free (name.suffix.subset member)
  refine ⟨⟨[], by decide⟩, base, p, base, getExtension_free free, found,
    getFileNameNoExtension_free free, getFileNameNoExtension_free base_free, ?_,
    getExtension_free base_free, found, ?_⟩
  · exact fun c member => absurd member List.not_mem_nil
  · rw [if_neg base_free]

theorem extension_free (inside : ∀ c ∈ post, ¬ IsSeparator c) :
    ∀ c ∈ dot :: post, ¬ IsSeparator c :=
  List.forall_mem_cons.mpr ⟨by decide, inside⟩

theorem recomposes_cut (cut : p.data = pre ++ dot :: post) (free : dot ∉ post)
    (inside : ∀ c ∈ post, ¬ IsSeparator c) : Recomposes p := by
  obtain ⟨ext, ext_found, ext_data⟩ := getExtension_cut cut free
  obtain ⟨stem, stem_found, stem_data⟩ := getFileNameNoExtension_cut cut free
  obtain ⟨name, name_found, name_base⟩ := getFileNameNoPath_run stem
  have base_name := name_base.append (extension_free inside)
  rw [stem_data, ← cut] at base_name
  obtain ⟨base, base_found, base_base⟩ := getFileNameNoPath_run p
  have base_data : base.data = name.data ++ dot :: post := base_base.unique base_name
  obtain ⟨ext', ext'_found, ext'_data⟩ := getExtension_cut base_data free
  obtain ⟨name', name'_found, name'_data⟩ := getFileNameNoExtension_cut base_data free
  obtain rfl : ext' = ext := StdString.ext (ext'_data.trans ext_data.symm)
  obtain rfl : name' = name := StdString.ext name'_data
  refine ⟨ext', base, stem, name', ext_found, base_found, stem_found, name'_found, ?_,
    ext'_found, name_found, ?_⟩
  · rw [ext_data]
    intro c member separator
    obtain ⟨d, there, rfl⟩ := List.mem_map.mp member
    exact inside d there (isSeparator_tolower.mp separator)
  · rw [if_pos (by rw [base_data]; simp)]
    refine ⟨post, by rw [stem_data, cut], ?_⟩
    rw [ext_data, List.forall₂_map_right_iff]
    exact List.forall₂_same.mpr fun c _ => sameLetter_tolower c

theorem not_recomposes_cut (cut : p.data = pre ++ dot :: post) (free : dot ∉ post)
    {c : UInt8} (member : c ∈ post) (separator : IsSeparator c) : ¬ Recomposes p := by
  rintro ⟨ext, -, -, -, ext_found, -, -, -, ext_free, -⟩
  obtain ⟨t, t_found, t_data⟩ := getExtension_cut cut free
  obtain rfl := Option.some.inj (t_found.symm.trans ext_found)
  rw [t_data] at ext_free
  exact ext_free (tolower c) (List.mem_map_of_mem member) (isSeparator_tolower.mpr separator)

theorem dotInName_cut (inside : ∀ c ∈ post, ¬ IsSeparator c) : DotInName (pre ++ dot :: post) := by
  intro _
  obtain ⟨base, name⟩ := exists_baseName pre
  exact ⟨base ++ dot :: post, name.append (extension_free inside), by simp⟩

theorem not_dotInName_cut (free : dot ∉ post) {c : UInt8} (member : c ∈ post)
    (separator : IsSeparator c) : ¬ DotInName (pre ++ dot :: post) := by
  intro inside
  obtain ⟨base, name, there⟩ := inside (by simp)
  rcases separators_cut post with none | ⟨dirs, d, rest, rfl, found, rest_free⟩
  · exact none c member separator
  · rw [← List.cons_append, ← List.append_assoc] at name
    obtain rfl := name.unique (isBaseName_cut found rest_free)
    exact free (List.mem_append_right dirs (List.mem_cons_of_mem d there))

end recompose

/-- File names decompose and recompose exactly when no dot is found in a directory. -/
theorem recomposes_iff (p : StdString) : Recomposes p ↔ DotInName p.data := by
  rcases dots_cut p.data with free | ⟨pre, post, cut, free⟩
  · exact ⟨fun _ there => absurd there free, fun _ => recomposes_free free⟩
  · by_cases inside : ∀ c ∈ post, ¬ IsSeparator c
    · exact ⟨fun _ => cut ▸ dotInName_cut inside, fun _ => recomposes_cut cut free inside⟩
    · push Not at inside
      obtain ⟨c, member, separator⟩ := inside
      refine ⟨fun all => absurd all (not_recomposes_cut cut free member separator), fun name => ?_⟩
      rw [cut] at name
      exact absurd name (not_dotInName_cut free member separator)

/-- The directory has a dot, and the file has none. -/
theorem not_recomposes : ¬ Recomposes ⟨chars "dir.v1/file", by decide⟩ := by
  rintro ⟨ext, -, -, -, found, -, -, -, free, -⟩
  obtain rfl := Option.some.inj found
  exact free slash (by decide) (by decide)

end Ssuge.FileNames
