import Mathlib.Data.List.DropRight
import Ssuge.Engine

/-! The debug console of `BaseApplication`. The latest messages are kept, as many as the
console has lines. In each frame `update` hides the console, and it shows it again, with the
messages in the lines, while the DEBUG action is active. The elements of the overlay manager
are looked up by their names: to create one whose name is taken throws, and so does to look
for one that is not there. -/

namespace Ssuge

open CString Procedure

/-- `std::to_string`, `Ogre::StringConverter::toString` -/
def decimal (n : Nat) : List UInt8 := chars (toString n)

theorem decimal_inj {m n : Nat} (same : decimal m = decimal n) : m = n := by
  have digit : ∀ c : Char, c.isDigit → Char.ofNat c.val.toUInt8.toNat = c := by
    intro c digit
    have low : c.val.toNat < 2 ^ 8 := by
      simp only [Char.isDigit, Bool.and_eq_true, decide_eq_true_eq, ge_iff_le,
        UInt32.le_iff_toNat_le] at digit
      have last : c.val.toNat ≤ 57 := digit.2
      omega
    rw [UInt32.toNat_toUInt8, Nat.mod_eq_of_lt low]
    exact Char.ofNat_toNat c
  have read : ∀ k, (decimal k).map (fun b => Char.ofNat b.toNat) = Nat.toDigits 10 k := by
    intro k
    rw [decimal, chars, Nat.toString_eq_ofList_toDigits, String.toList_ofList, List.map_map]
    refine (List.map_congr_left fun c member => ?_).trans (List.map_id _)
    exact digit c (Nat.isDigit_of_mem_toDigits (by decide) (by decide) member)
  have letters : Nat.toDigits 10 m = Nat.toDigits 10 n := by rw [← read, same, read]
  calc m
    _ = Nat.ofDigitChars 10 (Nat.toDigits 10 m) 0 := Nat.ofDigitChars_ten_toDigits.symm
    _ = n := by rw [letters, Nat.ofDigitChars_ten_toDigits]

/-- The captions of the overlay manager's elements, and whether the overlay of the console is
shown, once it is there. -/
structure Console where
  mRecentLogMessages : List (List UInt8)
  elements : Name → Option (List UInt8)
  overlay : Option Bool

abbrev ConsoleProc := Proc Stop Console

/-- The texts of the numbers that `update` shows. -/
structure Stats where
  averageFPS : List UInt8
  horizAxis : List UInt8
  vertAxis : List UInt8
  rVertAxis : List UInt8
  rHorizAxis : List UInt8
  triangleCount : List UInt8

namespace Console

def mNumRecentLogMessages : Nat := 30

/-- The console of a new `BaseApplication`, with the elements that others created. -/
def constructed (elements : Name → Option (List UInt8)) : Console := ⟨[], elements, none⟩

def logToConsole (c : Console) (print : List UInt8) : Console :=
  let kept := if c.mRecentLogMessages.length = mNumRecentLogMessages
    then c.mRecentLogMessages.tail else c.mRecentLogMessages
  { c with mRecentLogMessages := kept ++ [print] }

/-- Every message goes to the file of the log, too. -/
def logMessage (c : Console) (toPrint : List UInt8) (toDebug : Bool) : Console :=
  if toDebug then c.logToConsole toPrint else c

def withCaption (c : Console) (name : Name) (caption : List UInt8) : Console :=
  { c with elements := Function.update c.elements name (some caption) }

def createOverlayElement (element : Name × List UInt8) : ConsoleProc Unit := do
  require ((← get).elements element.1 = none) (.threw .ogre)
  modify fun c => c.withCaption element.1 element.2

def getOverlayElement (name : Name) : ConsoleProc Unit := do
  require ((← get).elements name ≠ none) (.threw .ogre)

def setCaption (name : Name) (caption : List UInt8) : ConsoleProc Unit := do
  getOverlayElement name
  modify fun c => c.withCaption name caption

def lineName (i : Nat) : Name := chars "_debug_console/log/msg" ++ decimal i

def slotName (i : Nat) : Name := chars "_debug_console/stats/slot" ++ decimal i

def fpsName : Name := chars "_debug_console/stats/fps"

/-- The elements of the console, in the order of their creation. -/
def guiElements : List (Name × List UInt8) :=
  (chars "_debug_console/log", []) ::
    (List.range mNumRecentLogMessages).map (fun i => (lineName i, [])) ++
  (chars "_debug_console/stats", []) ::
    (List.range mNumRecentLogMessages).map (fun i => (slotName i, [])) ++
  [(fpsName, chars "Hello, World!")]

def createElements : List (Name × List UInt8) → ConsoleProc Unit
  | [] => pure ()
  | element :: elements => do
      createOverlayElement element
      createElements elements

/-- `initializeGUI`; an overlay starts hidden. -/
def initializeGUI : ConsoleProc Nat := do
  require ((← get).overlay = none) (.threw .ogre)
  modify fun c => { c with overlay := some false }
  createElements guiElements
  pure 0

/-- The overlay that `getByName` gives. -/
def overlayVisible : ConsoleProc Bool := do
  orStop (← get).overlay .undefined

def toggleDebugConsole : ConsoleProc Unit := do
  let visible ← overlayVisible
  modify fun c => { c with overlay := some !visible }

/-- `BaseApplication::onAction`. With the Oculus support that is switched on, the viewports
that the attack action asks for are none. -/
def onAction (action : InputActions) (actionState : Bool) : ConsoleProc Unit :=
  if action = .actionPause ∧ actionState then toggleDebugConsole else pure ()

def setDebugString (slot : Nat) (value : List UInt8) : ConsoleProc Unit :=
  if slot < mNumRecentLogMessages then setCaption (slotName slot) value else pure ()

def debugStrings (stats : Stats) : List (List UInt8) :=
  [chars "FPS: " ++ stats.averageFPS, chars "Vert: " ++ stats.horizAxis,
    chars "Horz: " ++ stats.vertAxis, chars "RVert: " ++ stats.rVertAxis,
    chars "RHorz: " ++ stats.rHorizAxis, chars "TRI: " ++ stats.triangleCount]

/-- The calls of `setDebugString`, from a slot on. -/
def setDebugStrings : (slot : Nat) → List (List UInt8) → ConsoleProc Unit
  | _, [] => pure ()
  | slot, value :: values => do
      setDebugString slot value
      setDebugStrings (slot + 1) values

/-- The loop over the recent messages, from a line on. -/
def showMessages : (i : Nat) → List (List UInt8) → ConsoleProc Unit
  | _, [] => pure ()
  | i, message :: messages => do
      setCaption (lineName i) message
      showMessages (i + 1) messages

/-- The end of `update`. -/
def showConsole (stats : Stats) (debug : Bool) : ConsoleProc Unit := do
  getOverlayElement fpsName
  if debug then do
    setCaption fpsName stats.averageFPS
    showMessages 0 (← get).mRecentLogMessages
    modify fun c => { c with overlay := some true }
  else pure ()

/-- `BaseApplication::update` as far as the console is concerned; `logged` is what the game
objects log meanwhile, and `debug` whether the DEBUG action is active. -/
def update (logged : List (List UInt8)) (stats : Stats) (debug : Bool) : ConsoleProc Unit := do
  let _ ← overlayVisible
  modify fun c => { c with overlay := some false }
  modify fun c => logged.foldl logToConsole c
  setDebugStrings 0 (debugStrings stats)
  showConsole stats debug

section names

theorem lineName_inj {i j : Nat} (same : lineName i = lineName j) : i = j :=
  decimal_inj (List.append_cancel_left same)

theorem slotName_inj {i j : Nat} (same : slotName i = slotName j) : i = j :=
  decimal_inj (List.append_cancel_left same)

theorem lineName_marks (i : Nat) : (lineName i)[15]? = some 108 ∧ (lineName i)[18]? = some 47 := by
  rw [lineName, List.getElem?_append_left (by decide), List.getElem?_append_left (by decide)]
  decide

theorem slotName_marks (i : Nat) : (slotName i)[15]? = some 115 ∧ (slotName i)[21]? = some 115 := by
  rw [slotName, List.getElem?_append_left (by decide), List.getElem?_append_left (by decide)]
  decide

theorem lineName_ne_slotName (i j : Nat) : lineName i ≠ slotName j := by
  intro same
  have mark := (lineName_marks i).1
  rw [same, (slotName_marks j).1] at mark
  exact absurd mark (by decide)

theorem lineName_ne {i : Nat} {name : Name} (other : name[15]? ≠ some 108 ∨ name[18]? ≠ some 47) :
    lineName i ≠ name := by
  rintro rfl
  exact other.elim (absurd (lineName_marks i).1) (absurd (lineName_marks i).2)

theorem slotName_ne {i : Nat} {name : Name} (other : name[15]? ≠ some 115 ∨ name[21]? ≠ some 115) :
    slotName i ≠ name := by
  rintro rfl
  exact other.elim (absurd (slotName_marks i).1) (absurd (slotName_marks i).2)

theorem guiElements_nodup : (guiElements.map Prod.fst).Nodup := by
  have lines : (List.range mNumRecentLogMessages).map lineName |>.Nodup :=
    List.nodup_range.map fun _ _ => lineName_inj
  have slots : (List.range mNumRecentLogMessages).map slotName |>.Nodup :=
    List.nodup_range.map fun _ _ => slotName_inj
  have shape : guiElements.map Prod.fst = (chars "_debug_console/log" ::
      (List.range mNumRecentLogMessages).map lineName) ++ (chars "_debug_console/stats" ::
      (List.range mNumRecentLogMessages).map slotName) ++ [fpsName] := by
    simp only [guiElements, List.map_append, List.map_cons, List.map_map, List.map_nil,
      Function.comp_def]
  rw [shape, List.nodup_append, List.nodup_append, List.nodup_cons, List.nodup_cons]
  refine ⟨⟨⟨?_, lines⟩, ⟨?_, slots⟩, ?_⟩, List.nodup_singleton _, ?_⟩
  · simp [lineName_ne (.inr (by decide) : _ ∨ (chars "_debug_console/log")[18]? ≠ some 47)]
  · simp [slotName_ne (.inr (by decide) : _ ∨ (chars "_debug_console/stats")[21]? ≠ some 115)]
  · intro first inFirst second inSecond
    rcases List.mem_cons.mp inFirst with rfl | line
    · rcases List.mem_cons.mp inSecond with rfl | slot
      · decide
      · obtain ⟨i, -, rfl⟩ := List.mem_map.mp slot
        exact (slotName_ne (.inl (by decide))).symm
    · obtain ⟨i, -, rfl⟩ := List.mem_map.mp line
      rcases List.mem_cons.mp inSecond with rfl | slot
      · exact lineName_ne (.inl (by decide))
      · obtain ⟨j, -, rfl⟩ := List.mem_map.mp slot
        exact lineName_ne_slotName i j
  · intro name member last inLast
    obtain rfl := List.mem_singleton.mp inLast
    rcases List.mem_append.mp member with first | second
    · rcases List.mem_cons.mp first with rfl | line
      · decide
      · obtain ⟨i, -, rfl⟩ := List.mem_map.mp line
        exact lineName_ne (.inl (by decide))
    · rcases List.mem_cons.mp second with rfl | slot
      · decide
      · obtain ⟨i, -, rfl⟩ := List.mem_map.mp slot
        exact slotName_ne (.inr (by decide))

end names

section captions

variable {c : Console}

theorem withCaption_elements (name other : Name) (caption : List UInt8) :
    (c.withCaption name caption).elements other =
      if other = name then some caption else c.elements other :=
  Function.update_apply ..

theorem setCaption_run {name : Name} (present : c.elements name ≠ none) (caption : List UInt8) :
    (setCaption name caption).run c = .returned () (c.withCaption name caption) := by
  have found : (getOverlayElement name).run c = .returned () c := by
    rw [getOverlayElement, bind_get_run, require_pos present]
  rw [setCaption, bind_of_returned found]
  rfl

def withElements (c : Console) (elements : List (Name × List UInt8)) : Console :=
  elements.foldl (fun c element => c.withCaption element.1 element.2) c

theorem withElements_other {elements : List (Name × List UInt8)} {name : Name}
    (other : name ∉ elements.map Prod.fst) :
    (c.withElements elements).elements name = c.elements name := by
  induction elements generalizing c with
  | nil => rfl
  | cons element elements ih =>
      have apart : name ≠ element.1 := fun same => other (by simp [same])
      have later : name ∉ elements.map Prod.fst := fun member => other (by simp [member])
      change ((c.withCaption element.1 element.2).withElements elements).elements name = _
      rw [ih later, withCaption_elements, if_neg apart]

theorem withElements_mem {elements : List (Name × List UInt8)}
    (distinct : (elements.map Prod.fst).Nodup) {name : Name} {caption : List UInt8}
    (member : (name, caption) ∈ elements) :
    (c.withElements elements).elements name = some caption := by
  induction elements generalizing c with
  | nil => simp at member
  | cons element elements ih =>
      obtain ⟨first, rest⟩ := List.nodup_cons.mp distinct
      change ((c.withCaption element.1 element.2).withElements elements).elements name = _
      rcases List.mem_cons.mp member with rfl | later
      · rw [withElements_other first, withCaption_elements, if_pos rfl]
      · exact ih rest later

theorem withElements_kept (elements : List (Name × List UInt8)) :
    (c.withElements elements).mRecentLogMessages = c.mRecentLogMessages ∧
      (c.withElements elements).overlay = c.overlay := by
  induction elements generalizing c with
  | nil => exact ⟨rfl, rfl⟩
  | cons element elements ih => exact ih

theorem createElements_run {elements : List (Name × List UInt8)}
    (distinct : (elements.map Prod.fst).Nodup)
    (free : ∀ name ∈ elements.map Prod.fst, c.elements name = none) :
    (createElements elements).run c = .returned () (c.withElements elements) := by
  induction elements generalizing c with
  | nil => rfl
  | cons element elements ih =>
      obtain ⟨first, rest⟩ := List.nodup_cons.mp distinct
      have created : (createOverlayElement element).run c =
          .returned () (c.withCaption element.1 element.2) := by
        rw [createOverlayElement, bind_get_run,
          bind_of_returned (require_pos (free element.1 (by simp)) ..)]
        rfl
      rw [createElements, bind_of_returned created]
      refine ih rest fun name member => ?_
      have apart : name ≠ element.1 := fun same => first (same ▸ member)
      rw [withCaption_elements, if_neg apart]
      exact free name (by simp [member])

def numbered (nameOf : Nat → Name) : (i : Nat) → List (List UInt8) → List (Name × List UInt8)
  | _, [] => []
  | i, value :: values => (nameOf i, value) :: numbered nameOf (i + 1) values

variable {nameOf : Nat → Name} {values : List (List UInt8)}

theorem numbered_names (i : Nat) :
    (numbered nameOf i values).map Prod.fst = (List.range' i values.length).map nameOf := by
  induction values generalizing i with
  | nil => rfl
  | cons value values ih =>
      rw [numbered, List.map_cons, ih, List.length_cons, List.range'_succ]
      rfl

theorem mem_numbered {i k : Nat} {value : List UInt8} (member : values[k]? = some value) :
    (nameOf (i + k), value) ∈ numbered nameOf i values := by
  induction values generalizing i k with
  | nil => simp at member
  | cons first values ih =>
      cases k with
      | zero =>
          obtain rfl : first = value := Option.some.inj member
          exact List.mem_cons_self
      | succ k =>
          have later : values[k]? = some value := member
          refine List.mem_cons_of_mem _ ?_
          rw [show i + (k + 1) = i + 1 + k by omega]
          exact ih later

theorem numbered_elements (injective : ∀ i j, nameOf i = nameOf j → i = j) (k : Nat) :
    (c.withElements (numbered nameOf 0 values)).elements (nameOf k) =
      (values[k]? <|> c.elements (nameOf k)) := by
  have distinct : ((numbered nameOf 0 values).map Prod.fst).Nodup := by
    rw [numbered_names]
    exact (List.nodup_range' 1).map fun _ _ => injective _ _
  cases value : values[k]? with
  | some caption =>
      have member : (nameOf (0 + k), caption) ∈ numbered nameOf 0 values := mem_numbered value
      rw [Nat.zero_add] at member
      exact withElements_mem distinct member
  | none =>
      refine withElements_other fun member => ?_
      rw [numbered_names] at member
      obtain ⟨j, inside, same⟩ := List.mem_map.mp member
      obtain rfl := injective _ _ same
      have short := List.getElem?_eq_none_iff.mp value
      simp only [List.mem_range'_1] at inside
      omega

theorem numbered_other (apart : ∀ i, nameOf i ≠ name) (i : Nat) :
    (c.withElements (numbered nameOf i values)).elements name = c.elements name := by
  refine withElements_other fun member => ?_
  rw [numbered_names] at member
  obtain ⟨j, -, same⟩ := List.mem_map.mp member
  exact apart j same

theorem withCaption_present {name other : Name} (present : c.elements name ≠ none)
    (caption : List UInt8) : (c.withCaption other caption).elements name ≠ none := by
  rw [withCaption_elements]
  split
  · simp
  · exact present

theorem showMessages_run {i : Nat}
    (present : ∀ j < i + values.length, c.elements (lineName j) ≠ none) :
    (showMessages i values).run c =
      .returned () (c.withElements (numbered lineName i values)) := by
  induction values generalizing c i with
  | nil => rfl
  | cons value values ih =>
      rw [List.length_cons] at present
      rw [showMessages, bind_of_returned (setCaption_run (present i (by omega)) value)]
      exact ih fun j inside => withCaption_present (present j (by omega)) value

theorem setDebugStrings_run {slot : Nat} (room : slot + values.length ≤ mNumRecentLogMessages)
    (present : ∀ j < mNumRecentLogMessages, c.elements (slotName j) ≠ none) :
    (setDebugStrings slot values).run c =
      .returned () (c.withElements (numbered slotName slot values)) := by
  induction values generalizing c slot with
  | nil => rfl
  | cons value values ih =>
      rw [List.length_cons] at room
      have inside : slot < mNumRecentLogMessages := by omega
      have set : (setDebugString slot value).run c =
          .returned () (c.withCaption (slotName slot) value) := by
        rw [setDebugString, if_pos inside, setCaption_run (present slot inside)]
      rw [setDebugStrings, bind_of_returned set]
      exact ih (by omega) fun j bound => withCaption_present (present j bound) value

end captions

/-- The lines show some messages, from the first line on, and the lines after them nothing. -/
def Shows (c : Console) (messages : List (List UInt8)) : Prop :=
  ∀ i < mNumRecentLogMessages, c.elements (lineName i) = some (messages[i]?.getD [])

/-- The console after `initializeGUI`, when some messages have been logged. -/
structure Follows (c : Console) (all : List (List UInt8)) : Prop where
  recent : c.mRecentLogMessages = all.rtake mNumRecentLogMessages
  overlay : c.overlay.isSome
  fps : c.elements fpsName ≠ none
  slots : ∀ i < mNumRecentLogMessages, c.elements (slotName i) ≠ none
  /-- The messages that were shown last were no more than there are now. -/
  lines : ∃ shown, shown.length ≤ c.mRecentLogMessages.length ∧ c.Shows shown

section runs

variable {c : Console} {all : List (List UInt8)}

theorem logToConsole_rtake {n : Nat} {all kept : List (List UInt8)} (positive : 0 < n)
    (recent : kept = all.rtake n) (print : List UInt8) :
    (if kept.length = n then kept.tail else kept) ++ [print] = (all ++ [print]).rtake n := by
  obtain ⟨n, rfl⟩ := Nat.exists_eq_succ_of_ne_zero positive.ne'
  rw [List.rtake_concat_succ, recent]
  congr 1
  rw [List.rtake, List.rtake, List.length_drop]
  split
  next full =>
    rw [List.tail_drop]
    congr 1
    omega
  next room =>
    congr 1
    omega

theorem Follows.length_le (follows : c.Follows all) :
    c.mRecentLogMessages.length ≤ mNumRecentLogMessages := by
  rw [follows.recent, List.rtake, List.length_drop]
  omega

theorem Follows.logToConsole (follows : c.Follows all) (print : List UInt8) :
    (c.logToConsole print).Follows (all ++ [print]) where
  recent := logToConsole_rtake (by decide) follows.recent print
  overlay := follows.overlay
  fps := follows.fps
  slots := follows.slots
  lines := by
    obtain ⟨shown, fits, shows⟩ := follows.lines
    refine ⟨shown, fits.trans ?_, shows⟩
    have bound := follows.length_le
    change _ ≤ ((if _ then _ else _) ++ [print]).length
    split
    · rw [List.length_append, List.length_tail]
      simp only [List.length_singleton]
      omega
    · rw [List.length_append]
      omega

theorem Follows.logged (follows : c.Follows all) (logged : List (List UInt8)) :
    (logged.foldl Console.logToConsole c).Follows (all ++ logged) := by
  induction logged generalizing c all with
  | nil => simpa using follows
  | cons print logged ih =>
      have next := ih (follows.logToConsole print)
      rwa [List.append_assoc] at next

theorem Follows.withOverlay (follows : c.Follows all) (visible : Bool) :
    { c with overlay := some visible }.Follows all :=
  ⟨follows.recent, rfl, follows.fps, follows.slots, follows.lines⟩

/-- Where no element has a name of the console's, `initializeGUI` creates them all. -/
theorem initializeGUI_returned {elements : Name → Option (List UInt8)}
    (free : ∀ name ∈ guiElements.map Prod.fst, elements name = none) :
    initializeGUI.run (constructed elements) =
      .returned 0 (withElements ⟨[], elements, some false⟩ guiElements) := by
  have absent : (constructed elements).overlay = none := rfl
  rw [initializeGUI, bind_get_run, bind_of_returned (require_pos absent ..), bind_modify_run]
  exact bind_of_returned (createElements_run guiElements_nodup free) _

theorem lineName_gui {i : Nat} (inside : i < mNumRecentLogMessages) :
    (lineName i, []) ∈ guiElements := by
  simp only [guiElements, List.mem_append, List.mem_cons, List.mem_map, List.mem_range]
  exact .inl (.inl (.inr ⟨i, inside, rfl⟩))

theorem slotName_gui {i : Nat} (inside : i < mNumRecentLogMessages) :
    (slotName i, []) ∈ guiElements := by
  simp only [guiElements, List.mem_append, List.mem_cons, List.mem_map, List.mem_range]
  exact .inl (.inr (.inr ⟨i, inside, rfl⟩))

theorem created_follows (elements : Name → Option (List UInt8)) :
    (withElements ⟨[], elements, some false⟩ guiElements).Follows [] := by
  obtain ⟨recent, overlay⟩ := withElements_kept (c := ⟨[], elements, some false⟩) guiElements
  have made : ∀ {element}, element ∈ guiElements →
      (withElements ⟨[], elements, some false⟩ guiElements).elements element.1 =
        some element.2 :=
    fun member => withElements_mem guiElements_nodup member
  have fps : (fpsName, chars "Hello, World!") ∈ guiElements := by simp [guiElements]
  refine ⟨recent, by rw [overlay]; rfl, ?_, fun i inside => ?_, [], Nat.zero_le _,
    fun i inside => ?_⟩
  · exact Option.ne_none_iff_exists'.mpr ⟨_, made fps⟩
  · exact Option.ne_none_iff_exists'.mpr ⟨_, made (slotName_gui inside)⟩
  · exact made (lineName_gui inside)

theorem Follows.hide (follows : c.Follows all) (logged : List (List UInt8)) :
    (logged.foldl Console.logToConsole { c with overlay := some false }).Follows (all ++ logged) :=
  (follows.withOverlay false).logged logged

theorem overlayVisible_run (present : c.overlay.isSome) :
    ∃ visible, c.overlay = some visible ∧ overlayVisible.run c = .returned visible c := by
  obtain ⟨visible, shown⟩ := Option.isSome_iff_exists.mp present
  exact ⟨visible, shown, by rw [overlayVisible, bind_get_run, shown, orStop_some]⟩

theorem toggleDebugConsole_run (follows : c.Follows all) :
    ∃ c', toggleDebugConsole.run c = .returned () c' ∧ c'.Follows all := by
  obtain ⟨visible, -, run⟩ := overlayVisible_run follows.overlay
  refine ⟨{ c with overlay := some !visible }, ?_, follows.withOverlay _⟩
  rw [toggleDebugConsole, bind_of_returned run]
  rfl

theorem onAction_run (follows : c.Follows all) (action : InputActions) (actionState : Bool) :
    ∃ c', (onAction action actionState).run c = .returned () c' ∧ c'.Follows all := by
  rw [onAction]
  split
  · exact toggleDebugConsole_run follows
  · exact ⟨c, rfl, follows⟩

theorem Follows.withStrings (follows : c.Follows all) (values : List (List UInt8)) :
    (c.withElements (numbered slotName 0 values)).Follows all := by
  obtain ⟨recent, overlay⟩ := withElements_kept (c := c) (numbered slotName 0 values)
  refine ⟨recent.trans follows.recent, overlay ▸ follows.overlay, ?_, fun i inside => ?_, ?_⟩
  · rw [numbered_other (fun i => slotName_ne (.inr (by decide)))]
    exact follows.fps
  · rw [numbered_elements (fun _ _ => slotName_inj)]
    cases values[i]? with
    | some value => simp
    | none => simpa using follows.slots i inside
  · obtain ⟨shown, fits, shows⟩ := follows.lines
    refine ⟨shown, recent ▸ fits, fun i inside => ?_⟩
    rw [numbered_other fun j => (lineName_ne_slotName i j).symm]
    exact shows i inside

theorem Shows.replace {shown messages : List (List UInt8)} (shows : c.Shows shown)
    (fits : shown.length ≤ messages.length) :
    (c.withElements (numbered lineName 0 messages)).Shows messages := by
  intro i inside
  rw [numbered_elements (fun _ _ => lineName_inj), shows i inside]
  cases value : messages[i]? with
  | some message => rfl
  | none =>
      have beyond : shown[i]? = none :=
        List.getElem?_eq_none (fits.trans (List.getElem?_eq_none_iff.mp value))
      rw [beyond]
      rfl

theorem Follows.withFps (follows : c.Follows all) (caption : List UInt8) :
    (c.withCaption fpsName caption).Follows all := by
  refine ⟨follows.recent, follows.overlay, withCaption_present follows.fps _, fun i inside =>
    withCaption_present (follows.slots i inside) _, ?_⟩
  obtain ⟨shown, fits, shows⟩ := follows.lines
  refine ⟨shown, fits, fun i inside => ?_⟩
  rw [withCaption_elements, if_neg (lineName_ne (.inl (by decide)))]
  exact shows i inside

theorem Follows.withLines (follows : c.Follows all) :
    (c.withElements (numbered lineName 0 c.mRecentLogMessages)).Follows all ∧
      (c.withElements (numbered lineName 0 c.mRecentLogMessages)).Shows c.mRecentLogMessages := by
  obtain ⟨recent, overlay⟩ := withElements_kept (c := c) (numbered lineName 0 c.mRecentLogMessages)
  obtain ⟨shown, fits, shows⟩ := follows.lines
  refine ⟨⟨recent.trans follows.recent, overlay ▸ follows.overlay, ?_, fun i inside => ?_,
    c.mRecentLogMessages, (congrArg List.length recent).ge, shows.replace fits⟩,
    shows.replace fits⟩
  · rw [numbered_other fun i => lineName_ne (.inl (by decide))]
    exact follows.fps
  · rw [numbered_other fun j => lineName_ne_slotName j i]
    exact follows.slots i inside

theorem showConsole_run (follows : c.Follows all) (hidden : c.overlay = some false)
    (stats : Stats) (debug : Bool) :
    ∃ c', (showConsole stats debug).run c = .returned () c' ∧ c'.Follows all ∧
      c'.overlay = some debug ∧ (∀ i, c'.elements (slotName i) = c.elements (slotName i)) ∧
      (debug = true → c'.Shows c'.mRecentLogMessages) := by
  have found : (getOverlayElement fpsName).run c = .returned () c := by
    rw [getOverlayElement, bind_get_run, require_pos follows.fps]
  rw [showConsole, bind_of_returned found]
  cases debug with
  | false => exact ⟨c, rfl, follows, hidden, fun _ => rfl, by simp⟩
  | true =>
      have first := follows.withFps stats.averageFPS
      have present : ∀ j < 0 + c.mRecentLogMessages.length,
          (c.withCaption fpsName stats.averageFPS).elements (lineName j) ≠ none := by
        intro j inside
        obtain ⟨shown, -, shows⟩ := first.lines
        rw [shows j (by have := follows.length_le; omega)]
        simp
      obtain ⟨second, shows⟩ := first.withLines
      obtain ⟨recent, -⟩ := withElements_kept (c := c.withCaption fpsName stats.averageFPS)
        (numbered lineName 0 c.mRecentLogMessages)
      refine ⟨_, ?_, second.withOverlay true, rfl, fun i => ?_, fun _ => ?_⟩
      · rw [if_pos rfl, bind_of_returned (setCaption_run follows.fps _), bind_get_run]
        exact bind_of_returned (showMessages_run present) _
      · refine (numbered_other (fun j => lineName_ne_slotName j i) 0).trans ?_
        rw [withCaption_elements, if_neg (slotName_ne (.inr (by decide)))]
      · intro i inside
        exact (shows i inside).trans
          (congrArg (fun messages => some (messages[i]?.getD [])) recent.symm)

/-- A frame hides the console, or shows it with the latest messages. -/
theorem update_run (follows : c.Follows all) (logged : List (List UInt8)) (stats : Stats)
    (debug : Bool) :
    ∃ c', (update logged stats debug).run c = .returned () c' ∧ c'.Follows (all ++ logged) ∧
      c'.overlay = some debug ∧
      (∀ i < 6, c'.elements (slotName i) = (debugStrings stats)[i]?) ∧
      (debug = true → c'.Shows ((all ++ logged).rtake mNumRecentLogMessages)) := by
  obtain ⟨visible, -, run⟩ := overlayVisible_run follows.overlay
  have heard := follows.hide logged
  have strings := heard.withStrings (debugStrings stats)
  set c₁ := logged.foldl Console.logToConsole { c with overlay := some false } with c₁_eq
  obtain ⟨recent, overlay⟩ := withElements_kept (c := c₁) (numbered slotName 0 (debugStrings stats))
  have hidden : c₁.overlay = some false := by
    rw [c₁_eq]
    clear heard strings c₁_eq recent overlay
    induction logged using List.reverseRecOn with
    | nil => rfl
    | append_singleton logged print ih => rw [List.foldl_append]; exact ih
  obtain ⟨c', ended, rest, shown, slots, lines⟩ :=
    showConsole_run strings (overlay.trans hidden) stats debug
  refine ⟨c', ?_, rest, shown, fun i inside => ?_, fun active => ?_⟩
  · rw [update, bind_of_returned run, bind_modify_run, bind_modify_run]
    have room : 0 + (debugStrings stats).length ≤ mNumRecentLogMessages :=
      show 0 + 6 ≤ 30 by decide
    exact (bind_of_returned (setDebugStrings_run room heard.slots) _).trans ended
  · rw [slots, numbered_elements fun _ _ => slotName_inj,
      List.getElem?_eq_getElem (show i < (debugStrings stats).length from inside)]
    rfl
  · rw [← rest.recent]
    exact lines active

end runs

end Console

end Ssuge
