import Ssuge.Exec
import Ssuge.MessageNumbers
import Ssuge.ScriptIntegers

/-! A script asks an object for the game objects with a tag and looks through the reply.
`GameObject::execute` puts the objects into a message, `__lua_GameObject_exec` copies it for
Lua, and every index that the script tries is looked up in the copy. Each of these looks only
at the low eight bits of a number, so an object after the first 256 is never seen. -/

namespace Ssuge.TaggedQuery

open CString Procedure Lua GuardedRun Ssuge.Frame Exec

def tagged (e : Engine) (tag : Int32) : List Ptr :=
  (e.mObjects.entries.filter fun entry =>
    (e.objects entry.2).any fun o => Engine.getTag o = tag).map Prod.snd

/-- A list that begins again after 256 elements. -/
def wrapped {α : Type} (ps : List α) : List α :=
  List.ofFn fun i : Fin ps.length => ps.get ⟨i % 256, lt_of_le_of_lt (Nat.mod_le _ _) i.isLt⟩

/-- `__lua_Message_length`; `luaL_checkudata` looks at the bottom of the stack. -/
def messageLength (numerals : Numerals) : LuaProc (Option Value) := do
  let n := (← get).stack.length
  require (n ≠ 0) .raised
  let m ← ofEval (← checkMessage n (chars "ssuge.Message"))
  push (.number (numerals.ofInteger (Int32.ofNat m.mNumParam)))
  returnTop

def readAt (host : Host) (numerals : Numerals) (v key : Value) : LuaProc (Option Value) := do
  push v
  push key
  messageIndex host numerals

structure Query (s : Stage) (call : Call) (tag : Int32) : Prop where
  self : ∃ p o, s.Self call p o
  component : cString call.component = chars "self"
  operation : cString call.operation = chars "getGameObjectsWithTag"
  message : ∃ v args, call.rest = [v] ∧ messageAt s.lua v = some (.ok args) ∧
    args.getInt 0 = .ok tag

/-- A reply that lists objects: the indices that there are give the global variables with the
names of the objects, those of the first 256 again and again. -/
structure Lists (host : Host) (numerals : Numerals) (w : World) (reply : Value)
    (objects : List Ptr) : Prop where
  length : ∃ f, (messageLength numerals).run ⟨w, [reply]⟩ =
    .returned (some (.number (numerals.ofInteger (Int32.ofNat objects.length)))) f
  inside : ∀ key n, host.Counts key (n + 1) → n < objects.length →
    ∃ g o st, objects[n % 256]? = some g ∧ w.engine.objects g = some o ∧
      (readAt host numerals reply key).run ⟨w, []⟩ =
        .returned (some (w.lua.globals (cString o.mName))) ⟨w, st⟩
  outside : ∀ key, (∀ n, host.Counts key (n + 1) → objects.length ≤ n) →
    ∃ f, (readAt host numerals reply key).run ⟨w, []⟩ = .stopped .raised f

def Finds (host : Host) (numerals : Numerals) (w : World) (reply : Value) (g : Ptr) : Prop :=
  ∃ key v f, (readAt host numerals reply key).run ⟨w, []⟩ = .returned (some v) f ∧
    f.world.mPtr v = some g

section copies

variable {gs : List Ptr}

theorem length_wrapped {α : Type} (ps : List α) : (wrapped ps).length = ps.length :=
  List.length_ofFn

theorem getElem_wrapped {α : Type} (ps : List α) {k : Nat} (inside : k < (wrapped ps).length)
    (low : k % 256 < ps.length) : (wrapped ps)[k] = ps[k % 256] :=
  List.getElem_ofFn _

theorem mod_lt_length {α : Type} {ps : List α} {k : Nat} (inside : k < (wrapped ps).length) :
    k % 256 < ps.length :=
  lt_of_le_of_lt (Nat.mod_le _ _) (lt_of_lt_of_eq inside (length_wrapped ps))

theorem mem_wrapped {α : Type} {ps : List α} {p : α} (member : p ∈ wrapped ps) : p ∈ ps := by
  obtain ⟨k, inside, rfl⟩ := List.mem_iff_getElem.mp member
  rw [getElem_wrapped ps inside (mod_lt_length inside)]
  exact List.getElem_mem _

theorem scalars_objects : ∀ p ∈ gs.map Param.gameObject, p.typeCode ≠ 's' := by
  simp [Param.typeCode]

theorem nulFree_objects : ∀ p ∈ gs.map Param.gameObject, p.NulFree := by
  simp [Param.NulFree]

theorem parted_objects : Message.PartedAgain (wrapped (gs.map Param.gameObject)) := by
  intro k again
  have member := mem_wrapped (List.getElem_mem (Nat.lt_of_add_right_lt again))
  obtain ⟨g, -, same⟩ := List.mem_map.mp member
  rw [← same]
  trivial

theorem toLua_objects (gs : List Ptr) : ∃ mptr,
    toLua (gs.map .gameObject) >>= Message.luaPushMessage = .ok mptr ∧
      mptr.mNumParam = gs.length ∧
      ∀ k < gs.length, ∃ g, gs[k % 256]? = some g ∧ mptr.Retrieves k (.gameObject g) := by
  have order : Message.InOrder (gs.map .gameObject) := Message.inOrder_of_scalars scalars_objects
  obtain ⟨m, made, layout⟩ :=
    Message.layout_of_inOrder Message.startChunkNum_pos nulFree_objects order
  have reads : m.Reads (wrapped (gs.map .gameObject)) := by
    refine ⟨layout.numParam.trans (length_wrapped _).symm, fun k inside => .inl ?_⟩
    rw [getElem_wrapped _ inside (mod_lt_length inside)]
    exact Message.retrieves_mod layout scalars_objects _
  obtain ⟨mptr, copied, -, layout', retrieved⟩ := Message.luaPushMessage_inOrder reads
    (fun p member => nulFree_objects p (mem_wrapped member))
    (Message.inOrder_of_scalars fun p member => scalars_objects p (mem_wrapped member))
    parted_objects
  have count : (wrapped (gs.map Param.gameObject)).length = gs.length :=
    (length_wrapped _).trans (List.length_map _)
  refine ⟨mptr, ?_, layout'.numParam.trans count, fun k inside => ?_⟩
  · rw [toLua, Message.addAll_value, Message.initialized, made]
    exact copied
  · have inside' := lt_of_lt_of_eq inside count.symm
    have low : k % 256 < gs.length := lt_of_le_of_lt (Nat.mod_le _ _) inside
    refine ⟨gs[k % 256], List.getElem?_eq_getElem low, ?_⟩
    have found := (retrieved k inside').2
    rwa [getElem_wrapped _ inside' (mod_lt_length inside'), List.getElem_map] at found

end copies

section calls

variable {host : Host} {numerals : Numerals} {s : Stage} {call : Call} {tag : Int32}

theorem findObjectsByTag_run (formed : s.engine.WellFormed) (tag : Int32) :
    (Exec.findObjectsByTag tag).run s = .returned (tagged s.engine tag) s := by
  let r : Registry := ⟨s.engine, 0, fun _ => 0, []⟩
  have found := Registry.findObjectsByTag_run (r := r) formed [] tag
  have same : (r.engine.mObjects.entries.filter (r.hasTag tag)).map Prod.snd =
      tagged s.engine tag := by
    refine congrArg (List.map Prod.snd) (List.filter_congr fun entry _ => ?_)
    unfold Registry.hasTag
    cases r.engine.objects entry.2 <;> rfl
  have asked : (Exec.onEngine (within (fun e => (⟨e, 0, fun _ => 0, []⟩ : Registry))
      (fun _ r => r.engine) (Registry.findObjectsByTag [] tag))).run s =
        .returned (0, tagged s.engine tag) s := by
    rw [List.nil_append, same] at found
    rw [Exec.onEngine, onScene_run, Scene.onEngine, within_run, within_run]
    exact found ▸ rfl
  exact bind_of_returned asked _

theorem execute_query (formed : s.engine.WellFormed) {p : Ptr} {o : GameObject}
    (live : s.engine.objects p = some o) (answers : Answers) {args : Message}
    (wanted : args.getInt 0 = .ok tag) :
    (execute answers p (chars "getGameObjectsWithTag") args).run s =
      .returned (toLua ((tagged s.engine tag).map .gameObject)) s := by
  have read : (reading (args.getInt 0)).run s = .returned tag s :=
    reading_returned.mpr ⟨wanted, rfl⟩
  unfold execute
  rw [bind_of_returned (object_run live), if_neg (by decide), if_neg (by decide),
    if_neg (by decide), if_neg (by decide), if_neg (by decide), if_neg (by decide),
    if_neg (by decide), if_neg (by decide), if_neg (by decide), if_neg (by decide), if_pos rfl,
    bind_of_returned read, bind_of_returned (findObjectsByTag_run formed tag)]
  rfl

/-- A query is answered with a new message, and nothing else changes. -/
theorem exec_query (host : Host) (formed : s.engine.WellFormed) (query : Query s call tag) :
    ∃ t, (exec host call.answers).run (s.called call) =
        .returned (some (.userdata s.lua.userdata.length)) t ∧
      t.scene = s.scene ∧ t.frame.world =
        s.frame.world.withMessage (toLua ((tagged s.engine tag).map .gameObject)) := by
  obtain ⟨⟨p, o, pointer, live⟩, component, operation, v, args, rest, message, wanted⟩ := query
  have given := (given_called_iff (.ok args)).mpr ⟨v, rest, message⟩
  have read : data.run (s.called call) = .returned args (s.called call) := data_given given
  have answered : (execute call.answers p (chars "getGameObjectsWithTag") args).run
      (s.called call) = .returned (toLua ((tagged s.engine tag).map .gameObject))
        (s.called call) := execute_query (s := s.called call) formed live call.answers wanted
  let m := toLua ((tagged s.engine tag).map .gameObject)
  let t := (s.called call).withFrame
    ⟨s.frame.world.withMessage m, .userdata s.lua.userdata.length :: (s.called call).stack⟩
  have pushed : (onFrame (pushMessage m)).run (s.called call) = .returned () t := by
    have run := pushMessage_run s.frame.world (s.called call).stack m
    rw [onFrame, stopAs_run, within_run, show (s.called call).frame =
      ⟨s.frame.world, (s.called call).stack⟩ from rfl, run]
    rfl
  have dispatched : (dispatch call.answers p (cString call.component)
      (cString call.operation)).run (s.called call) = .returned () t := by
    rw [component, operation]
    unfold dispatch
    rw [if_pos rfl, bind_of_returned read, bind_of_returned answered, pushed]
  refine ⟨t, ?_, rfl, rfl⟩
  rw [exec_run pointer, bind_of_returned dispatched, returnTop_run]
  rfl

end calls

section reads

variable {host : Host} {numerals : Numerals} {w : World} {m : Eval Message} {mptr : Message}
  {t : Nat} {key : Value}

theorem messageLength_pushed (registered : w.lua.registry (chars "ssuge.Message") = some t)
    (copied : m >>= Message.luaPushMessage = .ok mptr) :
    ∃ f, (messageLength numerals).run
        ⟨w.withMessage m, [.userdata w.lua.userdata.length]⟩ =
      .returned (some (.number (numerals.ofInteger (Int32.ofNat mptr.mNumParam)))) f := by
  have checked : (checkMessage 1 (chars "ssuge.Message")).run
      ⟨w.withMessage m, [.userdata w.lua.userdata.length]⟩ =
        .returned (m >>= Message.luaPushMessage)
          ⟨w.withMessage m, [.userdata w.lua.userdata.length]⟩ :=
    checkMessage_pushed registered m rfl
  unfold messageLength
  rw [bind_get_run, bind_of_returned (require_pos (by simp) _ _)]
  simp only [List.length_singleton]
  rw [bind_of_returned checked, copied, bind_of_returned (ofEval_returned.mpr ⟨rfl, rfl⟩),
    bind_of_returned push_run]
  exact ⟨_, rfl⟩

theorem readAt_pushed (registered : w.lua.registry (chars "ssuge.Message") = some t)
    (copied : m >>= Message.luaPushMessage = .ok mptr) :
    (readAt host numerals (.userdata w.lua.userdata.length) key).run ⟨w.withMessage m, []⟩ = (do
      require (host.number? key ≠ none) Stop.raised
      let index := (host.tointeger key).toUInt32.toNat
      require (¬ (mptr.mNumParam < index ∨ index < 1)) Stop.raised
      pushParameter numerals mptr (index - 1)
      returnTop : LuaProc (Option Value)).run
        ⟨w.withMessage m, [key, .userdata w.lua.userdata.length]⟩ := by
  have checked : (checkMessage 2 (chars "ssuge.Message")).run
      ⟨w.withMessage m, [key, .userdata w.lua.userdata.length]⟩ =
        .returned (m >>= Message.luaPushMessage)
          ⟨w.withMessage m, [key, .userdata w.lua.userdata.length]⟩ :=
    checkMessage_pushed registered m rfl
  unfold readAt
  rw [bind_of_returned push_run, bind_of_returned push_run]
  unfold messageIndex
  rw [bind_of_returned checked, bind_fromTop rfl, copied]
  rfl

theorem lists_pushed (registered : w.lua.registry (chars "ssuge.Message") = some t)
    {gs : List Ptr} (live : ∀ g ∈ gs, ∃ o, w.engine.objects g = some o) :
    Lists host numerals (w.withMessage (toLua (gs.map .gameObject)))
      (.userdata w.lua.userdata.length) gs := by
  obtain ⟨mptr, copied, count, retrieved⟩ := toLua_objects gs
  refine ⟨count ▸ messageLength_pushed registered copied, ?_, ?_⟩
  · intro key n ⟨number, index⟩ inside
    obtain ⟨g, found, holds⟩ := retrieved n inside
    obtain ⟨o, alive⟩ := live g (List.mem_of_getElem? found)
    have bounds : ¬ (mptr.mNumParam < n + 1 ∨ n + 1 < 1) := by omega
    refine ⟨g, o, [w.lua.globals (cString o.mName), key, .userdata w.lua.userdata.length], found,
      alive, ?_⟩
    rw [readAt_pushed registered copied, bind_of_returned (require_pos number _ _)]
    simp only [index, Nat.add_sub_cancel]
    rw [bind_of_returned (require_pos bounds _ _), bind_of_returned (pushParameter_run
      (w := w.withMessage (toLua (gs.map .gameObject))) alive holds _)]
    rfl
  · intro key none_counts
    rw [readAt_pushed registered copied]
    by_cases number : host.number? key ≠ none
    · rw [bind_of_returned (require_pos number _ _)]
      have bounds : ¬ ¬ (mptr.mNumParam < (host.tointeger key).toUInt32.toNat ∨
          (host.tointeger key).toUInt32.toNat < 1) := by
        rcases Nat.eq_zero_or_pos (host.tointeger key).toUInt32.toNat with zero | positive
        · omega
        · have past := none_counts _ ⟨number, (Nat.sub_add_cancel positive).symm⟩
          omega
      rw [bind_of_stopped (require_neg bounds _ _)]
      exact ⟨_, rfl⟩
    · rw [bind_of_stopped (require_neg number _ _)]
      exact ⟨_, rfl⟩

end reads

section queries

variable {host : Host} {numerals : Numerals} {s : Stage} {call : Call} {tag : Int32}

theorem live_tagged (formed : s.engine.WellFormed) :
    ∀ g ∈ tagged s.engine tag, ∃ o, s.engine.objects g = some o := by
  intro g member
  obtain ⟨entry, listed, rfl⟩ := List.mem_map.mp member
  obtain ⟨o, alive, -⟩ := formed.stored_object
    ((s.engine.mObjects.mem_entries_iff entry.1 entry.2).mp (List.mem_of_mem_filter listed))
  exact ⟨o, alive⟩

/-- Where each object is bound to its name, a list shows the first 256 of its objects. -/
theorem Lists.finds_iff {w : World} {reply : Value} {objects : List Ptr} {g : Ptr}
    (lists : Lists host numerals w reply objects) (resolved : Resolved w)
    (counts : ∀ n < 256, ∃ key, host.Counts key (n + 1)) :
    Finds host numerals w reply g ↔ ∃ i < 256, objects[i]? = some g := by
  constructor
  · rintro ⟨key, v, f, read, arrived⟩
    by_cases inside : ∃ n < objects.length, host.Counts key (n + 1)
    · obtain ⟨n, inside, counted⟩ := inside
      obtain ⟨g', o, st, found, alive, run⟩ := lists.inside key n counted inside
      obtain ⟨same, rfl⟩ := Ending.returned.inj (run.symm.trans read)
      obtain rfl := Option.some.inj same
      obtain rfl := Option.some.inj ((resolved g' o alive).symm.trans arrived)
      exact ⟨n % 256, Nat.mod_lt n (by decide), found⟩
    · obtain ⟨f', run⟩ := lists.outside key fun n counted =>
        Nat.not_lt.mp fun before => inside ⟨n, before, counted⟩
      cases run.symm.trans read
  · rintro ⟨i, low, found⟩
    obtain ⟨key, counted⟩ := counts i low
    obtain ⟨g', o, st, found', alive, run⟩ :=
      lists.inside key i counted (List.getElem?_eq_some_iff.mp found).1
    rw [Nat.mod_eq_of_lt low, found] at found'
    obtain rfl := Option.some.inj found'
    exact ⟨key, _, _, run, resolved g o alive⟩

theorem resolved_reached {sceneNodes cameras : List Name} {lua : State Payload}
    {ops : List WorldOp} {w : World}
    (bound : Along worldStep ArrivalGuard (World.start sceneNodes cameras lua) ops)
    (reached : runSteps worldStep (World.start sceneNodes cameras lua) ops = some w) :
    w.Ready ∧ Resolved w := by
  have first : (World.start sceneNodes cameras lua).Ready ∧
      Resolved (World.start sceneNodes cameras lua) :=
    ⟨start_ready sceneNodes cameras lua, start_resolved sceneNodes cameras lua⟩
  refine bound.throughout (I := fun w => w.Ready ∧ Resolved w)
    (fun w op w' kept guard stepped => ?_) first ops (List.prefix_refl _) w reached
  obtain ⟨ready, resolved⟩ := kept
  exact ⟨worldStep_ready ready stepped,
    (worldStep_resolved_iff ready resolved op).mpr guard w' stepped⟩

/-- The objects with a tag are listed for the script that asks for them. -/
theorem query_lists (host : Host) (numerals : Numerals) (formed : s.engine.WellFormed)
    (registered : ∃ t, s.lua.registry (chars "ssuge.Message") = some t)
    (query : Query s call tag) :
    ∃ reply t, (exec host call.answers).run (s.called call) = .returned (some reply) t ∧
      t.scene = s.scene ∧ Lists host numerals t.frame.world reply (tagged s.engine tag) := by
  obtain ⟨table, registered⟩ := registered
  obtain ⟨t, answered, scene, world⟩ := exec_query host formed query
  exact ⟨_, t, answered, scene,
    world ▸ lists_pushed (w := s.frame.world) registered (live_tagged formed)⟩

/-- After creations that bind each object to its name, and any removals, a script finds just the
first 256 objects with the tag that it asks for, in the order of their names. -/
theorem query_finds_iff (host : Host) (numerals : Numerals)
    (counts : ∀ n < 256, ∃ key, host.Counts key (n + 1)) {sceneNodes cameras : List Name}
    {lua : State Payload} {ops : List WorldOp}
    (bound : Along worldStep ArrivalGuard (World.start sceneNodes cameras lua) ops)
    (reached : runSteps worldStep (World.start sceneNodes cameras lua) ops = some s.frame.world)
    (query : Query s call tag) :
    ∃ reply t, (exec host call.answers).run (s.called call) = .returned (some reply) t ∧
      ∀ g, Finds host numerals t.frame.world reply g ↔
        ∃ i < 256, (tagged s.engine tag)[i]? = some g := by
  obtain ⟨⟨formed, table, registered⟩, resolved⟩ := resolved_reached bound reached
  obtain ⟨t, answered, -, world⟩ := exec_query host formed query
  have lists : Lists host numerals t.frame.world (.userdata s.lua.userdata.length)
      (tagged s.engine tag) :=
    world ▸ lists_pushed (w := s.frame.world) registered (live_tagged formed)
  exact ⟨_, t, answered, fun g => lists.finds_iff (world ▸ resolved.withMessage _) counts⟩

end queries

/-- The integer that Lua makes of a double that is not negative. -/
def integerPart (bits : UInt64) : Int32 :=
  let e := bits.toNat / 2 ^ 52
  Int32.ofNat ((2 ^ 52 + bits.toNat % 2 ^ 52) * 2 ^ (e - 1075) / 2 ^ (1075 - e))

def countingHost : Host := { quietHost with toInteger := integerPart }

theorem countingHost_counts : ∀ n < 256, ∃ key, countingHost.Counts key (n + 1) := by
  have counted : ∀ n < 256,
      (integerPart (Marshalling.doubleOf (Int32.ofNat (n + 1)))).toUInt32.toNat = n + 1 := by
    decide +kernel
  exact fun n low => ⟨.number _, by simp [Host.number?], counted n low⟩

def bobThenAnn : List WorldOp :=
  [.luaNew 16 none (chars "Bob") 1 false, .luaNew 32 none (chars "Ann") 1 false]

def withTag : State Payload := State.empty.newUserdata (.message (toLua [.int 1]))

def withBob : World := (World.start [] [] withTag).afterNew none (chars "Bob")
  ((Engine.start [] []).withScripted 16 1 (chars "Bob") false)

def withAnn : World :=
  withBob.afterNew none (chars "Ann") (withBob.engine.withScripted 32 1 (chars "Ann") false)

theorem bobThenAnn_bound : Along worldStep ArrivalGuard (World.start [] [] withTag) bobThenAnn := by
  rw [bobThenAnn, Along]
  refine ⟨fun _ _ p o live => ?_, fun w stepped => ?_⟩
  · cases live
  obtain rfl : withBob = w := Option.some.inj stepped
  rw [Along]
  refine ⟨fun _ _ p o live => ?_, fun _ _ => trivial⟩
  by_cases first : p = 16
  · subst first
    obtain rfl := Option.some.inj live
    decide
  · simp [withBob, World.afterNew, World.withEngine, Engine.withScripted, Engine.setObject, first,
      Engine.withLuaObject, Engine.start] at live

theorem bobThenAnn_reached :
    runSteps worldStep (World.start [] [] withTag) bobThenAnn = some withAnn := rfl

def annAndBob : Stage :=
  { annStage with
    scene := { annStage.scene with engine := withAnn.engine }
    lua := withAnn.lua }

def tagOfBob : Call :=
  ⟨.userdata 1, chars "self", chars "getGameObjectsWithTag", [.userdata 0], answersAt 48⟩

theorem tagOfBob_query : Query annAndBob tagOfBob 1 :=
  ⟨⟨16, _, rfl, rfl⟩, by decide, by decide, .userdata 0, _, rfl, rfl, rfl⟩

theorem query_lists_ann : ∃ reply t, (exec countingHost tagOfBob.answers).run
      (annAndBob.called tagOfBob) = .returned (some reply) t ∧ t.scene = annAndBob.scene ∧
    Lists countingHost Marshalling.integerNumerals t.frame.world reply [32, 16] :=
  query_lists (s := annAndBob) countingHost Marshalling.integerNumerals
    (resolved_reached bobThenAnn_bound bobThenAnn_reached).1.formed ⟨0, rfl⟩ tagOfBob_query

theorem query_finds_ann : ∃ reply t, (exec countingHost tagOfBob.answers).run
      (annAndBob.called tagOfBob) = .returned (some reply) t ∧
    ∀ g, Finds countingHost Marshalling.integerNumerals t.frame.world reply g ↔
      ∃ i < 256, [32, 16][i]? = some g :=
  query_finds_iff (s := annAndBob) countingHost Marshalling.integerNumerals countingHost_counts
    bobThenAnn_bound bobThenAnn_reached tagOfBob_query

end Ssuge.TaggedQuery
