import Ssuge.ScriptStack

/-! Classes of game objects and their instances. The instances of a class have no fields
of their own: `__newindex` of the class is the class itself, so a field that a script
assigns to one instance is assigned to the class and read from every other. -/

namespace Ssuge

open CString Procedure Lua Ssuge.Frame GuardedRun

/-- Every userdata that has a metatable keeps it. -/
def World.Keeps (w w' : World) : Prop :=
  ∀ u t, w.lua.metatable (.userdata u) = some t → w'.lua.metatable (.userdata u) = some t

theorem World.Keeps.refl (w : World) : w.Keeps w := fun _ _ h => h

theorem World.Keeps.trans {w₁ w₂ w₃ : World} (h₁ : w₁.Keeps w₂) (h₂ : w₂.Keeps w₃) :
    w₁.Keeps w₃ := fun u t h => h₂ u t (h₁ u t h)

/-- Scripts cannot change the metatable of a userdata. -/
def Host.KeepsMetatables (host : Host) : Prop :=
  ∀ f arguments, ∀ w : World, w.Keeps ((host.call f arguments).run w).state

section keeps

variable {host : Host} (kept : host.KeepsMetatables) {w : World} {st : List Value}

theorem withNewUserdata_keeps (w : World) (payload : Payload) (metatable : Option Nat) :
    w.Keeps (w.withLua ((w.lua.newUserdata payload).setMetatable
      (.userdata w.lua.userdata.length) metatable)) := by
  intro u t h
  have stored : u ≠ w.lua.userdata.length := by
    rintro rfl
    simp [State.metatable] at h
  have linked := (w.lua.newUserdata payload).metatable_setMetatable u w.lua.userdata.length
    metatable
  rw [if_neg fun same => stored same.1] at linked
  exact linked.trans (State.metatable_newUserdata h)

theorem keeps_bind {α β : Type} {p : LuaProc α} {next : α → LuaProc β} {f : Frame}
    (first : f.world.Keeps (p.run f).state.world)
    (rest : ∀ a f', p.run f = .returned a f' → f'.world.Keeps ((next a).run f').state.world) :
    f.world.Keeps ((p >>= next).run f).state.world :=
  bind_related (R := fun f f' : Frame => f.world.Keeps f'.world) World.Keeps.trans first rest

include kept

theorem handled_keeps {α : Type} (f : Value) (arguments : List Value)
    {next : Except Value Value → WorldProc α}
    (still : ∀ answer w', ((next answer).run w').state = w') :
    w.Keeps ((host.call f arguments >>= next).run w).state := by
  apply bind_related (R := World.Keeps) World.Keeps.trans (kept f arguments w)
  intro answer w' _
  rw [still]
  exact .refl w'

theorem getTable_keeps (o k : Value) : w.Keeps ((host.getTable o k).run w).state := by
  unfold Host.getTable
  rw [bind_get_run]
  cases w.lua.read o k with
  | done v => exact .refl w
  | error => exact .refl w
  | call f self => exact handled_keeps kept _ _ fun answer w' => by cases answer <;> rfl

theorem setTable_keeps (o k v : Value) : w.Keeps ((host.setTable o k v).run w).state := by
  unfold Host.setTable
  rw [bind_get_run]
  cases assigned : w.lua.assign o k v with
  | done lua =>
      obtain ⟨t, rfl⟩ : ∃ t, lua = w.lua.rawset t k v := by
        rw [State.assign] at assigned
        split at assigned <;> simp at assigned
        exact ⟨_, assigned.symm⟩
      exact fun u t' h => (State.metatable_rawset ..).trans h
  | error => exact .refl w
  | call f self => exact handled_keeps kept _ _ fun answer w' => by cases answer <;> rfl

theorem callMethod_keeps (v g : Value) (m : Eval Message) :
    w.Keeps ((callMethod host m).run ⟨w, v :: g :: st⟩).state.world := by
  have called := (withNewUserdata_keeps w _ _).trans
    (kept v [g, .userdata w.lua.userdata.length] (w.withMessage m))
  rw [callMethod_run]
  cases run : (host.call v [g, .userdata w.lua.userdata.length]).run (w.withMessage m) with
  | stopped r w' => rw [run] at called; exact called
  | returned answer w' =>
      rw [run] at called
      cases answer with
      | ok _ => exact called
      | error e => simp only []; split <;> exact called

omit kept in
theorem pop_keeps (n : Nat) : w.Keeps ((pop n).run ⟨w, st⟩).state.world := by
  by_cases enough : n ≤ st.length
  · rw [pop_run enough]
    exact .refl w
  · rw [pop_undefined (Nat.not_le.mp enough)]
    exact .refl w

theorem callEvent_keeps (g : Value) (method : List UInt8) (m : Eval Message) :
    w.Keeps ((callEvent host method m).run ⟨w, g :: st⟩).state.world := by
  cases bound : g.isUserdata with
  | false =>
      rw [callEvent_unbound bound]
      exact pop_keeps 2
  | true =>
      have found := getTable_keeps kept g (.string (cString method)) (w := w)
      cases looked : (host.getTable g (.string (cString method))).run w with
      | stopped r w' =>
          rw [looked] at found
          rw [callEvent_stopped bound looked]
          exact found
      | returned v w' =>
          rw [looked] at found
          rw [callEvent_found bound looked]
          split
          · exact found.trans (callMethod_keeps kept v g m)
          · exact found.trans (pop_keeps 3)

theorem onCreate_keeps (st : List Value) {self : Ptr} {o : GameObject}
    (found : w.engine.objects self = some o) (m : Eval Message) :
    w.Keeps ((onCreate host self m).run ⟨w, st⟩).state.world := by
  rw [onCreate_run found]
  split
  · exact callEvent_keeps kept _ _ m
  · exact .refl w

omit kept in
theorem withUserdata_metatable (w : World) (luaObject : Nat) (metatable : Option Nat) (name : Name)
    (e : Engine) : ((w.withUserdata luaObject metatable name).withEngine e).lua.metatable
      (.userdata w.lua.userdata.length) = metatable := by
  have linked := (w.lua.newUserdata (.gameObject luaObject)).metatable_setMetatable
    w.lua.userdata.length w.lua.userdata.length metatable
  rw [if_pos ⟨rfl, by simp [State.newUserdata]⟩] at linked
  exact linked

theorem newGameObject_keeps {address : Ptr} {arguments : List Value}
    {ending : Ending Stop Frame (Option Value)}
    (run : (newGameObject host address).run ⟨w, arguments.reverse⟩ = ending)
    (defined : ∀ f, ending ≠ .stopped .undefined f) :
    w.Keeps ending.state.world ∧ (ending.returns = true → ∀ t,
      arguments.head? = some (.table t) →
        ending.state.world.lua.metatable (.userdata w.lua.userdata.length) = some t) := by
  subst run
  rcases newGameObject_accepted host w address arguments with short | ⟨f, undefined⟩ | ⟨accepted⟩
  · rw [newGameObject_short (by simpa using short)]
    exact ⟨.refl w, by simp [Ending.returns]⟩
  · exact absurd undefined (defined f)
  obtain ⟨cls, name, tag, hasScript, extra, rfl, s, text, metatable, valid⟩ := accepted
  rw [newGameObject_run text valid]
  split
  next luaObject e created =>
    set made := (w.withUserdata luaObject metatable (cString s)).withEngine e with made_eq
    have first : w.Keeps made := withNewUserdata_keeps w _ metatable
    have second := onCreate_keeps (w := made) kept [.userdata w.lua.userdata.length, cls]
      (Engine.luaNewGameObject_object created) (extra.foldlM (getParam host) .initialized)
    have linked : ∀ t, cls = .table t →
        made.lua.metatable (.userdata w.lua.userdata.length) = some t := by
      rintro t rfl
      rw [made_eq, withUserdata_metatable, ← Option.some.inj valid]
    cases told : (onCreate host address (extra.foldlM (getParam host) .initialized)).run
        ⟨made, [.userdata w.lua.userdata.length, cls]⟩ with
    | returned _ f =>
        rw [told] at second
        rw [bind_of_returned told]
        exact ⟨first.trans second, fun _ t same => second _ t (linked t (Option.some.inj same))⟩
    | stopped r f =>
        rw [told] at second
        rw [bind_of_stopped told]
        exact ⟨first.trans second, by simp [Ending.returns]⟩
  next r e created => exact ⟨withNewUserdata_keeps w _ metatable, by simp [Ending.returns]⟩

omit kept in
theorem newmetatable_run (w : World) (st : List Value) (name : List UInt8) :
    ∃ t w', (newmetatable name).run ⟨w, st⟩ = .returned () ⟨w', .table t :: st⟩ ∧ w.Keeps w' := by
  unfold newmetatable
  rw [bind_get_run]
  cases w.lua.registry name with
  | some t => exact ⟨t, w, rfl, .refl w⟩
  | none => exact ⟨_, _, rfl, fun u t h => h⟩

omit kept in
theorem publishClass_run (host : Host) (w : World) (st : List Value) (c : Value)
    (name : List UInt8) : (publishClass host name).run ⟨w, c :: st⟩ =
      match (host.setTable (w.lua.globals (chars "ssuge")) (.string name) c).run w with
      | .returned _ w' => .returned () ⟨w', c :: st⟩
      | .stopped r w' => .stopped r ⟨w', c :: w.lua.globals (chars "ssuge") :: c :: st⟩ := by
  have field := setfield_run host w c (w.lua.globals (chars "ssuge")) (c :: st) name
  unfold publishClass
  rw [bind_of_returned (getglobal_run _), bind_of_returned (pushvalue_run rfl)]
  cases run : (host.setTable (w.lua.globals (chars "ssuge")) (.string name) c).run w with
  | returned _ w' =>
      rw [run] at field
      rw [bind_of_returned field, pop_run (by simp)]
      rfl
  | stopped r w' =>
      rw [run] at field
      rw [bind_of_stopped field]

omit kept in
theorem setSelf_run (host : Host) (w : World) (st : List Value) (c : Value) (k : List UInt8) :
    (setSelf host k).run ⟨w, c :: st⟩ = match (host.setTable c (.string k) c).run w with
      | .returned _ w' => .returned () ⟨w', c :: st⟩
      | .stopped r w' => .stopped r ⟨w', c :: c :: st⟩ := by
  unfold setSelf
  rw [bind_of_returned (pushvalue_run rfl)]
  exact setfield_run host w c c st k

theorem setSelf_keeps (c : Value) (k : List UInt8) :
    w.Keeps ((setSelf host k).run ⟨w, c :: st⟩).state.world := by
  have changed := setTable_keeps kept c (.string k) c (w := w)
  rw [setSelf_run]
  cases run : (host.setTable c (.string k) c).run w <;> rw [run] at changed <;> exact changed

theorem linkClass_keeps (t : Nat) (name self : Value) :
    w.Keeps ((linkClass host).run ⟨w, .table t :: name :: self :: st⟩).state.world := by
  unfold linkClass
  rw [bind_of_returned (pushvalue_run rfl)]
  cases valid : asMetatable self with
  | none =>
      rw [bind_of_stopped (setmetatable_undefined valid)]
      exact .refl w
  | some metatable =>
      rw [bind_of_returned (setmetatable_run valid)]
      set w' := w.withLua (w.lua.setMetatable (.table t) metatable)
      have same : w.Keeps w' := fun u t h => h
      refine same.trans (keeps_bind (f := ⟨w', .table t :: name :: self :: st⟩)
        (setSelf_keeps kept _ _) fun _ f' first => ?_)
      rw [setSelf_run] at first
      split at first
      · obtain ⟨-, rfl⟩ := Ending.returned.inj first
        exact setSelf_keeps kept _ _
      · simp at first

theorem createGameObjectClass_keeps (self name : Value) :
    w.Keeps ((createGameObjectClass host).run ⟨w, [name, self]⟩).state.world := by
  unfold createGameObjectClass
  rw [bind_fromTop rfl]
  cases text : host.string? name with
  | none => exact .refl w
  | some s =>
      obtain ⟨t, w', made, first⟩ := newmetatable_run w [name, self] (cString s)
      have published := setTable_keeps kept (w'.lua.globals (chars "ssuge"))
        (.string (cString s)) (.table t) (w := w')
      rw [bind_some_run, bind_of_returned made]
      refine first.trans (keeps_bind (f := ⟨w', [.table t, name, self]⟩) ?_ fun _ f' second => ?_)
      · rw [publishClass_run]
        cases run : (host.setTable (w'.lua.globals (chars "ssuge")) (.string (cString s))
          (.table t)).run w' <;> rw [run] at published <;> exact published
      · rw [publishClass_run] at second
        split at second
        · obtain ⟨-, rfl⟩ := Ending.returned.inj second
          exact keeps_bind (linkClass_keeps kept t name self) fun _ f' _ => .refl f'.world
        · simp at second

end keeps

/-- The class of a metatable as `new_class` leaves it: both events lead to the class
itself, and an assignment that misses goes no further. -/
structure Wired (s : State Payload) (c : Nat) : Prop where
  index : s.rawget c indexEvent = .table c
  newindex : s.rawget c newindexEvent = .table c
  plain : s.metamethod (.table c) newindexEvent = .nil

/-- The assignments to all instances of a wired class set fields of the class. -/
theorem Wired.target {s : State Payload} {c u : Nat} (wired : Wired s c)
    (linked : s.metatable (.userdata u) = some c) {k : Value} (named : k.key ≠ none) :
    s.target State.maxLinks (.userdata u) k = .done c :=
  State.target_shared linked wired.newindex wired.plain _ named

theorem Wired.read_index {s : State Payload} {c u : Nat} (wired : Wired s c)
    (linked : s.metatable (.userdata u) = some c) :
    s.read (.userdata u) indexEvent = .done (.table c) := by
  have handler : s.metamethod (.userdata u) indexEvent = .table c := by
    rw [State.metamethod, linked]
    exact wired.index
  have own : s.ownField (.table c) indexEvent = .table c := wired.index
  rw [State.read, State.maxLinks, State.index, if_neg (by simp [State.ownField]), handler]
  change s.index 99 (.table c) indexEvent = _
  rw [State.index, own, if_pos (by simp)]

theorem Wired.rawset_index {s : State Payload} {c u t : Nat} {v : Value} (wired : Wired s c)
    (linked : s.metatable (.userdata u) = some c)
    (found : s.target State.maxLinks (.userdata u) indexEvent = .done t)
    (reads : s.read (.userdata u) indexEvent = .done v) : s.rawset t indexEvent v = s := by
  obtain rfl := Access.done.inj ((wired.target linked (by decide)).symm.trans found)
  obtain rfl := Access.done.inj ((wired.read_index linked).symm.trans reads)
  have same := s.rawset_rawget c indexEvent
  rwa [wired.index] at same

section wiring

variable {host : Host} {w : World}

theorem setTable_own {t : Nat} (plain : w.lua.metamethod (.table t) newindexEvent = .nil)
    {k : Value} (named : k.key ≠ none) (v : Value) :
    (host.setTable (.table t) k v).run w = .returned () (w.withLua (w.lua.rawset t k v)) := by
  unfold Host.setTable
  rw [bind_get_run, State.assign_own plain named]
  rfl

theorem linkClass_run (host : Host) {c b : Nat} (inside : c < w.lua.tables.length) (apart : c ≠ b)
    (base : w.lua.rawget b newindexEvent = .nil) (name : Value) :
    ∃ w', (linkClass host).run ⟨w, [.table c, name, .table b]⟩ =
      .returned () ⟨w', [.table c, name, .table b]⟩ ∧ Wired w'.lua c := by
  let s₁ := w.lua.setMetatable (.table c) (some b)
  let s₂ := s₁.rawset c indexEvent (.table c)
  let s₃ := s₂.rawset c newindexEvent (.table c)
  have inside₁ : c < s₁.tables.length := by simpa [s₁, State.setMetatable] using inside
  have inside₂ : c < s₂.tables.length := by rwa [State.length_rawset]
  have event : indexEvent.key ≠ newindexEvent.key := by decide
  have plain₁ : s₁.metamethod (.table c) newindexEvent = .nil := by
    simp [s₁, State.metamethod, State.metatable_setMetatable_self inside, base]
  have plain₂ : s₂.metamethod (.table c) newindexEvent = .nil :=
    (State.metamethod_rawset _ _ _ _ _ _ event).trans plain₁
  have valid : asMetatable (.table b) = some (some b) := rfl
  have linked : s₃.metatable (.table c) = some b := by simp [s₃, s₂, s₁, inside]
  have first := setSelf_run host (w.withLua s₁) [name, .table b] (.table c) (chars "__index")
  have second := setSelf_run host (w.withLua s₂) [name, .table b] (.table c) (chars "__newindex")
  rw [setTable_own plain₁ (by decide)] at first
  rw [setTable_own plain₂ (by decide)] at second
  have index : s₃.rawget c indexEvent = .table c := by
    rw [State.rawget_rawset, if_neg fun same => event same.2.2.1.symm, State.rawget_rawset,
      if_pos ⟨rfl, inside₁, rfl, by decide⟩]
  have newindex : s₃.rawget c newindexEvent = .table c := by
    rw [State.rawget_rawset, if_pos ⟨rfl, inside₂, rfl, by decide⟩]
  have unset : s₃.rawget b newindexEvent = .nil := by
    rw [State.rawget_rawset, if_neg fun same => apart same.1, State.rawget_rawset,
      if_neg fun same => apart same.1, State.rawget_setMetatable, base]
  refine ⟨w.withLua s₃, ?_, index, newindex, ?_⟩
  · unfold linkClass
    rw [bind_of_returned (pushvalue_run rfl),
      bind_of_returned (setmetatable_run valid), bind_of_returned first]
    exact second
  · rw [State.metamethod, show (w.withLua s₃).lua.metatable (.table c) = some b from linked]
    exact unset

/-- What `new_class` makes of a new name, called on a table without `__newindex`. -/
theorem createGameObjectClass_wired {name : Value} {s : List UInt8} {b g : Nat}
    (text : host.string? name = some s) (new : w.lua.registry (cString s) = none)
    (package : w.lua.globals (chars "ssuge") = .table g)
    (plain : w.lua.metamethod (.table g) newindexEvent = .nil) (apart : g ≠ b)
    (inside : b < w.lua.tables.length) (base : w.lua.rawget b newindexEvent = .nil) :
    ∃ w', (createGameObjectClass host).run ⟨w, [name, .table b]⟩ =
      .returned (some (.table w.lua.tables.length))
        ⟨w', [.table w.lua.tables.length, name, .table b]⟩ ∧
      Wired w'.lua w.lua.tables.length := by
  let c := w.lua.tables.length
  let w₁ := w.withLua (w.lua.newTable.register (cString s) c)
  let w₂ := w₁.withLua (w₁.lua.rawset g (.string (cString s)) (.table c))
  have made : (newmetatable (cString s)).run ⟨w, [name, .table b]⟩ =
      .returned () ⟨w₁, [.table c, name, .table b]⟩ := by
    unfold newmetatable
    rw [bind_get_run, new]
    rfl
  have published := publishClass_run host w₁ [name, .table b] (.table c) (cString s)
  have global : w₁.lua.globals (chars "ssuge") = .table g := package
  have plain₁ : w₁.lua.metamethod (.table g) newindexEvent = .nil :=
    (State.metamethod_newTable ..).trans plain
  have unset : w₂.lua.rawget b newindexEvent = .nil := by
    rw [show w₂.lua = w₁.lua.rawset g (.string (cString s)) (.table c) from rfl,
      State.rawget_rawset, if_neg fun same => apart same.1]
    exact (State.rawget_newTable ..).trans base
  have longer : c < w₂.lua.tables.length := by
    rw [show w₂.lua = w₁.lua.rawset g (.string (cString s)) (.table c) from rfl,
      State.length_rawset]
    exact (State.length_newTable w.lua).symm ▸ Nat.lt_succ_self c
  obtain ⟨w', linked, wired⟩ := linkClass_run host longer (Nat.ne_of_gt inside) unset name
  rw [global, setTable_own plain₁ (by simp [Value.key])] at published
  refine ⟨w', ?_, wired⟩
  unfold createGameObjectClass
  rw [bind_fromTop rfl, text, bind_some_run, bind_of_returned made,
    bind_of_returned published, bind_of_returned linked]
  rfl

end wiring

/-- What scripts do: make classes and instances, assign fields and call functions. -/
inductive ScriptStep
  | newClass (self name : Value)
  | new (address : Ptr) (arguments : List Value)
  | assign (o k v : Value)
  | call (f : Value) (arguments : List Value)

/-- A world, and the userdata that `new` has made in it with their classes. -/
structure ScriptRun where
  world : World
  instances : List (Nat × Value)

namespace ScriptRun

def goesOn {σ α : Type} : Ending Stop σ α → Option σ
  | .returned _ s => some s
  | .stopped (.threw _) s => some s
  | .stopped .raised s => some s
  | .stopped _ _ => none

def step (host : Host) (r : ScriptRun) : ScriptStep → Option ScriptRun
  | .newClass self name =>
      (goesOn ((createGameObjectClass host).run ⟨r.world, [name, self]⟩)).map fun f =>
        { r with world := f.world }
  | .new address arguments =>
      let ending := (newGameObject host address).run ⟨r.world, arguments.reverse⟩
      (goesOn ending).map fun f =>
        ⟨f.world, if ending.returns
          then (r.world.lua.userdata.length, arguments.headD .nil) :: r.instances
          else r.instances⟩
  | .assign o k v =>
      (goesOn ((host.setTable o k v).run r.world)).map fun w => { r with world := w }
  | .call f arguments =>
      (goesOn ((host.call f arguments).run r.world)).map fun w => { r with world := w }

theorem goesOn_state {σ α : Type} {ending : Ending Stop σ α} {s : σ}
    (goes : goesOn ending = some s) : s = ending.state ∧ ∀ t, ending ≠ .stopped .undefined t := by
  match ending with
  | .returned _ _ | .stopped (.threw _) _ | .stopped .raised _ =>
      exact ⟨(Option.some.inj goes).symm, by simp⟩
  | .stopped .aborted _ | .stopped .undefined _ => simp [goesOn] at goes

def Linked (r : ScriptRun) : Prop :=
  ∀ u t, (u, .table t) ∈ r.instances → r.world.lua.metatable (.userdata u) = some t

theorem Linked.keeps {r : ScriptRun} (linked : r.Linked) {w : World} (keeps : r.world.Keeps w) :
    Linked { r with world := w } := fun u t member => keeps u t (linked u t member)

theorem step_linked {host : Host} (kept : host.KeepsMetatables) {r r' : ScriptRun}
    {act : ScriptStep} (linked : r.Linked) (stepped : r.step host act = some r') : r'.Linked := by
  cases act with
  | newClass self name =>
      obtain ⟨f, goes, rfl⟩ := Option.map_eq_some_iff.mp stepped
      obtain ⟨rfl, -⟩ := goesOn_state goes
      exact linked.keeps (createGameObjectClass_keeps kept self name)
  | new address arguments =>
      obtain ⟨f, goes, rfl⟩ := Option.map_eq_some_iff.mp stepped
      obtain ⟨rfl, defined⟩ := goesOn_state goes
      obtain ⟨keeps, made⟩ := newGameObject_keeps kept rfl defined
      intro u t member
      split at member
      next returns =>
        rcases List.mem_cons.mp member with new | old
        · obtain ⟨rfl, cls⟩ := Prod.mk.inj new
          refine made returns t ?_
          cases arguments with
          | nil => simp at cls
          | cons v rest => simpa using cls.symm
        · exact keeps u t (linked u t old)
      next => exact keeps u t (linked u t member)
  | assign o k v =>
      obtain ⟨w, goes, rfl⟩ := Option.map_eq_some_iff.mp stepped
      obtain ⟨rfl, -⟩ := goesOn_state goes
      exact linked.keeps (setTable_keeps kept o k v)
  | call f arguments =>
      obtain ⟨w, goes, rfl⟩ := Option.map_eq_some_iff.mp stepped
      obtain ⟨rfl, -⟩ := goesOn_state goes
      exact linked.keeps (kept f arguments r.world)

end ScriptRun

/-- Assigning `v` to the field `k` of `a` is done, read back, and not seen in `b`. -/
def Isolated (s : State Payload) (a b : Nat) (k v : Value) : Prop :=
  ∃ s', s.assign (.userdata a) k v = .done s' ∧
    s'.read (.userdata b) k = s.read (.userdata b) k ∧ s'.read (.userdata a) k = .done v

/-- Instances of one class have all fields in common, so the assignment is seen in `b`
unless `b` had the value before. -/
theorem isolated_iff (host : Host) (kept : host.KeepsMetatables) (start : World)
    (acts : List ScriptStep) (r : ScriptRun)
    (ran : runSteps (ScriptRun.step host) ⟨start, []⟩ acts = some r) (a b t : Nat)
    (first : (a, .table t) ∈ r.instances) (second : (b, .table t) ∈ r.instances)
    (k v : Value) (field : k ≠ indexEvent ∨ Wired r.world.lua t) :
    Isolated r.world.lua a b k v ↔ r.world.lua.read (.userdata b) k = .done v ∧
      ∃ t', r.world.lua.target State.maxLinks (.userdata a) k = .done t' := by
  have linked : r.Linked := runSteps_induct (fun _ _ _ inv stepped =>
    ScriptRun.step_linked kept inv stepped) (by simp [ScriptRun.Linked]) ran
  have shared : r.world.lua.metatable (.userdata a) = r.world.lua.metatable (.userdata b) :=
    (linked a t first).trans (linked b t second).symm
  constructor
  · rintro ⟨s', assigned, unchanged, reads⟩
    rw [State.assign] at assigned
    split at assigned
    next t' found =>
      obtain rfl := Access.done.inj assigned
      refine ⟨?_, t', found⟩
      rw [← unchanged]
      exact State.read_shared (by rw [State.metatable_rawset, State.metatable_rawset, shared]) reads
    next => simp at assigned
    next => simp at assigned
  · rintro ⟨reads, t', found⟩
    have reads_a := State.read_shared shared.symm reads
    have kept : ∀ u, r.world.lua.read (.userdata u) k = .done v →
        (r.world.lua.rawset t' k v).read (.userdata u) k = .done v := by
      intro u reads
      by_cases other : k ≠ indexEvent
      · exact State.index_rawset other reads
      · have wired := field.resolve_left other
        obtain rfl := not_not.mp other
        rwa [wired.rawset_index (linked a t first) found reads_a]
    exact ⟨r.world.lua.rawset t' k v, by rw [State.assign, found],
      (kept b reads).trans reads.symm, kept a reads_a⟩

/-- A world with the package `ssuge` and the base class, and no objects. -/
def classWorld : World where
  engine := .start [] []
  lua := ((State.empty.newTable.newTable.rawset 1 indexEvent (.table 1)).register
    (chars "ssuge.GameObject") 1).setGlobal (chars "ssuge") (.table 0)

def robotSteps : List ScriptStep :=
  [.newClass (.table 1) (.string (chars "Robot")),
    .new 16 [.table 2, .string (chars "A"), .number 0, .number 0],
    .new 32 [.table 2, .string (chars "B"), .number 0, .number 0]]

def hp : Value := .string (chars "hp")

def robots : Option ScriptRun :=
  runSteps (ScriptRun.step quietHost) ⟨classWorld, []⟩ robotSteps

def strongRobots : Option ScriptRun :=
  runSteps (ScriptRun.step quietHost) ⟨classWorld, []⟩
    (robotSteps ++ [.assign (.userdata 0) hp (.boolean true)])

theorem quietHost_keeps : quietHost.KeepsMetatables := fun _ _ w => .refl w

theorem robots_made : robots.isSome := by decide

theorem strongRobots_made : strongRobots.isSome := by decide

/-- Assigning the value that all instances have changes none. -/
theorem isolated_strong :
    Isolated (strongRobots.get strongRobots_made).world.lua 0 1 hp (.boolean true) :=
  (isolated_iff quietHost quietHost_keeps classWorld _ _ (Option.some_get _).symm 0 1 2
    (by decide) (by decide) hp (.boolean true) (.inl (by decide))).mpr ⟨by decide, 2, by decide⟩

/-- After the assignment to the first instance the second has the field too. -/
theorem not_isolated : ∃ r,
    runSteps (ScriptRun.step quietHost) ⟨classWorld, []⟩ robotSteps = some r ∧
    (0, .table 2) ∈ r.instances ∧ (1, .table 2) ∈ r.instances ∧
    ¬ Isolated r.world.lua 0 1 hp (.boolean true) := by
  refine ⟨robots.get robots_made, (Option.some_get _).symm, by decide, by decide, ?_⟩
  rintro ⟨s', assigned, unchanged, -⟩
  have set : (robots.get robots_made).world.lua.target State.maxLinks (.userdata 0) hp =
      .done 2 := by decide
  rw [State.assign, set] at assigned
  obtain rfl := Access.done.inj assigned
  revert unchanged
  decide

end Ssuge
