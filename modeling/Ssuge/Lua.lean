import Mathlib.Data.List.Basic
import Mathlib.Logic.Function.Basic
import Mathlib.Tactic.Common

/-! Values, tables and metatables of Lua 5.1, and what reading and assigning a field
does: the metatables are followed through `__index` and `__newindex` links, at most
a hundred of them, until a table answers, a handler function has to be called or the
access fails. What a handler does is left to the caller. The table of the global variables is
taken to have no metatable. -/

namespace Ssuge.Lua

inductive Value
  | nil
  | boolean (b : Bool)
  /-- The 64 bits of a double. -/
  | number (bits : UInt64)
  | string (s : List UInt8)
  | function (f : Nat)
  | table (t : Nat)
  | userdata (u : Nat)
  | lightuserdata (p : UInt32)
deriving DecidableEq, Repr

def isNaN (bits : UInt64) : Bool := 0x7FF0000000000000 < bits &&& 0x7FFFFFFFFFFFFFFF

/-- The field that a key names: nil and NaN name none, and the two zeros the same. -/
def Value.key : Value → Option Value
  | .nil => none
  | .number bits =>
      if isNaN bits then none
      else some (.number (if bits = 0x8000000000000000 then 0 else bits))
  | v => some v

def Value.isFunction : Value → Bool
  | .function _ => true
  | _ => false

def Value.isUserdata : Value → Bool
  | .userdata _ => true
  | .lightuserdata _ => true
  | _ => false

structure Table where
  fields : Value → Value
  metatable : Option Nat

structure Userdata (π : Type) where
  payload : π
  metatable : Option Nat

structure State (π : Type) where
  tables : List Table
  userdata : List (Userdata π)
  /-- The metatables that `luaL_newmetatable` has registered. -/
  registry : List UInt8 → Option Nat
  globals : List UInt8 → Value
  stringMetatable : Option Nat

inductive Access (α : Type)
  | done (a : α)
  | call (handler : Nat) (self : Value)
  | error
deriving DecidableEq, Repr

def indexEvent : Value := .string ("__index".toList.map fun c => c.val.toUInt8)

def newindexEvent : Value := .string ("__newindex".toList.map fun c => c.val.toUInt8)

variable {π : Type}

namespace State

def empty : State π := ⟨[], [], fun _ => none, fun _ => .nil, none⟩

def rawget (s : State π) (t : Nat) (k : Value) : Value :=
  match s.tables[t]?, k.key with
  | some table, some field => table.fields field
  | _, _ => .nil

def rawset (s : State π) (t : Nat) (k v : Value) : State π :=
  match k.key with
  | some field => { s with
      tables := s.tables.modify t fun table =>
        { table with fields := Function.update table.fields field v } }
  | none => s

def metatable (s : State π) : Value → Option Nat
  | .table t => s.tables[t]?.bind Table.metatable
  | .userdata u => s.userdata[u]?.bind Userdata.metatable
  | .string _ => s.stringMetatable
  | _ => none

def metamethod (s : State π) (o event : Value) : Value :=
  match s.metatable o with
  | some t => s.rawget t event
  | none => .nil

def ownField (s : State π) (o k : Value) : Value :=
  match o with
  | .table t => s.rawget t k
  | _ => .nil

/-- Where an access goes on: at a handler's table, in a handler, or nowhere. -/
def follow {α : Type} (handler self : Value) (nowhere : Access α) (next : Value → Access α) :
    Access α :=
  match handler with
  | .nil => nowhere
  | .function f => .call f self
  | o => next o

/-- A table without the field reads nil, other values cannot be indexed. -/
def unlinked : Value → Access Value
  | .table _ => .done .nil
  | _ => .error

/-- `luaV_gettable`, with the number of links that it may still follow. -/
def index (s : State π) : (links : Nat) → (o k : Value) → Access Value
  | 0, _, _ => .error
  | links + 1, o, k =>
      if s.ownField o k ≠ .nil then .done (s.ownField o k)
      else follow (s.metamethod o indexEvent) o (unlinked o) fun next => index s links next k

/-- The table in which `luaV_settable` sets the field. A table does not get a field that
the key does not name. -/
def target (s : State π) : (links : Nat) → (o k : Value) → Access Nat
  | 0, _, _ => .error
  | links + 1, o, k =>
      match o with
      | .table t =>
          if s.rawget t k ≠ .nil then .done t
          else if k.key = none then .error
          else follow (s.metamethod o newindexEvent) o (.done t) fun next => target s links next k
      | _ => follow (s.metamethod o newindexEvent) o .error fun next => target s links next k

/-- `MAXTAGLOOP` -/
def maxLinks : Nat := 100

/-- `o[k]` -/
def read (s : State π) (o k : Value) : Access Value := s.index maxLinks o k

/-- `o[k] = v` -/
def assign (s : State π) (o k v : Value) : Access (State π) :=
  match s.target maxLinks o k with
  | .done t => .done (s.rawset t k v)
  | .call f self => .call f self
  | .error => .error

def newTable (s : State π) : State π :=
  { s with tables := s.tables ++ [⟨fun _ => .nil, none⟩] }

def newUserdata (s : State π) (payload : π) : State π :=
  { s with userdata := s.userdata ++ [⟨payload, none⟩] }

def setMetatable (s : State π) (o : Value) (metatable : Option Nat) : State π :=
  match o with
  | .table t => { s with
      tables := s.tables.modify t fun table => { table with metatable := metatable } }
  | .userdata u => { s with
      userdata := s.userdata.modify u fun userdata => { userdata with metatable := metatable } }
  | _ => s

def setGlobal (s : State π) (name : List UInt8) (v : Value) : State π :=
  { s with globals := Function.update s.globals name v }

def register (s : State π) (name : List UInt8) (t : Nat) : State π :=
  { s with registry := Function.update s.registry name (some t) }

/-- No global variable is a userdata that is still to be made. -/
def GlobalsLive (s : State π) : Prop :=
  ∀ name u, s.globals name = .userdata u → u < s.userdata.length

theorem key_eq_some_string {k : Value} {s : List UInt8} :
    k.key = some (.string s) ↔ k = .string s := by
  cases k <;> simp [Value.key]

@[simp] theorem length_rawset (s : State π) (t : Nat) (k v : Value) :
    (s.rawset t k v).tables.length = s.tables.length := by
  rw [rawset]
  cases k.key <;> simp

theorem rawget_rawset (s : State π) (t t' : Nat) (k k' v : Value) :
    (s.rawset t k v).rawget t' k' =
      if t = t' ∧ t < s.tables.length ∧ k.key = k'.key ∧ k.key ≠ none then v
      else s.rawget t' k' := by
  rw [rawset]
  cases named : k.key with
  | none => simp
  | some field =>
      simp only [rawget, List.getElem?_modify]
      cases stored : s.tables[t']? with
      | none =>
          have outside : s.tables.length ≤ t' := List.getElem?_eq_none_iff.mp stored
          rw [if_neg (by rintro ⟨rfl, inside, -⟩; omega)]
          rfl
      | some table =>
          have inside : t' < s.tables.length := (List.getElem?_eq_some_iff.mp stored).1
          by_cases same : t = t'
          · subst same
            cases k'.key with
            | none => simp
            | some field' =>
                by_cases fields : field = field' <;> simp [inside, fields, Function.update, eq_comm]
          · simp [same]

theorem rawset_rawget (s : State π) (t : Nat) (k : Value) : s.rawset t k (s.rawget t k) = s := by
  rw [rawset, rawget]
  cases k.key with
  | none => rfl
  | some field =>
      cases stored : s.tables[t]? with
      | none =>
          simp only [List.modify_eq_self (List.getElem?_eq_none_iff.mp stored)]
      | some table =>
          have same : s.tables.modify t (fun table' =>
              { table' with fields := Function.update table'.fields field (table.fields field) }) =
              s.tables := by
            refine List.ext_getElem? fun i => ?_
            rw [List.getElem?_modify]
            by_cases here : t = i
            · subst here
              simp [stored]
            · simp [here]
          simp only [same]

@[simp] theorem metatable_rawset (s : State π) (t : Nat) (k v o : Value) :
    (s.rawset t k v).metatable o = s.metatable o := by
  rw [rawset]
  cases k.key with
  | none => rfl
  | some field =>
      cases o with
      | table t' =>
          simp only [metatable, List.getElem?_modify]
          by_cases same : t = t' <;> cases s.tables[t']? <;> simp [same]
      | _ => rfl

theorem metatable_newUserdata {s : State π} {payload : π} {u t : Nat}
    (h : s.metatable (.userdata u) = some t) :
    (s.newUserdata payload).metatable (.userdata u) = some t := by
  obtain ⟨userdata, stored, linked⟩ := Option.bind_eq_some_iff.mp h
  have inside := (List.getElem?_eq_some_iff.mp stored).1
  simp only [metatable, newUserdata, List.getElem?_append_left inside, stored]
  exact linked

theorem metatable_setMetatable (s : State π) (u u' : Nat) (m : Option Nat) :
    (s.setMetatable (.userdata u') m).metatable (.userdata u) =
      if u = u' ∧ u < s.userdata.length then m else s.metatable (.userdata u) := by
  simp only [metatable, setMetatable, List.getElem?_modify]
  cases stored : s.userdata[u]? with
  | none =>
      have outside := List.getElem?_eq_none_iff.mp stored
      simp [Nat.not_lt.mpr outside]
  | some userdata =>
      have inside := (List.getElem?_eq_some_iff.mp stored).1
      by_cases same : u = u'
      · simp [same, same ▸ inside]
      · simp [same, Ne.symm same]

theorem metamethod_rawset (s : State π) (t : Nat) (k v o event : Value)
    (other : k.key ≠ event.key) : (s.rawset t k v).metamethod o event = s.metamethod o event := by
  rw [metamethod, metamethod, metatable_rawset]
  cases s.metatable o with
  | none => rfl
  | some t' => simp only [rawget_rawset, other, false_and, and_false, if_false]

theorem ownField_rawset (s : State π) (t : Nat) (k v o : Value) :
    (s.rawset t k v).ownField o k = s.ownField o k ∨ (s.rawset t k v).ownField o k = v := by
  cases o with
  | table t' =>
      simp only [ownField, rawget_rawset]
      split
      · exact .inr rfl
      · exact .inl rfl
  | _ => exact .inl rfl

theorem follow_eq_done {α : Type} {handler self : Value} {nowhere : Access α}
    {next : Value → Access α} {a : α} : follow handler self nowhere next = .done a ↔
      handler = .nil ∧ nowhere = .done a ∨
        handler ≠ .nil ∧ (∀ f, handler ≠ .function f) ∧ next handler = .done a := by
  cases handler <;> simp [follow]

/-- Writing a value where it can already be read, or anywhere else, does not change
that it is read. -/
theorem index_rawset {s : State π} {links t : Nat} {o k v : Value} (other : k ≠ indexEvent)
    (reads : s.index links o k = .done v) : (s.rawset t k v).index links o k = .done v := by
  have event : k.key ≠ indexEvent.key := fun same => other (key_eq_some_string.mp same)
  induction links generalizing o with
  | zero => simp [index] at reads
  | succ links ih =>
      rw [index] at reads ⊢
      rw [metamethod_rawset _ _ _ _ _ _ event]
      by_cases own : s.ownField o k ≠ .nil
      · rw [if_pos own] at reads
        have value := Access.done.inj reads
        have kept : (s.rawset t k v).ownField o k = v := by
          rcases s.ownField_rawset t k v o with same | written
          · rw [same, value]
          · exact written
        rw [kept, if_pos (value ▸ own)]
      · rw [if_neg own] at reads
        rw [not_not] at own
        by_cases written : (s.rawset t k v).ownField o k ≠ .nil
        · rw [if_pos written]
          have := (s.ownField_rawset t k v o).resolve_left (by rwa [own])
          rw [this]
        · rw [if_neg written]
          rw [follow_eq_done] at reads ⊢
          exact reads.imp_right fun ⟨some_link, no_function, rest⟩ =>
            ⟨some_link, no_function, ih rest⟩

/-- Reading a value that is no table only sees its metatable, unless a handler is called
with the value. -/
theorem read_shared {s : State π} {a b : Nat} (same : s.metatable (.userdata a) =
    s.metatable (.userdata b)) {k v : Value} (reads : s.read (.userdata a) k = .done v) :
    s.read (.userdata b) k = .done v := by
  have handlers : s.metamethod (.userdata a) indexEvent =
      s.metamethod (.userdata b) indexEvent := by rw [metamethod, metamethod, same]
  rw [read, maxLinks, index, if_neg (by simp [ownField]), follow_eq_done] at reads ⊢
  rwa [← handlers]

theorem target_own {s : State π} {t : Nat} (plain : s.metamethod (.table t) newindexEvent = .nil)
    (links : Nat) {k : Value} (named : k.key ≠ none) :
    s.target (links + 1) (.table t) k = .done t := by
  simp [target, plain, named, follow]

/-- A table whose `__newindex` is itself takes every assignment to a userdata that has it as
its metatable. -/
theorem target_shared {s : State π} {u t : Nat} (linked : s.metatable (.userdata u) = some t)
    (self : s.rawget t newindexEvent = .table t)
    (plain : s.metamethod (.table t) newindexEvent = .nil) (links : Nat) {k : Value}
    (named : k.key ≠ none) : s.target (links + 2) (.userdata u) k = .done t := by
  have handler : s.metamethod (.userdata u) newindexEvent = .table t := by
    rw [metamethod, linked]
    exact self
  simp only [target, handler, follow]
  exact target_own plain links named

theorem assign_own {s : State π} {t : Nat} (plain : s.metamethod (.table t) newindexEvent = .nil)
    {k : Value} (named : k.key ≠ none) (v : Value) :
    s.assign (.table t) k v = .done (s.rawset t k v) := by
  rw [assign, maxLinks, target_own plain _ named]

theorem newTable_getElem? (s : State π) (t : Nat) : s.newTable.tables[t]? =
    if t = s.tables.length then some ⟨fun _ => .nil, none⟩ else s.tables[t]? := by
  rw [newTable, List.getElem?_append]
  split
  next inside => rw [if_neg (Nat.ne_of_lt inside)]
  next outside =>
    split
    next last => simp [last]
    next other =>
      rw [List.getElem?_eq_none (Nat.le_of_not_lt outside), List.getElem?_eq_none]
      change 1 ≤ t - s.tables.length
      omega

@[simp] theorem rawget_newTable (s : State π) (t : Nat) (k : Value) :
    s.newTable.rawget t k = s.rawget t k := by
  rw [rawget, rawget, newTable_getElem?]
  by_cases last : t = s.tables.length
  · rw [if_pos last, List.getElem?_eq_none (Nat.le_of_eq last.symm)]
    cases k.key <;> rfl
  · rw [if_neg last]

@[simp] theorem metatable_newTable (s : State π) (o : Value) :
    s.newTable.metatable o = s.metatable o := by
  cases o with
  | table t =>
      rw [metatable, metatable, newTable_getElem?]
      by_cases last : t = s.tables.length
      · rw [if_pos last, List.getElem?_eq_none (Nat.le_of_eq last.symm)]
        rfl
      · rw [if_neg last]
  | _ => rfl

theorem metamethod_newTable (s : State π) (o event : Value) :
    s.newTable.metamethod o event = s.metamethod o event := by
  rw [metamethod, metamethod, metatable_newTable]
  cases s.metatable o with
  | none => rfl
  | some t => exact rawget_newTable ..

@[simp] theorem length_newTable (s : State π) :
    s.newTable.tables.length = s.tables.length + 1 := by simp [newTable]

@[simp] theorem rawget_setMetatable (s : State π) (o : Value) (m : Option Nat) (t : Nat)
    (k : Value) : (s.setMetatable o m).rawget t k = s.rawget t k := by
  cases o with
  | table t' =>
      simp only [rawget, setMetatable, List.getElem?_modify]
      cases s.tables[t]? with
      | none => rfl
      | some table => by_cases same : t' = t <;> cases k.key <;> simp [same]
  | _ => rfl

@[simp] theorem metatable_setMetatable_self {s : State π} {t : Nat} (inside : t < s.tables.length)
    (m : Option Nat) : (s.setMetatable (.table t) m).metatable (.table t) = m := by
  simp [metatable, setMetatable, List.getElem?_eq_getElem inside]

end State

end Ssuge.Lua
