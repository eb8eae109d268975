import Std.Data.ExtTreeMap
import PrefixScript.Value

/-!
# Environments

The variables that a script has bound so far.

A binding lasts until the same name is bound again; nothing ever removes one.
Two environments that bind the same names to the same values are equal, however
they came about, and the bindings are listed in the order of their names.

## Main definitions

* `Environment`: Finitely many names, each with its value.
* `Environment.get?`: The value of a name.
* `Environment.insert`: Binding a name.
* `Environment.toList`: All bindings.

## Theorems

* `get?_insert_self`, `get?_insert_other`: Binding a name changes its value and
  that of no other.
* `eq_of_get?_eq`: An environment is what it answers.
* `mem_toList_iff`: The list of bindings holds what the names are bound to.
-/

namespace PrefixScript

/-- Finitely many names, each bound to a value. -/
structure Environment where
  bindings : Std.ExtTreeMap String Value

namespace Environment

/-- The environment without bindings, in which every script starts. -/
def empty : Environment :=
  ⟨∅⟩

/-- The value a name is bound to. -/
def get? (env : Environment) (name : String) : Option Value :=
  env.bindings[name]?

/-- Bind a name, in place of any binding it had. -/
def insert (env : Environment) (name : String) (v : Value) : Environment :=
  ⟨env.bindings.insert name v⟩

/-- All bindings, in the order of their names. -/
def toList (env : Environment) : List (String × Value) :=
  env.bindings.toList

@[simp] theorem get?_empty (name : String) : empty.get? name = none :=
  Std.ExtTreeMap.getElem?_empty

theorem get?_insert (env : Environment) (name other : String) (v : Value) :
    (env.insert name v).get? other = if name = other then some v else env.get? other := by
  simp only [get?, insert, Std.ExtTreeMap.getElem?_insert, Std.LawfulEqCmp.compare_eq_iff_eq]

@[simp] theorem get?_insert_self (env : Environment) (name : String) (v : Value) :
    (env.insert name v).get? name = some v := by
  rw [get?_insert, if_pos rfl]

theorem get?_insert_other (env : Environment) (name other : String) (v : Value)
    (h : name ≠ other) : (env.insert name v).get? other = env.get? other := by
  rw [get?_insert, if_neg h]

theorem eq_of_get?_eq (env env' : Environment) (h : ∀ name, env.get? name = env'.get? name) :
    env = env' := by
  cases env with
  | mk bindings =>
      cases env' with
      | mk bindings' => exact congrArg mk (Std.ExtTreeMap.ext_getElem? h)

theorem mem_toList_iff (env : Environment) (name : String) (v : Value) :
    (name, v) ∈ env.toList ↔ env.get? name = some v := by
  rw [toList, get?, Std.ExtTreeMap.mem_toList_iff_getElem?_eq_some]

end Environment

end PrefixScript
