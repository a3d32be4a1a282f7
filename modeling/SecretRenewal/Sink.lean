/-
This file holds what loaded values are written into. A sink takes a value under a key, and a
later value replaces an earlier one. Three sinks are provided: values in key order, a hash
table, and a search tree; written to alike, they hold the same.
-/
import SecretRenewal.Json.Value
import Std.Data.HashMap
import Std.Data.TreeMap

namespace SecretRenewal

/-- What takes values under keys. -/
class ConfigSink (sink : Type) where
  /-- Puts a value under a key, in place of an earlier one. -/
  set : sink → String → Json → sink

/-- Puts values under keys one after another. -/
def ConfigSink.setAll {sink : Type} [ConfigSink sink] (target : sink)
    (given : List (String × Json)) : sink :=
  given.foldl (fun target entry => ConfigSink.set target entry.1 entry.2) target

/-- Values in the order of their keys. -/
structure Values where
  /-- The values. -/
  entries : Entries Json
  /-- The order, which also says that no key occurs twice. -/
  ascending : entries.Ascending

namespace Values

/-- No values. -/
def empty : Values := ⟨[], List.Pairwise.nil⟩

instance : Inhabited Values := ⟨empty⟩

/-- Puts a value under a key. -/
def set (values : Values) (key : String) (given : Json) : Values :=
  ⟨values.entries.set key given, values.ascending.set key given⟩

instance : ConfigSink Values := ⟨set⟩

/-- The value under a key. -/
def get? (values : Values) (key : String) : Option Json := values.entries.get? key

/-- The text under a key, if the value there is one. -/
def getText? (values : Values) (key : String) : Option String := (values.get? key).bind Json.asText?

/-- The number of keys. -/
def size (values : Values) : Nat := values.entries.length

/-- Whether there is no key. -/
def isEmpty (values : Values) : Bool := values.entries.isEmpty

/-- Keys and values in the order of the keys. -/
def toList (values : Values) : List (String × Json) := values.entries

/-- Whether the same keys have the same values. -/
def same (first second : Values) : Bool := Json.sameMembers first.entries second.entries

/-- The values as a search tree. -/
def toTree (values : Values) : Std.TreeMap String Json :=
  values.entries.foldl (fun tree entry => tree.insert entry.1 entry.2) ∅

/-- Looking up after setting. -/
@[simp] theorem get?_set (values : Values) (key other : String) (given : Json) :
    (values.set key given).get? other = if key = other then some given else values.get? other :=
  Entries.get?_set values.entries key other given

/-- Nothing is found in no values. -/
@[simp] theorem get?_empty (key : String) : empty.get? key = none := rfl

end Values

instance : ConfigSink (Std.HashMap String Json) := ⟨fun table key given => table.insert key given⟩

instance : ConfigSink (Std.TreeMap String Json) := ⟨fun tree key given => tree.insert key given⟩

end SecretRenewal
